import Hitz.Lib.Bytes
import Hitz.Lib.WriteLog
import Hitz.Vmm.MemoryRegions

/-!
# Guest memory over the host heap (`hitz-vmm/src/memory.rs`)

The source resolves a guest address to a host pointer and copies there.  Here the heap is a
function on host addresses, and a region is only an address range with a pointer into it.

* `HostMemory.writeSlice`, `readSlice`, `writeU64`, `writeU32` follow the source down to
  `ptr::copy_nonoverlapping`;
* `FreshBlocks`: what the allocator promises about the blocks it handed out;
* `HostMemory.view`: the same memory with each region owning its block.  Where the blocks are
  apart a call on the heap is the call of that name on the view (`view_writeSlice`,
  `view_readSlice`), so what is proved about owned blocks holds of the pointers;
* `IsByteStore h log`: the memory `h` behaves as a byte store that has seen the writes of `log`.
-/

namespace Hitz.Vmm

open Bytes GuestMemory WriteLog

/-- A call of `add_region`, with the allocator as it is at that moment. -/
structure AllocCall where
  gpa : UInt64
  size : UInt64
  virtualAlloc : ℕ → Option ℕ

/-- The memory after a call of `add_region`; a rejected call changes nothing. -/
def GuestMemory.build (m : GuestMemory) (c : AllocCall) : GuestMemory :=
  match addRegion c.virtualAlloc m c.gpa c.size with
  | .ok m' => m'
  | .error _ => m

/-- The host blocks behind two regions have no address in common. -/
def GuestRegion.BlocksApart (r s : GuestRegion) : Prop :=
  r.hva + r.size.toNat ≤ s.hva ∨ s.hva + s.size.toNat ≤ r.hva

/-- The blocks behind the regions lie apart in the heap and are zero. -/
structure FreshBlocks (m : GuestMemory) (heap : ℕ → UInt8) : Prop where
  apart : m.regions.Pairwise GuestRegion.BlocksApart
  zero : ∀ r ∈ m.regions, ∀ i < r.size.toNat, heap (r.hva + i) = 0

/-- Guest memory and the host heap that its regions point into. -/
structure HostMemory where
  mem : GuestMemory
  heap : ℕ → UInt8

namespace HostMemory

/-- The host pointer that `find_region` returns. -/
def hostPtr (h : HostMemory) (gpa len : ℕ) : Except MemError ℕ :=
  match h.mem.findRegion gpa len with
  | .error e => .error e
  | .ok (idx, offset, _) => .ok (((h.mem.regions[idx]?).map GuestRegion.hva).getD 0 + offset)

/-- `ptr::copy_nonoverlapping` into the heap. -/
def copyIn (heap : ℕ → UInt8) (p : ℕ) (data : List UInt8) : ℕ → UInt8 :=
  fun q => if p ≤ q then (data[q - p]?).getD (heap q) else heap q

/-- `ptr::copy_nonoverlapping` out of the heap. -/
def copyOut (heap : ℕ → UInt8) (p n : ℕ) : List UInt8 := (List.range n).map fun i => heap (p + i)

/-- Copy `data` into guest memory at `gpa`. -/
def writeSlice (h : HostMemory) (gpa : UInt64) (data : List UInt8) :
    Except MemError Unit × HostMemory :=
  if data.isEmpty then (.ok (), h)
  else
    match h.hostPtr gpa.toNat data.length with
    | .error e => (.error e, h)
    | .ok hva => (.ok (), { h with heap := copyIn h.heap hva data })

/-- Copy guest memory at `gpa` into `buf`; the second component is the buffer afterwards. -/
def readSlice (h : HostMemory) (gpa : UInt64) (buf : List UInt8) :
    Except MemError Unit × List UInt8 :=
  if buf.isEmpty then (.ok (), buf)
  else
    match h.hostPtr gpa.toNat buf.length with
    | .error e => (.error e, buf)
    | .ok hva => (.ok (), copyOut h.heap hva buf.length)

/-- `to_ne_bytes` is little-endian on x86-64, the only target. -/
def writeU64 (h : HostMemory) (gpa val : UInt64) : Except MemError Unit × HostMemory :=
  h.writeSlice gpa (leBytes 8 val.toNat)

/-- Write a `u32` value at `gpa`. -/
def writeU32 (h : HostMemory) (gpa : UInt64) (val : UInt32) : Except MemError Unit × HostMemory :=
  h.writeSlice gpa (leBytes 4 val.toNat)

/-- The byte at a guest physical address; `0` where nothing is mapped. -/
def byte (h : HostMemory) (x : ℕ) : UInt8 :=
  match h.hostPtr x 1 with
  | .ok p => h.heap p
  | .error _ => 0

/-! ### Calls -/

/-- A call on guest memory. -/
inductive Call
  | writeSlice (gpa : UInt64) (data : List UInt8)
  | writeU64 (gpa val : UInt64)
  | writeU32 (gpa : UInt64) (val : UInt32)
  | readSlice (gpa : UInt64) (buf : List UInt8)

/-- The result of a call, and the memory after it. -/
def call (h : HostMemory) : Call → Except MemError Unit × HostMemory
  | .writeSlice gpa data => h.writeSlice gpa data
  | .writeU64 gpa val => h.writeU64 gpa val
  | .writeU32 gpa val => h.writeU32 gpa val
  | .readSlice gpa buf => ((h.readSlice gpa buf).1, h)

/-- What a call writes, and where. -/
def Call.write? : Call → Option (UInt64 × List UInt8)
  | .writeSlice gpa data => some (gpa, data)
  | .writeU64 gpa val => some (gpa, leBytes 8 val.toNat)
  | .writeU32 gpa val => some (gpa, leBytes 4 val.toNat)
  | .readSlice _ _ => none

/-- The byte that a write puts at `x`. -/
def written (x : ℕ) (w : UInt64 × List UInt8) : Option UInt8 :=
  if w.1.toNat ≤ x then w.2[x - w.1.toNat]? else none

/-- A memory with the successful writes made to it so far. -/
structure Trace where
  host : HostMemory
  log : List (UInt64 × List UInt8) := []

/-- One call; a successful write joins the log. -/
def Trace.step (t : Trace) (c : Call) : Trace where
  host := (t.host.call c).2
  log := t.log ++ if (t.host.call c).1.isOk then c.write?.toList else []

/-- The memory is a byte store that has seen the writes of `log`. -/
structure IsByteStore (h : HostMemory) (log : List (UInt64 × List UInt8)) : Prop where
  /-- A successful write replaces exactly its range, in the guest and in the heap. -/
  write_ok : ∀ c w, c.write? = some w → (h.call c).1.isOk = true →
    (∀ x, (h.call c).2.byte x = (written x w).getD (h.byte x)) ∧ (h.call c).2.mem = h.mem ∧
      ∀ p, (∀ x, w.1.toNat ≤ x → x < w.1.toNat + w.2.length → h.hostPtr x 1 ≠ .ok p) →
        (h.call c).2.heap p = h.heap p
  /-- A failed call changes nothing, and neither does a read. -/
  unchanged : ∀ c, (h.call c).1.isOk = false ∨ c.write? = none → (h.call c).2 = h
  /-- A failed read leaves the buffer as it was. -/
  read_error : ∀ gpa buf, (h.readSlice gpa buf).1.isOk = false → (h.readSlice gpa buf).2 = buf
  /-- A successful read finds the last byte written to each address, or zero. -/
  read_ok : ∀ gpa buf, (h.readSlice gpa buf).1.isOk = true → (h.readSlice gpa buf).2 =
    (List.range buf.length).map fun i => (last (written (gpa.toNat + i)) log).getD 0
  /-- A range can be read exactly when it can be written. -/
  read_iff_write : ∀ gpa buf data, buf.length = data.length →
    ((h.readSlice gpa buf).1.isOk = true ↔ (h.writeSlice gpa data).1.isOk = true)

/-! ### Regions that own their blocks -/

/-- A region with its block read off the heap. -/
def look (heap : ℕ → UInt8) (r : GuestRegion) : GuestRegion :=
  { r with block := fun i => if i < r.size.toNat then heap (r.hva + i) else 0 }

/-- The memory with each region owning its block. -/
def view (h : HostMemory) : GuestMemory := { regions := h.mem.regions.map (look h.heap) }

theorem map_range_view (h : HostMemory) :
    h.view.regions.map GuestRegion.range = h.mem.regions.map GuestRegion.range := by
  simp only [view, List.map_map]
  rfl

theorem findRegion_view (h : HostMemory) (a n : ℕ) :
    h.view.findRegion a n = h.mem.findRegion a n := findRegion_congr (map_range_view h) a n

theorem wf_view {h : HostMemory} (hm : h.mem.WF) : h.view.WF := hm.of_map_range (map_range_view h)

/-- The host pointer of a range is its place in the block of the region that holds it. -/
theorem hostPtr_eq_ok {h : HostMemory} (hm : h.mem.WF) {a n p : ℕ} (hn : 0 < n) :
    h.hostPtr a n = .ok p ↔ ∃ i r, h.mem.regions[i]? = some r ∧ r.lo ≤ a ∧ a + n ≤ r.hi ∧
      h.mem.findRegion a n = .ok (i, a - r.lo, r.size.toNat - (a - r.lo)) ∧
      p = r.hva + (a - r.lo) := by
  unfold hostPtr
  constructor
  · intro hp
    cases hf : h.mem.findRegion a n with
    | error e =>
      rw [hf] at hp
      cases hp
    | ok t =>
      obtain ⟨i, off, rem⟩ := t
      rw [hf] at hp
      obtain ⟨r, hr, h₁, h₂, rfl, rfl⟩ := (hm.findRegion_iff hn).1 hf
      simp only [hr, Option.map_some, Option.getD_some, Except.ok.injEq] at hp
      exact ⟨i, r, hr, h₁, h₂, rfl, hp.symm⟩
  · rintro ⟨i, r, hr, -, -, hf, rfl⟩
    rw [hf]
    simp [hr]

theorem isOk_writeSlice (h : HostMemory) (gpa : UInt64) (data : List UInt8) :
    (h.writeSlice gpa data).1.isOk = h.mem.mapped gpa.toNat data.length := by
  unfold writeSlice hostPtr mapped
  cases data with
  | nil => rfl
  | cons b data =>
    cases hf : h.mem.findRegion gpa.toNat (b :: data).length with
    | error e => simp [Except.isOk, Except.toBool, Except.toOption]
    | ok t => simp [Except.isOk, Except.toBool, Except.toOption]

theorem isOk_readSlice (h : HostMemory) (gpa : UInt64) (buf : List UInt8) :
    (h.readSlice gpa buf).1.isOk = h.mem.mapped gpa.toNat buf.length := by
  unfold readSlice hostPtr mapped
  cases buf with
  | nil => rfl
  | cons b buf =>
    cases hf : h.mem.findRegion gpa.toNat (b :: buf).length with
    | error e => simp [Except.isOk, Except.toBool, Except.toOption]
    | ok t => simp [Except.isOk, Except.toBool, Except.toOption]

theorem byte_view {h : HostMemory} (hm : h.mem.WF) (x : ℕ) : h.view.byte x = h.byte x := by
  unfold HostMemory.byte hostPtr GuestMemory.byte
  rw [findRegion_view]
  cases hf : h.mem.findRegion x 1 with
  | error e => rfl
  | ok t =>
    obtain ⟨i, off, rem⟩ := t
    obtain ⟨r, hr, h₁, h₂, rfl, rfl⟩ := (hm.findRegion_iff Nat.one_pos).1 hf
    have hlt : x - r.gpaStart.toNat < r.size.toNat := by omega
    simp [view, look, hr, hlt]

/-- A write into the block of one region does not reach the block of another. -/
theorem look_copyIn_of_apart {heap : ℕ → UInt8} {r s : GuestRegion} {off : ℕ} {data : List UInt8}
    (hap : r.BlocksApart s) (hfit : off + data.length ≤ r.size.toNat) :
    look (copyIn heap (r.hva + off) data) s = look heap s := by
  unfold look
  congr 1
  funext i
  split_ifs with hi
  · unfold copyIn
    split_ifs with hle
    · unfold GuestRegion.BlocksApart at hap
      rw [List.getElem?_eq_none (by omega), Option.getD_none]
    · rfl
  · rfl

/-- A write into a region's own block. -/
theorem look_copyIn_self {heap : ℕ → UInt8} {r : GuestRegion} {off : ℕ} {data : List UInt8}
    (hfit : off + data.length ≤ r.size.toNat) :
    look (copyIn heap (r.hva + off) data) r = store off data (look heap r) := by
  unfold look store
  congr 1
  funext i
  by_cases hi : i < r.size.toNat
  · simp only [if_pos hi, copyIn, Nat.add_le_add_iff_left, Nat.add_sub_add_left]
  · have hnone : data[i - off]? = none := List.getElem?_eq_none (by omega)
    simp [hi, hnone]

theorem blocksApart_of_ne {m : GuestMemory} (hap : m.regions.Pairwise GuestRegion.BlocksApart)
    {i j : ℕ} {r s : GuestRegion} (hr : m.regions[i]? = some r) (hs : m.regions[j]? = some s)
    (hij : i ≠ j) : r.BlocksApart s := by
  obtain ⟨hi, rfl⟩ := List.getElem?_eq_some_iff.1 hr
  obtain ⟨hj, rfl⟩ := List.getElem?_eq_some_iff.1 hs
  rcases Nat.lt_or_gt_of_ne hij with hlt | hlt
  · exact List.pairwise_iff_getElem.1 hap i j hi hj hlt
  · exact (List.pairwise_iff_getElem.1 hap j i hj hi hlt).symm

/-- **A write through the host pointer** is the write to the region that owns the block. -/
theorem view_writeSlice {h : HostMemory} (hm : h.mem.WF)
    (hap : h.mem.regions.Pairwise GuestRegion.BlocksApart) {gpa : UInt64} {data : List UInt8}
    (hok : (h.writeSlice gpa data).1.isOk = true) :
    h.view.writeSlice gpa.toNat data = .ok (h.writeSlice gpa data).2.view := by
  rw [isOk_writeSlice] at hok
  unfold HostMemory.writeSlice GuestMemory.writeSlice
  by_cases hd : data.isEmpty = true
  · rw [if_pos hd, if_pos hd]
  · have hpos : 0 < data.length := List.length_pos_iff.2 fun hnil => hd (by simp [hnil])
    obtain ⟨i, off, rem, hf⟩ := (mapped_iff hpos).1 hok
    obtain ⟨r, hr, h₁, h₂, rfl, rfl⟩ := (hm.findRegion_iff hpos).1 hf
    have hp : h.hostPtr gpa.toNat data.length = .ok (r.hva + (gpa.toNat - r.lo)) :=
      (hostPtr_eq_ok hm hpos).2 ⟨i, r, hr, h₁, h₂, hf, rfl⟩
    rw [if_neg hd, if_neg hd, hp, findRegion_view, hf]
    show Except.ok _ = Except.ok _
    congr 2
    apply List.ext_getElem?
    intro j
    simp only [view, List.getElem?_modify, List.getElem?_map]
    have hfit : gpa.toNat - r.lo + data.length ≤ r.size.toNat := by
      simp only [GuestRegion.lo]
      omega
    cases hs : h.mem.regions[j]? with
    | none => simp
    | some s =>
      by_cases hij : i = j
      · subst hij
        rw [hr] at hs
        cases hs
        simpa [GuestRegion.lo] using (look_copyIn_self hfit).symm
      · simpa [hij] using (look_copyIn_of_apart (blocksApart_of_ne hap hr hs hij) hfit).symm

/-- **A read through the host pointer** is the read of the region that owns the block. -/
theorem view_readSlice {h : HostMemory} (hm : h.mem.WF) {gpa : UInt64} {buf : List UInt8}
    (hok : (h.readSlice gpa buf).1.isOk = true) :
    h.view.readSlice gpa.toNat buf.length = .ok (h.readSlice gpa buf).2 := by
  rw [isOk_readSlice] at hok
  unfold HostMemory.readSlice GuestMemory.readSlice
  cases buf with
  | nil => rfl
  | cons b buf =>
    have hpos : 0 < (b :: buf).length := Nat.succ_pos _
    obtain ⟨i, off, rem, hf⟩ := (mapped_iff hpos).1 hok
    obtain ⟨r, hr, h₁, h₂, rfl, rfl⟩ := (hm.findRegion_iff hpos).1 hf
    have hp : h.hostPtr gpa.toNat (b :: buf).length = .ok (r.hva + (gpa.toNat - r.lo)) :=
      (hostPtr_eq_ok hm hpos).2 ⟨i, r, hr, h₁, h₂, hf, rfl⟩
    rw [if_neg (by simp), if_neg (by simp), hp, findRegion_view, hf]
    show Except.ok _ = Except.ok _
    congr 1
    apply List.map_congr_left
    intro k hk
    have hk := List.mem_range.1 hk
    have hlt : gpa.toNat - r.gpaStart.toNat + k < r.size.toNat := by omega
    simp [view, look, hr, hlt, GuestRegion.lo, Nat.add_assoc]

/-! ### One call -/

theorem call_of_write? (h : HostMemory) {c : Call} {w : UInt64 × List UInt8}
    (hc : c.write? = some w) : h.call c = h.writeSlice w.1 w.2 := by
  cases c with
  | writeSlice gpa data => cases hc; rfl
  | writeU64 gpa val => cases hc; rfl
  | writeU32 gpa val => cases hc; rfl
  | readSlice gpa buf => cases hc

theorem writeSlice_mem (h : HostMemory) (gpa : UInt64) (data : List UInt8) :
    (h.writeSlice gpa data).2.mem = h.mem := by
  unfold HostMemory.writeSlice
  split_ifs
  · rfl
  · cases h.hostPtr gpa.toNat data.length <;> rfl

theorem writeSlice_of_error {h : HostMemory} {gpa : UInt64} {data : List UInt8}
    (herr : (h.writeSlice gpa data).1.isOk = false) : (h.writeSlice gpa data).2 = h := by
  unfold HostMemory.writeSlice at herr ⊢
  split_ifs at herr ⊢ with hd
  · rfl
  · cases hp : h.hostPtr gpa.toNat data.length with
    | error e => rfl
    | ok p =>
      rw [hp] at herr
      cases herr

theorem readSlice_of_error {h : HostMemory} {gpa : UInt64} {buf : List UInt8}
    (herr : (h.readSlice gpa buf).1.isOk = false) : (h.readSlice gpa buf).2 = buf := by
  unfold HostMemory.readSlice at herr ⊢
  split_ifs at herr ⊢ with hd
  · rfl
  · cases hp : h.hostPtr gpa.toNat buf.length with
    | error e => rfl
    | ok p =>
      rw [hp] at herr
      cases herr

/-- A failed call changes nothing, and neither does a read. -/
theorem call_unchanged {h : HostMemory} {c : Call}
    (hc : (h.call c).1.isOk = false ∨ c.write? = none) : (h.call c).2 = h := by
  cases hw : c.write? with
  | none =>
    cases c with
    | readSlice gpa buf => rfl
    | _ => cases hw
  | some w =>
    rw [hw, call_of_write? h hw] at hc
    rw [call_of_write? h hw]
    rcases hc with herr | hnone
    · exact writeSlice_of_error herr
    · cases hnone

theorem call_mem (h : HostMemory) (c : Call) : (h.call c).2.mem = h.mem := by
  cases hw : c.write? with
  | none => rw [call_unchanged (Or.inr hw)]
  | some w => rw [call_of_write? h hw, writeSlice_mem]

section Blocks

variable {h : HostMemory} (hm : h.mem.WF)
  (hap : h.mem.regions.Pairwise GuestRegion.BlocksApart)

include hm hap in
/-- A successful write replaces exactly its range. -/
theorem byte_writeSlice {w : UInt64 × List UInt8} (hok : (h.writeSlice w.1 w.2).1.isOk = true)
    (x : ℕ) : (h.writeSlice w.1 w.2).2.byte x = (written x w).getD (h.byte x) := by
  have hm' : (h.writeSlice w.1 w.2).2.mem.WF := by rwa [writeSlice_mem]
  rw [← byte_view hm', (wf_view hm).byte_writeSlice (view_writeSlice hm hap hok) x, byte_view hm]
  unfold written
  split_ifs <;> rfl

include hm in
/-- A write stays inside the host addresses that back its range. -/
theorem heap_writeSlice {gpa : UInt64} {data : List UInt8} {p : ℕ}
    (hp : ∀ x, gpa.toNat ≤ x → x < gpa.toNat + data.length → h.hostPtr x 1 ≠ .ok p) :
    (h.writeSlice gpa data).2.heap p = h.heap p := by
  unfold HostMemory.writeSlice
  split_ifs with hd
  · rfl
  · have hpos : 0 < data.length := List.length_pos_iff.2 fun hnil => hd (by simp [hnil])
    cases hq : h.hostPtr gpa.toNat data.length with
    | error e => rfl
    | ok q =>
      obtain ⟨i, r, hr, h₁, h₂, -, rfl⟩ := (hostPtr_eq_ok hm hpos).1 hq
      show copyIn h.heap _ data p = h.heap p
      unfold copyIn
      split_ifs with hle
      · by_cases hin : p - (r.hva + (gpa.toNat - r.lo)) < data.length
        · -- `p` backs the address at the same distance from `gpa`
          have hx := hp (gpa.toNat + (p - (r.hva + (gpa.toNat - r.lo)))) (by omega) (by omega)
          refine absurd ((hostPtr_eq_ok hm Nat.one_pos).2 ⟨i, r, hr, ?_, ?_, ?_, ?_⟩) hx
          · omega
          · omega
          · exact (hm.findRegion_iff Nat.one_pos).2
              ⟨r, hr, le_trans h₁ (Nat.le_add_right _ _), by unfold GuestRegion.hi at h₂; omega,
                rfl, rfl⟩
          · omega
        · rw [List.getElem?_eq_none (by omega), Option.getD_none]
      · rfl

end Blocks

/-! ### Runs -/

/-- What every run of calls on a memory keeps: its regions, and each byte is the last one written
to its address, or zero. -/
structure Trace.Inv (m : GuestMemory) (t : Trace) : Prop where
  mem_eq : t.host.mem = m
  byte_eq : ∀ x, t.host.byte x = (last (written x) t.log).getD 0

variable {m : GuestMemory}

theorem Trace.Inv.step {t : Trace} (ht : t.Inv m) (hm : m.WF)
    (hap : m.regions.Pairwise GuestRegion.BlocksApart) (c : Call) : (t.step c).Inv m := by
  obtain ⟨hmem, hbyte⟩ := ht
  subst hmem
  refine ⟨call_mem t.host c, fun x => ?_⟩
  unfold Trace.step
  cases hok : (t.host.call c).1.isOk with
  | false => simp [call_unchanged (Or.inl hok), hbyte]
  | true =>
    cases hw : c.write? with
    | none => simp [call_unchanged (Or.inr hw), hbyte]
    | some w =>
      rw [call_of_write? t.host hw] at hok ⊢
      simp only [if_true, Option.toList_some, byte_writeSlice hm hap hok, hbyte, last_concat]
      cases written x w <;> rfl

theorem Trace.Inv.run {t : Trace} (ht : t.Inv m) (hm : m.WF)
    (hap : m.regions.Pairwise GuestRegion.BlocksApart) (calls : List Call) :
    (calls.foldl Trace.step t).Inv m := by
  induction calls generalizing t with
  | nil => exact ht
  | cons c calls ih => exact ih (ht.step hm hap c)

/-- The invariant says what every call does. -/
theorem Trace.Inv.isByteStore {t : Trace} (ht : t.Inv m) (hm : m.WF)
    (hap : m.regions.Pairwise GuestRegion.BlocksApart) : IsByteStore t.host t.log := by
  obtain ⟨hmem, hbyte⟩ := ht
  subst hmem
  constructor
  · intro c w hw hok
    rw [call_of_write? t.host hw] at hok ⊢
    exact ⟨byte_writeSlice hm hap hok, writeSlice_mem _ _ _, fun p => heap_writeSlice hm⟩
  · exact fun c => call_unchanged
  · exact fun gpa buf => readSlice_of_error
  · intro gpa buf hok
    have hread := (wf_view hm).readSlice_eq gpa.toNat buf.length
    rw [view_readSlice hm hok] at hread
    split_ifs at hread
    · refine (Option.some.inj hread).trans (List.map_congr_left fun i _ => ?_)
      rw [byte_view hm, hbyte]
    · cases hread
  · intro gpa buf data hlen
    rw [isOk_readSlice, isOk_writeSlice, hlen]

end HostMemory

/-! ### Memories built by `add_region` -/

namespace GuestMemory

/-- A call of `add_region` is rejected, or it goes on with the block it was given. -/
theorem build_cases (m : GuestMemory) (c : AllocCall) :
    build m c = m ∨ ∃ hva, build m c = addStep m ⟨c.gpa, c.size, hva⟩ := by
  cases hal : alignUp c.size.toNat pageSize with
  | none =>
    left
    unfold build addRegion
    rw [hal]
  | some aligned =>
    cases hva : c.virtualAlloc aligned with
    | none =>
      left
      unfold build addRegion
      simp only [hal, hva]
      split_ifs <;> rfl
    | some p =>
      -- The block is asked for at one size only.
      have hadd : addRegion c.virtualAlloc m c.gpa c.size =
          addRegion (fun _ => some p) m c.gpa c.size := by
        unfold addRegion
        simp only [hal, hva]
      cases hresult : addRegion (fun _ => some p) m c.gpa c.size with
      | error e =>
        left
        unfold build
        rw [hadd, hresult]
      | ok m' =>
        have hbuild : build m c = m' := by
          unfold build
          rw [hadd, hresult]
        have hstep : addStep m ⟨c.gpa, c.size, p⟩ = m' := by
          unfold addStep
          simp only [hresult]
        exact Or.inr ⟨p, by rw [hbuild, hstep]⟩

/-- The regions are sorted, disjoint and non-empty. -/
theorem WF.of_regionInv {m : GuestMemory} (h : RegionInv m)
    (hpos : ∀ r ∈ m.regions, 0 < r.size.toNat) : m.WF := by
  refine ⟨?_, fun r hr => ⟨hpos r hr, h.bound r hr⟩⟩
  refine (h.laid.sorted.and h.laid.apart).imp_of_mem ?_
  rintro r s - hs ⟨hle, hap⟩
  have hspos := hpos s hs
  simp only [Intervals.Apart, GuestRegion.lo, GuestRegion.hi] at hle hap
  omega

/-- Adding a region of positive size keeps all regions non-empty. -/
theorem pos_addStep {m : GuestMemory} {c : AddCall} (hm : ∀ r ∈ m.regions, 0 < r.size.toNat)
    (hc : 0 < c.size.toNat) : ∀ r ∈ (addStep m c).regions, 0 < r.size.toNat := by
  rcases addRegion_cases m c with ⟨-, e, he⟩ | ⟨-, r, -, -, -, hpos, -, hok⟩
  · rwa [addStep_of_error he]
  · rw [addStep_of_ok hok]
    intro s hs
    rcases mem_inserted.1 hs with rfl | hs
    · exact hpos.2 hc
    · exact hm s hs

/-- A memory built with positive sizes is well formed. -/
theorem wf_build {calls : List AllocCall} (hpos : ∀ c ∈ calls, 0 < c.size.toNat) :
    (calls.foldl build {}).WF := by
  have key : RegionInv (calls.foldl build {}) ∧
      ∀ r ∈ (calls.foldl build {}).regions, 0 < r.size.toNat := by
    induction calls using List.reverseRecOn with
    | nil => exact ⟨regionInv_empty, by simp⟩
    | append_singleton calls c ih =>
      obtain ⟨hinv, hall⟩ := ih fun c' hc' => hpos c' (List.mem_append_left _ hc')
      rw [List.foldl_append, List.foldl_cons, List.foldl_nil]
      rcases build_cases (calls.foldl build {}) c with heq | ⟨hva, heq⟩
      · rw [heq]
        exact ⟨hinv, hall⟩
      · rw [heq]
        exact ⟨(hinv.addStep _).1, pos_addStep hall (hpos c (by simp))⟩
  exact WF.of_regionInv key.1 key.2

end GuestMemory

namespace HostMemory

/-- Fresh memory reads as zero everywhere. -/
theorem byte_fresh {m : GuestMemory} {heap : ℕ → UInt8} (hm : m.WF) (hf : FreshBlocks m heap)
    (x : ℕ) : byte ⟨m, heap⟩ x = 0 := by
  unfold byte
  cases hp : hostPtr ⟨m, heap⟩ x 1 with
  | error e => rfl
  | ok p =>
    obtain ⟨i, r, hr, h₁, h₂, -, rfl⟩ := (hostPtr_eq_ok hm Nat.one_pos).1 hp
    refine hf.zero r (List.mem_of_getElem? hr) _ ?_
    simp only [GuestRegion.lo, GuestRegion.hi] at h₁ h₂ ⊢
    omega

/-- **Guest memory is a byte store**: whatever `add_region` calls of positive sizes built it, on
blocks that are fresh and apart, and whatever was called on it since. -/
theorem guestMemory_isByteStore {adds : List AllocCall} {heap : ℕ → UInt8}
    (hpos : ∀ c ∈ adds, 0 < c.size.toNat) (hfresh : FreshBlocks (adds.foldl build {}) heap)
    (calls : List Call) :
    IsByteStore (calls.foldl Trace.step ⟨⟨adds.foldl build {}, heap⟩, []⟩).host
      (calls.foldl Trace.step ⟨⟨adds.foldl build {}, heap⟩, []⟩).log := by
  have hm := wf_build hpos
  have hinit : Trace.Inv (adds.foldl build {}) ⟨⟨adds.foldl build {}, heap⟩, []⟩ :=
    ⟨rfl, fun x => byte_fresh hm hfresh x⟩
  exact (hinit.run hm hfresh.apart calls).isByteStore hm hfresh.apart

/-- Two pages with blocks in the other order, and a write that ends where the first page ends. -/
theorem two_pages_isByteStore :
    IsByteStore ([Call.writeSlice 4094 [1, 2], .writeSlice 4095 [3, 4]].foldl Trace.step
        ⟨⟨[⟨0, 1, fun _ => some 8192⟩, ⟨4096, 4096, fun _ => some 4096⟩].foldl build {},
          fun _ => 0⟩, []⟩).host
      ([Call.writeSlice 4094 [1, 2], .writeSlice 4095 [3, 4]].foldl Trace.step
        ⟨⟨[⟨0, 1, fun _ => some 8192⟩, ⟨4096, 4096, fun _ => some 4096⟩].foldl build {},
          fun _ => 0⟩, []⟩).log :=
  guestMemory_isByteStore (by decide)
    ⟨by
      show List.Pairwise _ [(⟨0, 4096, 8192, fun _ => 0⟩ : GuestRegion),
        ⟨4096, 4096, 4096, fun _ => 0⟩]
      exact List.pairwise_pair.2 (Or.inr (by decide)), fun _ _ _ _ => rfl⟩ _

end HostMemory

end Hitz.Vmm

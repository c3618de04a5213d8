import Hitz.Lib.ByteStore
import Hitz.Lib.Intervals

/-!
# Guest physical memory (`hitz-vmm/src/memory.rs`)

Guest memory is a list of regions sorted by guest physical address.  Each region owns a block of
host memory; the block is part of the region here, since nothing else holds a pointer to it.

* `addRegion`, `findRegion`, `writeSlice`, `readSlice`, `writeZeroes` follow the source;
* `WF`: the regions are non-empty, sorted and disjoint;
* on well-formed memories the slice operations form a `ByteStore` (`instByteStore`).

`virtual_alloc` is a parameter: it answers a size with the host address of a fresh zeroed block,
or fails.
-/

namespace Hitz.Vmm

open BinarySearch Intervals

/-- `MemError`; `overlap` is the `HalError::MapMemory` that `add_region` wraps. -/
inductive MemError
  | invalidSize (gpa size : ℕ)
  | allocFailed (gpa size : ℕ)
  | notMapped (gpa len : ℕ)
  | outOfBounds (gpa len : ℕ)
  | overlap (gpa size : ℕ)
  deriving DecidableEq, Repr

/-- A region: guest address, size in bytes, host address, and the host block it owns. -/
structure GuestRegion where
  gpaStart : UInt64
  size : UInt64
  hva : ℕ
  block : ℕ → UInt8

/-- The first address after a region, saturating as the source computes it. -/
def GuestRegion.stop (r : GuestRegion) : ℕ := min (r.gpaStart.toNat + r.size.toNat) (2 ^ 64 - 1)

/-- First address of a region. -/
def GuestRegion.lo (r : GuestRegion) : ℕ := r.gpaStart.toNat

/-- First address after a region. -/
def GuestRegion.hi (r : GuestRegion) : ℕ := r.gpaStart.toNat + r.size.toNat

/-- What `find_region` searches: start and size of a region. -/
def GuestRegion.range (r : GuestRegion) : UInt64 × UInt64 := (r.gpaStart, r.size)

/-- The region contains the address. -/
def GuestRegion.Contains (r : GuestRegion) (x : ℕ) : Prop :=
  r.gpaStart.toNat ≤ x ∧ x < r.gpaStart.toNat + r.size.toNat

/-- Guest memory: the regions in ascending order of `gpaStart`. -/
structure GuestMemory where
  regions : List GuestRegion := []

namespace GuestMemory

/-- Page size used for alignment. -/
def pageSize : ℕ := 4096

/-- Round up to a multiple of `align`, a power of two; `none` when the sum overflows. -/
def alignUp (value align : ℕ) : Option ℕ :=
  if value + (align - 1) < 2 ^ 64 then some ((value + (align - 1)) / align * align) else none

/-- Allocate a zeroed block and insert it at `gpa`, unless it overlaps an existing region. -/
def addRegion (virtualAlloc : ℕ → Option ℕ) (m : GuestMemory) (gpa size : UInt64) :
    Except MemError GuestMemory :=
  match alignUp size.toNat pageSize with
  | none => .error (.invalidSize gpa.toNat size.toNat)
  | some aligned =>
    if 2 ^ 64 ≤ gpa.toNat + aligned then .error (.invalidSize gpa.toNat aligned)
    else if m.regions.any fun r =>
        gpa.toNat < r.stop && r.gpaStart.toNat < gpa.toNat + aligned then
      .error (.overlap gpa.toNat aligned)
    else
      match virtualAlloc aligned with
      | none => .error (.allocFailed gpa.toNat aligned)
      | some hva =>
        let region : GuestRegion := ⟨gpa, UInt64.ofNat aligned, hva, fun _ => 0⟩
        let pos := match binarySearchBy (fun r => compare r.gpaStart.toNat gpa.toNat) m.regions with
          | .ok i => i
          | .error i => i
        .ok { m with regions := m.regions.take pos ++ region :: m.regions.drop pos }

/-- The comparison of `find_region`, on a region's start and size. -/
def rangeCmp (addr : ℕ) (r : UInt64 × UInt64) : Ordering :=
  if addr < r.1.toNat then .gt
  else if min (r.1.toNat + r.2.toNat) (2 ^ 64 - 1) ≤ addr then .lt
  else .eq

/-- The index of the region holding `[gpa, gpa + len)`, the offset of `gpa` in its block and the
bytes that remain from there; the host pointer is `hva + offset`. -/
def findRegion (m : GuestMemory) (gpa len : ℕ) : Except MemError (ℕ × ℕ × ℕ) :=
  if 2 ^ 64 ≤ gpa + len then .error (.outOfBounds gpa len)
  else
    match binarySearchBy (fun r => rangeCmp gpa (GuestRegion.range r)) m.regions with
    | .error _ => .error (.notMapped gpa len)
    | .ok idx =>
      match (m.regions[idx]?).map GuestRegion.range with
      | none => .error (.notMapped gpa len)
      | some (start, size) =>
        let offset := gpa - start.toNat
        if size.toNat < offset then .error (.outOfBounds gpa len)
        else if size.toNat - offset < len then .error (.outOfBounds gpa len)
        else .ok (idx, offset, size.toNat - offset)

/-- Copy bytes into a region's block. -/
def store (offset : ℕ) (data : List UInt8) (r : GuestRegion) : GuestRegion :=
  { r with block := fun i =>
      if offset ≤ i then (data[i - offset]?).getD (r.block i) else r.block i }

/-- Copy `data` into guest memory at `gpa`. -/
def writeSlice (m : GuestMemory) (gpa : ℕ) (data : List UInt8) : Except MemError GuestMemory :=
  if data.isEmpty then .ok m
  else do
    let (idx, offset, _) ← findRegion m gpa data.length
    .ok { m with regions := m.regions.modify idx (store offset data) }

/-- Read `len` bytes of guest memory at `gpa`. -/
def readSlice (m : GuestMemory) (gpa len : ℕ) : Except MemError (List UInt8) :=
  if len = 0 then .ok []
  else do
    let (idx, offset, _) ← findRegion m gpa len
    .ok ((List.range len).map fun i =>
      ((m.regions[idx]?).map fun r => r.block (offset + i)).getD 0)

/-- Zero `len` bytes at `gpa`, in chunks of at most 4096 bytes.  On failure the chunks already
written stay written, so the memory is returned on both paths.  `fuel = len` is always enough. -/
def writeZeroesLoop : ℕ → GuestMemory → ℕ → ℕ → Except MemError Unit × GuestMemory
  | 0, m, _, _ => (.ok (), m)
  | fuel + 1, m, gpa, len =>
    if len = 0 then (.ok (), m)
    else
      let chunk := min len 4096
      match writeSlice m gpa (List.replicate chunk 0) with
      | .error e => (.error e, m)
      | .ok m' => writeZeroesLoop fuel m' (min (gpa + chunk) (2 ^ 64 - 1)) (len - chunk)

/-- `GuestMemWriter::write_zeroes`. -/
def writeZeroes (m : GuestMemory) (gpa len : ℕ) : Except MemError Unit × GuestMemory :=
  writeZeroesLoop len m gpa len

/-! ### Well-formed memories -/

/-- Non-empty regions below `2^64`, in ascending order without overlap. -/
structure WF (m : GuestMemory) : Prop where
  sorted : m.regions.Pairwise fun r s => r.gpaStart.toNat + r.size.toNat ≤ s.gpaStart.toNat
  bounds : ∀ r ∈ m.regions, 0 < r.size.toNat ∧ r.gpaStart.toNat + r.size.toNat < 2 ^ 64

theorem rangeCmp_eq_gt {x : ℕ} {r : GuestRegion} :
    rangeCmp x (GuestRegion.range r) = .gt ↔ x < r.lo := by
  simp only [rangeCmp, GuestRegion.range, GuestRegion.lo]
  split_ifs with h1
  · simp [h1]
  · simp [h1]

theorem rangeCmp_eq_eq {x : ℕ} {r : GuestRegion} (hb : r.hi < 2 ^ 64) :
    rangeCmp x (GuestRegion.range r) = .eq ↔ Holds GuestRegion.lo GuestRegion.hi x r := by
  have hmin : min (r.gpaStart.toNat + r.size.toNat) (2 ^ 64 - 1) = r.hi := by
    simp only [GuestRegion.hi] at hb ⊢
    omega
  simp only [rangeCmp, GuestRegion.range, hmin, Holds, GuestRegion.lo]
  split_ifs with h1 h2
  · simp only [false_iff]
    omega
  · simp only [false_iff]
    omega
  · simp only [true_iff]
    omega

theorem cmpAt_regions {m : GuestMemory} {x i : ℕ} {r : GuestRegion}
    (hi : m.regions[i]? = some r) :
    cmpAt (fun r => rangeCmp x (GuestRegion.range r)) m.regions i =
      rangeCmp x (GuestRegion.range r) := by
  simp [cmpAt, hi]

/-- On sorted regions that end below `2^64`, the lookup stops at the last region that starts at
or below the address. -/
theorem findRegion_iff_lastBelow {m : GuestMemory}
    (hs : m.regions.Pairwise fun r s => r.lo ≤ s.lo) (hb : ∀ r ∈ m.regions, r.hi < 2 ^ 64)
    {a n i off rem : ℕ} (hn : 0 < n) :
    findRegion m a n = .ok (i, off, rem) ↔ LastBelow GuestRegion.lo a m.regions i ∧
      ∃ r, m.regions[i]? = some r ∧ a + n ≤ r.hi ∧ off = a - r.lo ∧
        rem = r.size.toNat - off := by
  have hok : ∀ k, binarySearchBy (fun r => rangeCmp a (GuestRegion.range r)) m.regions = .ok k ↔
      LastBelow GuestRegion.lo a m.regions k ∧
        cmpAt (fun r => rangeCmp a (GuestRegion.range r)) m.regions k = .eq :=
    fun k => binarySearchBy_eq_ok_iff hs fun r _ => rangeCmp_eq_gt
  constructor
  · intro h
    unfold findRegion at h
    split_ifs at h with h64
    split at h
    · cases h
    · rename_i idx hidx
      obtain ⟨hlast, heq⟩ := (hok idx).1 hidx
      obtain ⟨r, hr, hle⟩ := id hlast.1
      rw [cmpAt_regions hr, rangeCmp_eq_eq (hb r (List.mem_of_getElem? hr))] at heq
      simp only [hr, Option.map_some, GuestRegion.range] at h
      split_ifs at h with h3 h4
      cases h
      refine ⟨hlast, r, hr, ?_, rfl, rfl⟩
      simp only [GuestRegion.lo, GuestRegion.hi] at hle ⊢
      omega
  · rintro ⟨hlast, r, hr, h2, rfl, rfl⟩
    have hlt := hb r (List.mem_of_getElem? hr)
    have hle : r.lo ≤ a := by
      obtain ⟨s, hs', hle⟩ := hlast.1
      rw [hr] at hs'
      cases hs'
      exact hle
    have hfound := (hok i).2 ⟨hlast, by
      rw [cmpAt_regions hr, rangeCmp_eq_eq hlt]
      exact ⟨hle, by omega⟩⟩
    simp only [GuestRegion.lo, GuestRegion.hi] at h2 hle hlt ⊢
    unfold findRegion
    rw [if_neg (by omega), hfound]
    simp only [hr, Option.map_some, GuestRegion.range]
    rw [if_neg (by omega), if_neg (by omega)]

theorem WF.laid {m : GuestMemory} (hm : m.WF) : Laid GuestRegion.lo GuestRegion.hi m.regions := by
  constructor
  · exact hm.sorted.imp fun h => le_trans (Nat.le_add_right _ _) h
  · exact hm.sorted.imp fun h hover => absurd hover.2 (Nat.not_lt.2 h)
  · intro r _
    exact Nat.le_add_right _ _

/-- A non-empty region ends after its start, where the next one may start at the earliest. -/
theorem WF.not_hides {m : GuestMemory} (hm : m.WF) : ¬Hides GuestRegion.lo GuestRegion.hi m.regions := by
  rintro ⟨r, s, hsub, hne, heq⟩
  have hle := List.rel_of_pairwise_cons (hm.sorted.sublist hsub) (List.mem_singleton_self s)
  simp only [GuestRegion.lo, GuestRegion.hi] at hne heq
  omega

/-- An address lies in at most one region. -/
theorem WF.contains_unique {m : GuestMemory} (hm : m.WF) {i j x : ℕ} {r s : GuestRegion}
    (hi : m.regions[i]? = some r) (hj : m.regions[j]? = some s)
    (hr : GuestRegion.Contains r x) (hs : GuestRegion.Contains s x) : i = j :=
  hm.laid.holds_unique hi hj hr hs

/-- **The lookup is exact.**  It succeeds precisely when a region holds the whole range, and
then names that region. -/
theorem WF.findRegion_iff {m : GuestMemory} (hm : m.WF) {a n i off rem : ℕ} (hn : 0 < n) :
    findRegion m a n = .ok (i, off, rem) ↔
      ∃ r, m.regions[i]? = some r ∧ r.gpaStart.toNat ≤ a ∧
        a + n ≤ r.gpaStart.toNat + r.size.toNat ∧ off = a - r.gpaStart.toNat ∧
        rem = r.size.toNat - off := by
  rw [findRegion_iff_lastBelow hm.laid.sorted (fun r hr => (hm.bounds r hr).2) hn]
  constructor
  · rintro ⟨⟨⟨s, hs, hle⟩, -⟩, r, hr, hrest⟩
    rw [hr] at hs
    cases hs
    exact ⟨s, hr, hle, hrest⟩
  · rintro ⟨r, hr, hle, h2, hrest⟩
    refine ⟨hm.laid.lastBelow_of_holds hm.not_hides hr ⟨hle, ?_⟩, r, hr, h2, hrest⟩
    exact lt_of_lt_of_le (Nat.lt_add_of_pos_right hn) h2

/-! ### Guest memory as a byte store -/

theorem range_store (off : ℕ) (d : List UInt8) (r : GuestRegion) :
    GuestRegion.range (store off d r) = GuestRegion.range r := rfl

theorem map_range_modify (rs : List GuestRegion) (i off : ℕ) (d : List UInt8) :
    (rs.modify i (store off d)).map GuestRegion.range = rs.map GuestRegion.range := by
  apply List.ext_getElem?
  intro j
  simp only [List.getElem?_map, List.getElem?_modify]
  split_ifs with h
  · cases rs[j]? <;> simp [range_store]
  · simp

theorem findRegion_congr {m m' : GuestMemory}
    (h : m'.regions.map GuestRegion.range = m.regions.map GuestRegion.range) (a n : ℕ) :
    findRegion m' a n = findRegion m a n := by
  have hs : binarySearchBy (fun r => rangeCmp a (GuestRegion.range r)) m'.regions =
      binarySearchBy (fun r => rangeCmp a (GuestRegion.range r)) m.regions := by
    have h₁ := binarySearchBy_map (rangeCmp a) GuestRegion.range m'.regions
    have h₂ := binarySearchBy_map (rangeCmp a) GuestRegion.range m.regions
    rw [h, h₂] at h₁
    exact h₁.symm
  have hg : ∀ i : ℕ,
      (m'.regions[i]?).map GuestRegion.range = (m.regions[i]?).map GuestRegion.range := by
    intro i
    rw [← List.getElem?_map, ← List.getElem?_map, h]
  simp only [findRegion, hs, hg]

theorem writeSlice_ok {m m' : GuestMemory} {a : ℕ} {d : List UInt8}
    (h : writeSlice m a d = .ok m') :
    (d = [] ∧ m' = m) ∨ ∃ i off rem, d ≠ [] ∧ findRegion m a d.length = .ok (i, off, rem) ∧
      m' = { m with regions := m.regions.modify i (store off d) } := by
  unfold writeSlice at h
  by_cases hd : d.isEmpty = true
  · rw [if_pos hd] at h
    cases h
    exact Or.inl ⟨List.isEmpty_iff.1 hd, rfl⟩
  · rw [if_neg hd] at h
    cases hf : findRegion m a d.length with
    | error e =>
      rw [hf] at h
      cases h
    | ok t =>
      obtain ⟨i, off, rem⟩ := t
      rw [hf] at h
      cases h
      exact Or.inr ⟨i, off, rem, fun hnil => hd (by simp [hnil]), rfl, rfl⟩

theorem map_range_writeSlice {m m' : GuestMemory} {a : ℕ} {d : List UInt8}
    (h : writeSlice m a d = .ok m') :
    m'.regions.map GuestRegion.range = m.regions.map GuestRegion.range := by
  rcases writeSlice_ok h with ⟨-, rfl⟩ | ⟨i, off, rem, -, -, rfl⟩
  · rfl
  · exact map_range_modify _ _ _ _

theorem WF.of_map_range {m m' : GuestMemory} (hm : m.WF)
    (h : m'.regions.map GuestRegion.range = m.regions.map GuestRegion.range) : m'.WF := by
  constructor
  · have hs : (m.regions.map GuestRegion.range).Pairwise
        fun r s => r.1.toNat + r.2.toNat ≤ s.1.toNat := List.pairwise_map.2 hm.sorted
    rw [← h] at hs
    exact List.pairwise_map.1 hs
  · intro r hr
    have hmem : GuestRegion.range r ∈ m.regions.map GuestRegion.range := by
      rw [← h]
      exact List.mem_map_of_mem hr
    obtain ⟨s, hs, hsr⟩ := List.mem_map.1 hmem
    have hb := hm.bounds s hs
    simp only [GuestRegion.range, Prod.mk.injEq] at hsr
    rwa [hsr.1, hsr.2] at hb

/-- A write keeps the memory well formed. -/
theorem WF.writeSlice {m m' : GuestMemory} (hm : m.WF) {a : ℕ} {d : List UInt8}
    (h : writeSlice m a d = .ok m') : m'.WF :=
  hm.of_map_range (map_range_writeSlice h)

/-- Is the range accessible?  Empty ranges always are. -/
def mapped (m : GuestMemory) (a n : ℕ) : Bool := n = 0 || (findRegion m a n).toOption.isSome

/-- The byte at a guest physical address; `0` where nothing is mapped. -/
def byte (m : GuestMemory) (x : ℕ) : UInt8 :=
  match findRegion m x 1 with
  | .ok (i, off, _) => ((m.regions[i]?).map fun r => r.block off).getD 0
  | .error _ => 0

theorem mapped_iff {m : GuestMemory} {a n : ℕ} (hn : 0 < n) :
    mapped m a n = true ↔ ∃ i off rem, findRegion m a n = .ok (i, off, rem) := by
  have hn' : n ≠ 0 := by omega
  cases h : findRegion m a n with
  | error e => simp [mapped, h, hn', Except.toOption]
  | ok t =>
    obtain ⟨i, off, rem⟩ := t
    simp [mapped, h, Except.toOption]

theorem WF.byte_eq {m : GuestMemory} (hm : m.WF) {i x : ℕ} {r : GuestRegion}
    (hi : m.regions[i]? = some r) (hx : GuestRegion.Contains r x) :
    byte m x = r.block (x - r.gpaStart.toNat) := by
  obtain ⟨h₁, h₂⟩ := hx
  have hf : findRegion m x 1 = .ok (i, x - r.gpaStart.toNat, r.size.toNat -
      (x - r.gpaStart.toNat)) :=
    (hm.findRegion_iff Nat.one_pos).2 ⟨r, hi, h₁, by omega, rfl, rfl⟩
  simp [byte, hf, hi]

theorem WF.readSlice_eq {m : GuestMemory} (hm : m.WF) (a n : ℕ) :
    (readSlice m a n).toOption =
      if mapped m a n then some ((List.range n).map fun i => byte m (a + i)) else none := by
  by_cases hn : n = 0
  · subst hn
    simp [readSlice, mapped, Except.toOption]
  · unfold readSlice
    rw [if_neg hn]
    by_cases hmap : mapped m a n = true
    · rw [if_pos hmap]
      obtain ⟨i, off, rem, hf⟩ := (mapped_iff (by omega)).1 hmap
      obtain ⟨r, hr, h₁, h₂, rfl, rfl⟩ := (hm.findRegion_iff (by omega)).1 hf
      rw [hf]
      show some _ = some _
      congr 1
      apply List.map_congr_left
      intro k hk
      have hk := List.mem_range.1 hk
      rw [hm.byte_eq hr ⟨by omega, by omega⟩, hr, Option.map_some, Option.getD_some]
      congr 1
      omega
    · rw [if_neg hmap]
      cases hf : findRegion m a n with
      | error e => rfl
      | ok t =>
        obtain ⟨i, off, rem⟩ := t
        exact absurd ((mapped_iff (by omega)).2 ⟨i, off, rem, hf⟩) hmap

theorem isSome_writeSlice (m : GuestMemory) (a : ℕ) (d : List UInt8) :
    (GuestMemory.writeSlice m a d).toOption.isSome = mapped m a d.length := by
  unfold GuestMemory.writeSlice mapped
  cases d with
  | nil => rfl
  | cons b d =>
    cases hf : findRegion m a (b :: d).length with
    | error e => simp [Except.toOption, Bind.bind, Except.bind]
    | ok t => simp [Except.toOption, Bind.bind, Except.bind]

theorem WF.byte_writeSlice {m m' : GuestMemory} (hm : m.WF) {a : ℕ} {d : List UInt8}
    (h : GuestMemory.writeSlice m a d = .ok m') (x : ℕ) :
    byte m' x = if a ≤ x then (d[x - a]?).getD (byte m x) else byte m x := by
  rcases writeSlice_ok h with ⟨rfl, rfl⟩ | ⟨i, off, rem, hd, hf, rfl⟩
  · simp
  · have hpos : 0 < d.length := List.length_pos_iff.2 hd
    obtain ⟨r, hr, h₁, h₂, rfl, rfl⟩ := (hm.findRegion_iff hpos).1 hf
    have hcongr := findRegion_congr (map_range_writeSlice h) x 1
    have hget : (m.regions.modify i (store (a - r.gpaStart.toNat) d))[i]? =
        some (store (a - r.gpaStart.toNat) d r) := by simp [hr]
    cases hfx : findRegion m x 1 with
    | error e =>
      -- nothing is mapped at `x`, so `x` is not in the range written
      have hout : x < a ∨ a + d.length ≤ x := by
        by_contra hin
        have hok := (hm.findRegion_iff (a := x) Nat.one_pos).2
          ⟨r, hr, by omega, by omega, rfl, rfl⟩
        rw [hfx] at hok
        cases hok
      simp only [byte, hcongr, hfx]
      split_ifs with hax
      · rw [List.getElem?_eq_none (by omega)]
        rfl
      · rfl
    | ok t =>
      obtain ⟨j, offx, remx⟩ := t
      obtain ⟨s, hs, hs₁, hs₂, rfl, rfl⟩ := (hm.findRegion_iff Nat.one_pos).1 hfx
      simp only [byte, hcongr, hfx]
      by_cases hij : j = i
      · subst hij
        rw [hr] at hs
        cases hs
        rw [hget, hr]
        simp only [Option.map_some, Option.getD_some, store]
        by_cases hax : a ≤ x
        · rw [if_pos (by omega), if_pos hax, show x - r.gpaStart.toNat - (a - r.gpaStart.toNat) =
            x - a by omega]
        · rw [if_neg (by omega), if_neg hax]
      · have hout : x < a ∨ a + d.length ≤ x := by
          by_contra hin
          exact hij (hm.contains_unique hs hr ⟨hs₁, by omega⟩ ⟨by omega, by omega⟩)
        have hne : (m.regions.modify i (store (a - r.gpaStart.toNat) d))[j]? = m.regions[j]? := by
          simp [Ne.symm hij]
        rw [hne]
        split_ifs with hax
        · have hnone : d[x - a]? = none := List.getElem?_eq_none (by omega)
          rw [hnone, Option.getD_none]
        · rfl

theorem WF.mapped_sub {m : GuestMemory} (hm : m.WF) {a n b k : ℕ} (h : mapped m a n = true)
    (hab : a ≤ b) (hbk : b + k ≤ a + n) : mapped m b k = true := by
  by_cases hk : k = 0
  · simp [mapped, hk]
  · obtain ⟨i, off, rem, hf⟩ := (mapped_iff (by omega)).1 h
    obtain ⟨r, hr, h₁, h₂, -, -⟩ := (hm.findRegion_iff (by omega)).1 hf
    exact (mapped_iff (by omega)).2
      ⟨i, _, _, (hm.findRegion_iff (by omega)).2 ⟨r, hr, by omega, by omega, rfl, rfl⟩⟩

theorem mapped_lt {m : GuestMemory} {a n : ℕ} (h : mapped m a n = true) (hn : 0 < n) :
    a + n < 2 ^ 64 := by
  obtain ⟨i, off, rem, hf⟩ := (mapped_iff hn).1 h
  unfold findRegion at hf
  split_ifs at hf with h64
  omega

end GuestMemory

/-- Well-formed guest memory. -/
structure MappedMemory where
  mem : GuestMemory
  wf : mem.WF

namespace MappedMemory

open GuestMemory

/-- `write_guest` on well-formed memory. -/
def write (m : MappedMemory) (a : ℕ) (d : List UInt8) : Option MappedMemory :=
  match h : m.mem.writeSlice a d with
  | .ok m' => some ⟨m', m.wf.writeSlice h⟩
  | .error _ => none

theorem write_eq_some {m m' : MappedMemory} {a : ℕ} {d : List UInt8} (h : m.write a d = some m') :
    m.mem.writeSlice a d = .ok m'.mem := by
  unfold MappedMemory.write at h
  split at h
  · rename_i m'' hw
    cases h
    exact hw
  · cases h

theorem isSome_write (m : MappedMemory) (a : ℕ) (d : List UInt8) :
    (m.write a d).isSome = m.mem.mapped a d.length := by
  rw [← isSome_writeSlice]
  unfold MappedMemory.write
  split <;> simp [*, Except.toOption]

/-- Guest memory behaves as a byte store. -/
instance instByteStore : ByteStore MappedMemory where
  byte m := m.mem.byte
  mapped m := m.mem.mapped
  read m a n := (m.mem.readSlice a n).toOption
  write := MappedMemory.write
  read_eq m a n := m.wf.readSlice_eq a n
  isSome_write := isSome_write
  byte_write m _ _ _ h := m.wf.byte_writeSlice (write_eq_some h)
  mapped_write m a d m' h := by
    funext b k
    simp only [GuestMemory.mapped, findRegion_congr (map_range_writeSlice (write_eq_some h))]
  mapped_sub m _ _ _ _ := m.wf.mapped_sub
  mapped_lt _ _ _ := mapped_lt

/-- Byte strings laid out at given offsets, zero elsewhere. -/
def image (chunks : List (ℕ × List UInt8)) (i : ℕ) : UInt8 :=
  (chunks.findSome? fun c => if c.1 ≤ i then c.2[i - c.1]? else none).getD 0

/-- The memory of a guest: one region from address `0` on. -/
def ram (size : UInt64) (hsize : 0 < size.toNat) (block : ℕ → UInt8) : MappedMemory where
  mem := { regions := [⟨0, size, 0, block⟩] }
  wf := {
    sorted := List.pairwise_singleton _ _
    bounds := by
      intro r hr
      rw [List.mem_singleton] at hr
      subst hr
      have := size.toNat_lt
      exact ⟨hsize, by simpa using this⟩ }

theorem page_pos : 0 < (4096 : UInt64).toNat := by decide

end MappedMemory

end Hitz.Vmm

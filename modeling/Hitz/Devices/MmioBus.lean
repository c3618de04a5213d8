import Hitz.Hal.Types
import Hitz.Lib.Intervals

/-!
# The MMIO bus (`hitz-devices/src/mmio_bus.rs`)

The bus keeps its slots sorted by base address and resolves an address with `partition_point`.

* `register`, `findSlot`, `read`, `write`, `pollDevices` follow the source; a panic is an error;
* the sums `base + size` are plain `u64` additions, so what they do past `2^64` depends on the
  build: with overflow checks they panic, without them they wrap (`checked`);
* `Scans`: the bus resolves every address as a linear scan of the registered devices would, in
  whichever order they were registered.

An end at or past `2^64`, and an empty slot on the base of another slot, pass the overlap check
and break the lookup; nothing else does (`registerAll_scans_iff`).
-/

namespace Hitz.Devices

open Intervals
open scoped List

/-- What `MmioBus` panics with. -/
inductive Panic
  | addOverflow
  | overlapping (base size existing : UInt64)
  deriving DecidableEq, Repr

/-- The panic message. -/
def Panic.message : Panic → String
  | .addOverflow => "attempt to add with overflow"
  | .overlapping base size existing =>
    "Overlapping MMIO region: base " ++ Hal.hex base.toNat ++ ", size " ++ Hal.hex size.toNat ++
      " overlaps with existing device at " ++ Hal.hex existing.toNat

/-- The trait `MmioDevice`.  A read fills the caller's buffer.  What a write does to guest memory
is part of the device here. -/
class MmioDevice (δ : Type) where
  mmioRead : δ → UInt64 → List UInt8 → List UInt8 × δ
  mmioWrite : δ → UInt64 → List UInt8 → Option UInt8 × δ
  pollRx : δ → Option UInt8 × δ := fun device => (none, device)

/-- A registered device slot. -/
structure MmioSlot (δ : Type) where
  base : UInt64
  size : UInt64
  device : δ
  deriving DecidableEq, Repr

/-- The bus: its slots, sorted by base. -/
structure MmioBus (δ : Type) where
  slots : List (MmioSlot δ) := []
  deriving DecidableEq, Repr

variable {δ : Type}

/-- The addition of two `u64`, with or without overflow checks. -/
def addU64 (checked : Bool) (a b : UInt64) : Except Panic UInt64 :=
  if checked && decide (2 ^ 64 ≤ a.toNat + b.toNat) then .error .addOverflow else .ok (a + b)

namespace MmioSlot

/-- First address of the slot. -/
def lo (s : MmioSlot δ) : ℕ := s.base.toNat

/-- First address after the slot. -/
def hi (s : MmioSlot δ) : ℕ := s.base.toNat + s.size.toNat

/-- The slot contains the address. -/
def Contains (s : MmioSlot δ) (gpa : UInt64) : Prop := Holds lo hi gpa.toNat s

instance (s : MmioSlot δ) (gpa : UInt64) : Decidable (s.Contains gpa) :=
  inferInstanceAs (Decidable (Holds lo hi gpa.toNat s))

end MmioSlot

namespace MmioBus

/-- The loop of `register` over the slots already there. -/
def checkOverlaps (checked : Bool) (base size : UInt64) :
    List (MmioSlot δ) → Except Panic Unit
  | [] => .ok ()
  | slot :: rest => do
    let endGpa ← addU64 checked base size
    let slotEnd ← addU64 checked slot.base slot.size
    if base < slotEnd ∧ slot.base < endGpa then
      .error (.overlapping base size slot.base)
    else
      checkOverlaps checked base size rest

/-- `sort_by_key(|s| s.base)`, which is stable. -/
def sortByBase (slots : List (MmioSlot δ)) : List (MmioSlot δ) :=
  slots.insertionSort fun s t => s.lo ≤ t.lo

/-- Register a device at `base` occupying `size` bytes. -/
def register (checked : Bool) (bus : MmioBus δ) (base size : UInt64) (device : δ) :
    Except Panic (MmioBus δ) := do
  checkOverlaps checked base size bus.slots
  .ok { slots := sortByBase (bus.slots ++ [⟨base, size, device⟩]) }

/-- The index of the slot that owns `gpa`. -/
def findIdx (checked : Bool) (bus : MmioBus δ) (gpa : UInt64) : Except Panic (Option ℕ) :=
  match partitionPoint (fun s : MmioSlot δ => decide (s.lo ≤ gpa.toNat)) bus.slots with
  | 0 => .ok none
  | i + 1 =>
    match bus.slots[i]? with
    | none => .ok none
    | some slot => do
      let slotEnd ← addU64 checked slot.base slot.size
      if gpa < slotEnd then .ok (some i) else .ok none

/-- The slot that owns `gpa`. -/
def findSlot (checked : Bool) (bus : MmioBus δ) (gpa : UInt64) :
    Except Panic (Option (MmioSlot δ)) := do
  match ← findIdx checked bus gpa with
  | none => .ok none
  | some i => .ok bus.slots[i]?

/-- Put a device back into its slot. -/
def setDevice (bus : MmioBus δ) (i : ℕ) (device : δ) : MmioBus δ :=
  { slots := bus.slots.modify i fun s => { s with device := device } }

/-- Dispatch a guest read to the device owning `gpa`; all ones when there is none. -/
def read [MmioDevice δ] (checked : Bool) (bus : MmioBus δ) (gpa : UInt64) (data : List UInt8) :
    Except Panic (List UInt8 × MmioBus δ) := do
  match ← findIdx checked bus gpa with
  | none => .ok (data.map fun _ => 0xFF, bus)
  | some i =>
    match bus.slots[i]? with
    | none => .ok (data.map fun _ => 0xFF, bus)
    | some slot =>
      let (out, device) := MmioDevice.mmioRead slot.device (gpa - slot.base) data
      .ok (out, bus.setDevice i device)

/-- Dispatch a guest write to the device owning `gpa`. -/
def write [MmioDevice δ] (checked : Bool) (bus : MmioBus δ) (gpa : UInt64) (data : List UInt8) :
    Except Panic (Option UInt8 × MmioBus δ) := do
  match ← findIdx checked bus gpa with
  | none => .ok (none, bus)
  | some i =>
    match bus.slots[i]? with
    | none => .ok (none, bus)
    | some slot =>
      let (irq, device) := MmioDevice.mmioWrite slot.device (gpa - slot.base) data
      .ok (irq, bus.setDevice i device)

/-- Poll the devices in slot order; the first one with an interrupt ends the loop. -/
def pollLoop [MmioDevice δ] : List (MmioSlot δ) → Option UInt8 × List (MmioSlot δ)
  | [] => (none, [])
  | slot :: rest =>
    match MmioDevice.pollRx slot.device with
    | (some irq, device) => (some irq, { slot with device := device } :: rest)
    | (none, device) =>
      let (irq, rest') := pollLoop rest
      (irq, { slot with device := device } :: rest')

/-- `poll_devices`. -/
def pollDevices [MmioDevice δ] (bus : MmioBus δ) : Option UInt8 × MmioBus δ :=
  let (irq, slots) := pollLoop bus.slots
  (irq, { slots := slots })

/-- A sequence of `register` calls on a new bus. -/
def registerAll (checked : Bool) (regs : List (MmioSlot δ)) : Except Panic (MmioBus δ) :=
  regs.foldlM (fun bus s => register checked bus s.base s.size s.device) {}

/-- The bus routes as a linear scan of the registered devices does: every address goes to the
device that contains it, there is at most one, and the order of registration is irrelevant. -/
structure Scans (checked : Bool) (regs : List (MmioSlot δ)) (bus : MmioBus δ) : Prop where
  exact : ∀ gpa, findSlot checked bus gpa = .ok (regs.find? fun s => decide (s.Contains gpa))
  unique : ∀ gpa, (regs.filter fun s => decide (s.Contains gpa)).length ≤ 1
  orderFree : ∀ regs' bus', regs' ~ regs → registerAll checked regs' = .ok bus' →
    ∀ gpa, findSlot checked bus' gpa = findSlot checked bus gpa

/-- The slot ends below `2^64`. -/
def Fits (s : MmioSlot δ) : Prop := s.hi < 2 ^ 64

/-- An empty device sits on the base of a non-empty one. -/
def EmptyOnBase (regs : List (MmioSlot δ)) : Prop :=
  ∃ s ∈ regs, ∃ e ∈ regs, 0 < s.size.toNat ∧ e.size.toNat = 0 ∧ e.base = s.base

/-! ### Registration -/

theorem addU64_of_lt (checked : Bool) {a b : UInt64} (h : a.toNat + b.toNat < 2 ^ 64) :
    addU64 checked a b = .ok (a + b) ∧ (a + b).toNat = a.toNat + b.toNat := by
  constructor
  · simp only [addU64, Nat.not_le.2 h, decide_false, Bool.and_false, Bool.false_eq_true, if_false]
  · rw [UInt64.toNat_add, Nat.mod_eq_of_lt h]

/-- Past `2^64` the sum panics or lies below its first operand. -/
theorem addU64_of_ge {checked : Bool} {a b e : UInt64} (h : 2 ^ 64 ≤ a.toNat + b.toNat)
    (he : addU64 checked a b = .ok e) : e.toNat < a.toNat := by
  have hb := b.toNat_lt
  have ha := a.toNat_lt
  simp only [addU64, h, decide_true, Bool.and_true] at he
  split_ifs at he
  cases he
  rw [UInt64.toNat_add]
  omega

/-- Where all ends fit, the loop of `register` passes exactly when nothing overlaps. -/
theorem checkOverlaps_eq_ok (checked : Bool) {s : MmioSlot δ} (hs : Fits s) :
    ∀ {slots : List (MmioSlot δ)}, (∀ t ∈ slots, Fits t) →
      (checkOverlaps checked s.base s.size slots = .ok () ↔
        ∀ t ∈ slots, Apart MmioSlot.lo MmioSlot.hi s t) := by
  intro slots
  induction slots with
  | nil => simp [checkOverlaps]
  | cons t rest ih =>
    intro hfit
    obtain ⟨ht, hrest⟩ := List.forall_mem_cons.1 hfit
    obtain ⟨hok, hval⟩ := addU64_of_lt checked hs
    obtain ⟨hok', hval'⟩ := addU64_of_lt checked ht
    rw [List.forall_mem_cons, checkOverlaps, hok, hok']
    show (if s.base < t.base + t.size ∧ t.base < s.base + s.size then _ else _) = _ ↔ _
    have hover : (s.base < t.base + t.size ∧ t.base < s.base + s.size) ↔
        s.lo < t.hi ∧ t.lo < s.hi := by
      rw [UInt64.lt_iff_toNat_lt, UInt64.lt_iff_toNat_lt, hval, hval']
      rfl
    by_cases h : s.base < t.base + t.size ∧ t.base < s.base + s.size
    · rw [if_pos h]
      constructor
      · intro h'
        cases h'
      · intro h'
        exact (h'.1 (hover.1 h)).elim
    · rw [if_neg h, ih hrest]
      constructor
      · intro h'
        exact ⟨fun hc => h (hover.2 hc), h'⟩
      · intro h'
        exact h'.2

theorem register_eq_ok {checked : Bool} {bus bus' : MmioBus δ} {s : MmioSlot δ} :
    register checked bus s.base s.size s.device = .ok bus' ↔
      checkOverlaps checked s.base s.size bus.slots = .ok () ∧
        bus' = { slots := sortByBase (bus.slots ++ [s]) } := by
  unfold register
  cases h : checkOverlaps checked s.base s.size bus.slots with
  | error e => simp [bind, Except.bind]
  | ok u =>
    show (Except.ok _ = Except.ok _ ↔ _)
    simp [eq_comm]

/-- A device above all others is registered behind them. -/
theorem register_above (checked : Bool) {bus : MmioBus δ} {s : MmioSlot δ} (hs : Fits s)
    (hsorted : bus.slots.Pairwise fun t u => t.lo ≤ u.lo)
    (habove : ∀ t ∈ bus.slots, t.hi ≤ s.lo) :
    register checked bus s.base s.size s.device = .ok { slots := bus.slots ++ [s] } := by
  have hlt : s.lo < 2 ^ 64 := s.base.toNat_lt
  have hfit : ∀ t ∈ bus.slots, Fits t := fun t ht => lt_of_le_of_lt (habove t ht) hlt
  refine register_eq_ok.2 ⟨(checkOverlaps_eq_ok checked hs hfit).2 ?_, ?_⟩
  · intro t ht hover
    have := habove t ht
    have := hover.1
    omega
  · have hpair : (bus.slots ++ [s]).Pairwise fun t u => t.lo ≤ u.lo := by
      refine List.pairwise_append.2 ⟨hsorted, List.pairwise_singleton _ _, ?_⟩
      intro t ht u hu
      rw [List.mem_singleton.1 hu]
      exact le_trans (Nat.le_add_right _ _) (habove t ht)
    rw [sortByBase, hpair.insertionSort_eq]

theorem registerAll_append {checked : Bool} {regs : List (MmioSlot δ)} {s : MmioSlot δ}
    {bus' : MmioBus δ} : registerAll checked (regs ++ [s]) = .ok bus' ↔
      ∃ bus, registerAll checked regs = .ok bus ∧
        register checked bus s.base s.size s.device = .ok bus' := by
  unfold registerAll
  rw [List.foldlM_append]
  cases h : regs.foldlM (fun bus s => register checked bus s.base s.size s.device) {} with
  | error e => simp [bind, Except.bind]
  | ok bus =>
    show (register checked bus s.base s.size s.device >>= pure) = _ ↔ _
    simp

/-- The slots are the registered devices, sorted; devices with one base keep their order. -/
theorem registerAll_slots {checked : Bool} {regs : List (MmioSlot δ)} :
    ∀ {bus : MmioBus δ}, registerAll checked regs = .ok bus →
      bus.slots ~ regs ∧ (bus.slots.Pairwise fun s t => s.lo ≤ t.lo) ∧
        ∀ s t, [s, t] <+ regs → s.lo ≤ t.lo → [s, t] <+ bus.slots := by
  induction regs using List.reverseRecOn with
  | nil =>
    intro bus h
    cases h
    exact ⟨List.Perm.refl _, List.Pairwise.nil, fun s t h _ => h⟩
  | append_singleton regs r ih =>
    intro bus' h
    obtain ⟨bus, hbus, hreg⟩ := registerAll_append.1 h
    obtain ⟨-, rfl⟩ := register_eq_ok.1 hreg
    obtain ⟨hperm, -, hstable⟩ := ih hbus
    refine ⟨(List.perm_insertionSort _ _).trans (hperm.append_right [r]), ?_, ?_⟩
    · exact List.pairwise_insertionSort _ _
    · intro s t hst hle
      refine List.pair_sublist_insertionSort (r := fun s t : MmioSlot δ => s.lo ≤ t.lo) hle ?_
      -- the pair was there before, or the new device is its second half
      obtain ⟨l₁, l₂, hsplit, hl₁, hl₂⟩ := List.sublist_append_iff.1 hst
      rcases List.sublist_singleton.1 hl₂ with rfl | rfl
      · rw [List.append_nil] at hsplit
        subst hsplit
        exact (hstable s t hl₁ hle).trans (List.sublist_append_left _ _)
      · obtain ⟨rfl, rfl⟩ : l₁ = [s] ∧ r = t := by
          have : l₁ ++ [r] = [s] ++ [t] := hsplit.symm
          have := List.append_inj' this rfl
          exact ⟨this.1, by simpa using this.2⟩
        have hs : s ∈ bus.slots := hperm.mem_iff.2 (List.singleton_sublist.1 hl₁)
        exact (List.singleton_sublist.2 hs).append (List.Sublist.refl [r])

/-- Devices that all end below `2^64` can be registered exactly when no two overlap. -/
theorem registerAll_isOk (checked : Bool) {regs : List (MmioSlot δ)} :
    (∀ s ∈ regs, Fits s) → ((∃ bus, registerAll checked regs = .ok bus) ↔
      regs.Pairwise (Apart MmioSlot.lo MmioSlot.hi)) := by
  induction regs using List.reverseRecOn with
  | nil =>
    intro _
    exact ⟨fun _ => List.Pairwise.nil, fun _ => ⟨{}, rfl⟩⟩
  | append_singleton regs r ih =>
    intro hfit
    have hfit' : ∀ s ∈ regs, Fits s := fun s hs => hfit s (List.mem_append_left _ hs)
    have hr : Fits r := hfit r (by simp)
    rw [List.pairwise_append, ← ih hfit']
    constructor
    · rintro ⟨bus', h⟩
      obtain ⟨bus, hbus, hreg⟩ := registerAll_append.1 h
      have hmem : ∀ t, t ∈ bus.slots ↔ t ∈ regs :=
        fun t => (registerAll_slots hbus).1.mem_iff
      have hap := (checkOverlaps_eq_ok checked hr fun t ht => hfit' t ((hmem t).1 ht)).1
        (register_eq_ok.1 hreg).1
      refine ⟨⟨bus, hbus⟩, List.pairwise_singleton _ _, ?_⟩
      intro t ht s hs
      rw [List.mem_singleton.1 hs]
      exact (hap t ((hmem t).2 ht)).symm
    · rintro ⟨⟨bus, hbus⟩, -, hap⟩
      have hmem : ∀ t, t ∈ bus.slots ↔ t ∈ regs :=
        fun t => (registerAll_slots hbus).1.mem_iff
      have hcheck := (checkOverlaps_eq_ok checked hr
        fun t ht => hfit' t ((hmem t).1 ht)).2
          fun t ht => (hap t ((hmem t).1 ht) r (List.mem_singleton_self r)).symm
      exact ⟨_, registerAll_append.2 ⟨bus, hbus, register_eq_ok.2 ⟨hcheck, rfl⟩⟩⟩

/-! ### Lookup -/

/-- A slot that is found is the last one at or below the address, and its computed end is above
the address. -/
theorem findSlot_some {checked : Bool} {bus : MmioBus δ} {gpa : UInt64} {s : MmioSlot δ}
    (hs : bus.slots.Pairwise fun s t => s.lo ≤ t.lo)
    (h : findSlot checked bus gpa = .ok (some s)) :
    ∃ i, LastBelow MmioSlot.lo gpa.toNat bus.slots i ∧ bus.slots[i]? = some s ∧
      ∃ e, addU64 checked s.base s.size = .ok e ∧ gpa < e := by
  unfold findSlot findIdx at h
  rcases partitionPoint_lastBelow hs gpa.toNat with ⟨h0, -⟩ | ⟨i, hi, hlast⟩
  · rw [h0] at h
    cases h
  · obtain ⟨t, ht, -⟩ := hlast.1
    rw [hi] at h
    simp only [ht] at h
    cases he : addU64 checked t.base t.size with
    | error e =>
      rw [he] at h
      cases h
    | ok e =>
      rw [he] at h
      change ((if gpa < e then Except.ok (some i) else Except.ok none) >>= _) = _ at h
      split_ifs at h with hlt
      · have hst : bus.slots[i]? = some s := by
          change Except.ok bus.slots[i]? = _ at h
          exact Except.ok.inj h
        rw [ht] at hst
        cases hst
        exact ⟨i, hlast, ht, e, he, hlt⟩
      · cases h

/-- A scan whose condition only `t` meets finds `t`, or nothing. -/
theorem find?_eq_of_unique {α : Type} {p : α → Bool} {l : List α} {t : α} (ht : t ∈ l)
    (huniq : ∀ s ∈ l, p s = true → s = t) : l.find? p = if p t = true then some t else none := by
  cases hfind : l.find? p with
  | none => rw [if_neg (List.find?_eq_none.1 hfind t ht)]
  | some s =>
    have hs := List.find?_some hfind
    obtain rfl := huniq s (List.mem_of_find?_eq_some hfind) hs
    rw [if_pos hs]

/-- Where the ends fit and nothing is hidden, the lookup is the linear scan of the slots. -/
theorem findSlot_eq_find? {checked : Bool} {bus : MmioBus δ}
    (hl : Laid MmioSlot.lo MmioSlot.hi bus.slots) (hfit : ∀ s ∈ bus.slots, Fits s)
    (hh : ¬Hides MmioSlot.lo MmioSlot.hi bus.slots) (gpa : UInt64) :
    findSlot checked bus gpa = .ok (bus.slots.find? fun s => decide (s.Contains gpa)) := by
  unfold findSlot findIdx
  rcases partitionPoint_lastBelow hl.sorted gpa.toNat with ⟨h0, hall⟩ | ⟨i, hi, hlast⟩
  · have hnone : bus.slots.find? (fun s => decide (s.Contains gpa)) = none := by
      rw [List.find?_eq_none]
      intro s hs hc
      have := hall s hs
      have := (of_decide_eq_true hc).1
      omega
    rw [h0, hnone]
    rfl
  · obtain ⟨t, ht, hle⟩ := hlast.1
    have htm := List.mem_of_getElem? ht
    obtain ⟨hadd, hval⟩ := addU64_of_lt checked (hfit t htm)
    -- a slot that contains the address is the last one below it
    have huniq : ∀ s ∈ bus.slots, decide (s.Contains gpa) = true → s = t := by
      intro s hs hc
      obtain ⟨j, hj⟩ := List.mem_iff_getElem?.1 hs
      obtain rfl := (hl.lastBelow_of_holds hh hj (of_decide_eq_true hc)).unique hlast
      rw [hj] at ht
      exact Option.some.inj ht
    have hcontains : decide (t.Contains gpa) = true ↔ gpa < t.base + t.size := by
      rw [decide_eq_true_iff, UInt64.lt_iff_toNat_lt, hval]
      exact and_iff_right hle
    rw [find?_eq_of_unique htm huniq, hi]
    simp only [ht, hadd, hcontains]
    change ((if gpa < t.base + t.size then Except.ok (some i) else Except.ok none) >>= _) = _
    by_cases hlt : gpa < t.base + t.size
    · rw [if_pos hlt, if_pos hlt]
      exact congrArg Except.ok ht
    · rw [if_neg hlt, if_neg hlt]
      rfl

/-! ### The linear scan -/

/-- Where at most one element satisfies `p`, a scan finds the one there is. -/
theorem find?_eq_some_of_filter {α : Type} {p : α → Bool} {xs : List α} {a : α}
    (hone : (xs.filter p).length ≤ 1) (ha : a ∈ xs) (hp : p a = true) :
    xs.find? p = some a := by
  have hmem : a ∈ xs.filter p := List.mem_filter.2 ⟨ha, hp⟩
  rw [← List.head?_filter]
  match hf : xs.filter p, hone with
  | [], _ =>
    rw [hf] at hmem
    cases hmem
  | [b], _ =>
    rw [hf, List.mem_singleton] at hmem
    rw [hmem]
    rfl
  | b :: c :: l, hlen => simp at hlen

theorem find?_perm {α : Type} {p : α → Bool} {xs ys : List α} (h : xs ~ ys)
    (hone : (xs.filter p).length ≤ 1) : ys.find? p = xs.find? p := by
  cases hf : xs.find? p with
  | none =>
    rw [List.find?_eq_none] at hf ⊢
    intro a ha
    exact hf a (h.mem_iff.2 ha)
  | some a =>
    have hone' : (ys.filter p).length ≤ 1 := by rw [← (h.filter p).length_eq]; exact hone
    exact find?_eq_some_of_filter hone' (h.mem_iff.1 (List.mem_of_find?_eq_some hf))
      (List.find?_some hf)

/-- Two different members can be brought to the front. -/
theorem exists_perm_pair {α : Type} {xs : List α} {a b : α} (ha : a ∈ xs) (hb : b ∈ xs)
    (hne : a ≠ b) : ∃ rest, a :: b :: rest ~ xs := by
  obtain ⟨l₁, l₂, rfl⟩ := List.append_of_mem ha
  have hb' : b ∈ l₁ ++ l₂ := by
    have := List.perm_middle.mem_iff.1 hb
    exact (List.mem_cons.1 this).resolve_left (Ne.symm hne)
  obtain ⟨m₁, m₂, hm⟩ := List.append_of_mem hb'
  refine ⟨m₁ ++ m₂, ?_⟩
  calc a :: b :: (m₁ ++ m₂) ~ a :: (m₁ ++ b :: m₂) := (List.perm_middle.symm).cons a
    _ = a :: (l₁ ++ l₂) := by rw [hm]
    _ ~ l₁ ++ a :: l₂ := List.perm_middle.symm

/-- Pairwise apart devices: at most one contains an address. -/
theorem filter_contains_le_one {regs : List (MmioSlot δ)}
    (hap : regs.Pairwise (Apart MmioSlot.lo MmioSlot.hi)) (gpa : UInt64) :
    (regs.filter fun s => decide (s.Contains gpa)).length ≤ 1 := by
  have hsub : (regs.filter fun s => decide (s.Contains gpa)).Pairwise
      (Apart MmioSlot.lo MmioSlot.hi) := hap.sublist List.filter_sublist
  match hf : regs.filter fun s => decide (s.Contains gpa) with
  | [] => simp [hf]
  | [s] => simp [hf]
  | s :: t :: l =>
    exfalso
    have hc : ∀ r ∈ s :: t :: l, r.Contains gpa := by
      intro r hr
      rw [← hf] at hr
      exact of_decide_eq_true (List.mem_filter.1 hr).2
    rw [hf] at hsub
    have hs := hc s (by simp)
    have ht := hc t (by simp)
    exact List.rel_of_pairwise_cons hsub (List.mem_cons_self)
      ⟨lt_of_le_of_lt hs.1 ht.2, lt_of_le_of_lt ht.1 hs.2⟩

/-! ### When the bus scans -/

/-- The slots of a bus whose devices fit are laid out without overlap. -/
theorem registerAll_laid {checked : Bool} {regs : List (MmioSlot δ)} {bus : MmioBus δ}
    (h : registerAll checked regs = .ok bus) (hfit : ∀ s ∈ regs, Fits s) :
    Laid MmioSlot.lo MmioSlot.hi bus.slots := by
  obtain ⟨hperm, hsorted, -⟩ := registerAll_slots h
  have hap := (registerAll_isOk checked hfit).1 ⟨bus, h⟩
  refine ⟨hsorted, hperm.symm.pairwise hap Apart.symm, ?_⟩
  intro s _
  exact Nat.le_add_right _ _

/-- Nothing is hidden unless an empty device sits on another one's base. -/
theorem registerAll_not_hides {checked : Bool} {regs : List (MmioSlot δ)} {bus : MmioBus δ}
    (h : registerAll checked regs = .ok bus) (hfit : ∀ s ∈ regs, Fits s)
    (he : ¬EmptyOnBase regs) : ¬Hides MmioSlot.lo MmioSlot.hi bus.slots := by
  rintro ⟨s, e, hsub, hne, hbase⟩
  have hmem : ∀ t, t ∈ bus.slots ↔ t ∈ regs := fun t => (registerAll_slots h).1.mem_iff
  have hs : s ∈ regs := (hmem s).1 (hsub.subset (by simp))
  have hemem : e ∈ regs := (hmem e).1 (hsub.subset (by simp))
  have hap : Apart MmioSlot.lo MmioSlot.hi s e :=
    List.rel_of_pairwise_cons ((registerAll_laid h hfit).apart.sublist hsub) (by simp)
  apply he
  refine ⟨s, hs, e, hemem, ?_, ?_, UInt64.toNat_inj.1 hbase⟩
  · simp only [MmioSlot.lo, MmioSlot.hi] at hne
    omega
  · by_contra hpos
    apply hap
    simp only [MmioSlot.lo, MmioSlot.hi] at hne hbase ⊢
    omega

theorem scans_of_fits {checked : Bool} {regs : List (MmioSlot δ)} {bus : MmioBus δ}
    (h : registerAll checked regs = .ok bus) (hfit : ∀ s ∈ regs, Fits s)
    (he : ¬EmptyOnBase regs) : Scans checked regs bus := by
  -- the scan of any order of the devices, on the bus they give
  have key : ∀ {regs' : List (MmioSlot δ)} {bus' : MmioBus δ}, regs' ~ regs →
      registerAll checked regs' = .ok bus' → ∀ gpa,
        findSlot checked bus' gpa = .ok (regs.find? fun s => decide (s.Contains gpa)) := by
    intro regs' bus' hp h' gpa
    have hfit' : ∀ s ∈ regs', Fits s := fun s hs => hfit s (hp.mem_iff.1 hs)
    have he' : ¬EmptyOnBase regs' := by
      rintro ⟨s, hs, e, hem, hrest⟩
      exact he ⟨s, hp.mem_iff.1 hs, e, hp.mem_iff.1 hem, hrest⟩
    have hperm := (registerAll_slots h').1
    have hl := registerAll_laid h' hfit'
    rw [findSlot_eq_find? hl (fun s hs => hfit' s (hperm.mem_iff.1 hs))
      (registerAll_not_hides h' hfit' he')]
    rw [find?_perm (hperm.trans hp) (filter_contains_le_one hl.apart gpa)]
  refine ⟨key (List.Perm.refl _) h, ?_, ?_⟩
  · exact filter_contains_le_one ((registerAll_isOk checked hfit).1 ⟨bus, h⟩)
  · intro regs' bus' hp h' gpa
    rw [key hp h', key (List.Perm.refl _) h]

/-- A device that contains an address is the one a scanning bus finds there. -/
theorem Scans.findSlot_eq {checked : Bool} {regs : List (MmioSlot δ)} {bus : MmioBus δ}
    (hsc : Scans checked regs bus) {s : MmioSlot δ} (hs : s ∈ regs) {gpa : UInt64}
    (hc : s.Contains gpa) : findSlot checked bus gpa = .ok (some s) := by
  rw [hsc.exact, find?_eq_some_of_filter (hsc.unique gpa) hs (decide_eq_true hc)]

theorem Scans.fits {checked : Bool} {regs : List (MmioSlot δ)} {bus : MmioBus δ}
    (h : registerAll checked regs = .ok bus) (hsc : Scans checked regs bus) :
    ∀ s ∈ regs, Fits s := by
  intro s hs
  by_contra hover
  have hge : 2 ^ 64 ≤ s.base.toNat + s.size.toNat := Nat.le_of_not_lt hover
  have hc : s.Contains s.base := ⟨le_rfl, by
    have := s.base.toNat_lt
    simp only [MmioSlot.hi]
    omega⟩
  obtain ⟨i, -, -, e, he, hlt⟩ :=
    findSlot_some (registerAll_slots h).2.1 (hsc.findSlot_eq hs hc)
  have := addU64_of_ge hge he
  rw [UInt64.lt_iff_toNat_lt] at hlt
  omega

theorem Scans.not_emptyOnBase {checked : Bool} {regs : List (MmioSlot δ)} {bus : MmioBus δ}
    (h : registerAll checked regs = .ok bus) (hsc : Scans checked regs bus) :
    ¬EmptyOnBase regs := by
  rintro ⟨s, hs, e, he, hpos, hzero, hbase⟩
  have hfit := hsc.fits h
  have hne : s ≠ e := by
    rintro rfl
    omega
  -- register the non-empty device first: the empty one lands behind it
  obtain ⟨rest, hp⟩ := exists_perm_pair hs he hne
  have hfit' : ∀ t ∈ s :: e :: rest, Fits t := fun t ht => hfit t (hp.mem_iff.1 ht)
  obtain ⟨bus', h'⟩ := (registerAll_isOk checked hfit').2
    (hp.symm.pairwise ((registerAll_isOk checked hfit).1 ⟨bus, h⟩) Apart.symm)
  have hlo : e.lo = s.lo := congrArg UInt64.toNat hbase
  have hsub : [s, e] <+ bus'.slots :=
    (registerAll_slots h').2.2 s e (by simp) (le_of_eq hlo.symm)
  have hlt : s.lo < s.hi := by
    simp only [MmioSlot.lo, MmioSlot.hi]
    omega
  have hl' := registerAll_laid h' hfit'
  obtain ⟨i, a, ha, hhold, hnot⟩ :=
    Hides.exists_not_lastBelow (⟨s, e, hsub, hlt, hlo⟩ : Hides _ _ bus'.slots)
  have hmem : a ∈ regs :=
    hp.mem_iff.1 ((registerAll_slots h').1.mem_iff.1 (List.mem_of_getElem? ha))
  have hfound : findSlot checked bus' a.base = .ok (some a) := by
    rw [hsc.orderFree _ _ hp h', hsc.findSlot_eq hmem hhold]
  obtain ⟨k, hlast, hk, -⟩ := findSlot_some hl'.sorted hfound
  obtain rfl := hl'.holds_unique hk ha hhold hhold
  exact hnot hlast

/-- **When the bus routes as a linear scan.**  For every sequence of registrations that does not
panic, with or without overflow checks: exactly when every device ends below `2^64` and no empty
device sits on the base of a non-empty one. -/
theorem registerAll_scans_iff {checked : Bool} {regs : List (MmioSlot δ)} {bus : MmioBus δ}
    (h : registerAll checked regs = .ok bus) :
    Scans checked regs bus ↔ (∀ s ∈ regs, s.base.toNat + s.size.toNat < 2 ^ 64) ∧
      ¬∃ s ∈ regs, ∃ e ∈ regs, 0 < s.size.toNat ∧ e.size.toNat = 0 ∧ e.base = s.base := by
  constructor
  · intro hsc
    exact ⟨hsc.fits h, hsc.not_emptyOnBase h⟩
  · rintro ⟨hfit, he⟩
    exact scans_of_fits h hfit he

/-- The three virtio devices of a guest, registered from the top down. -/
def virtioSlots : List (MmioSlot ℕ) :=
  [⟨0xD0002000, 0x1000, 2⟩, ⟨0xD0000000, 0x1000, 0⟩, ⟨0xD0001000, 0x1000, 1⟩]

theorem virtioSlots_scan : ∃ bus, registerAll true virtioSlots = .ok bus ∧
    Scans true virtioSlots bus :=
  ⟨{ slots := [⟨0xD0000000, 0x1000, 0⟩, ⟨0xD0001000, 0x1000, 1⟩, ⟨0xD0002000, 0x1000, 2⟩] },
    by decide +kernel,
    (registerAll_scans_iff (by decide +kernel)).2 ⟨by decide +kernel, by decide +kernel⟩⟩

/-- A device at `0x1000` and then an empty one on its base: both registrations pass, and the
first device is gone. -/
theorem empty_slot_hides_device : ∃ bus : MmioBus ℕ,
    registerAll true [⟨0x1000, 0x100, 0⟩, ⟨0x1000, 0, 1⟩] = .ok bus ∧
      findSlot true bus 0x1000 = .ok none ∧
      ¬Scans true [⟨0x1000, 0x100, 0⟩, ⟨0x1000, 0, 1⟩] bus := by
  refine ⟨{ slots := [⟨0x1000, 0x100, 0⟩, ⟨0x1000, 0, 1⟩] }, by decide +kernel,
    by decide +kernel, ?_⟩
  intro hsc
  have h := hsc.exact 0x1000
  revert h
  decide +kernel

/-! ### Dispatch -/

/-- A read reaches the device that contains the address, at the offset from its base, and leaves
the other devices alone; elsewhere it is all ones and nothing changes. -/
theorem read_eq [MmioDevice δ] {checked : Bool} {regs : List (MmioSlot δ)} {bus : MmioBus δ}
    (hsc : Scans checked regs bus) (gpa : UInt64) (data : List UInt8) :
    (∃ i s, bus.slots[i]? = some s ∧ s.Contains gpa ∧
      read checked bus gpa data =
        .ok ((MmioDevice.mmioRead s.device (gpa - s.base) data).1,
          bus.setDevice i (MmioDevice.mmioRead s.device (gpa - s.base) data).2)) ∨
      (∀ s ∈ regs, ¬s.Contains gpa) ∧
        read checked bus gpa data = .ok (data.map fun _ => 0xFF, bus) := by
  have hex := hsc.exact gpa
  unfold findSlot at hex
  unfold read
  cases hidx : findIdx checked bus gpa with
  | error e =>
    rw [hidx] at hex
    cases hex
  | ok o =>
    cases o with
    | none =>
      rw [hidx] at hex
      change Except.ok none = _ at hex
      right
      refine ⟨?_, rfl⟩
      intro s hs hc
      exact List.find?_eq_none.1 (Except.ok.inj hex).symm s hs (decide_eq_true hc)
    | some i =>
      rw [hidx] at hex
      change Except.ok bus.slots[i]? = _ at hex
      cases hi : bus.slots[i]? with
      | none =>
        rw [hi] at hex
        right
        refine ⟨?_, by simp [bind, Except.bind, hi]⟩
        intro s hs hc
        exact List.find?_eq_none.1 (Except.ok.inj hex).symm s hs (decide_eq_true hc)
      | some s =>
        rw [hi] at hex
        left
        have hc := List.find?_some (Except.ok.inj hex).symm
        exact ⟨i, s, hi, of_decide_eq_true hc, by simp [bind, Except.bind, hi]⟩

end MmioBus

end Hitz.Devices

import Hitz.Lib.Bytes
import Hitz.Lib.ByteStore

/-!
# Split virtqueues (`hitz-devices/src/virtio/queue.rs`)

The descriptor table, the available ring and the used ring live in guest memory, which is any
`ByteStore` here (`GuestMemAccess` in the source).

* `popChain` takes the next head from the available ring;
* `nextDescriptor` walks the descriptors of a chain;
* `pushUsed` publishes a head in the used ring.

A chain remembers in `seen` the descriptors it has yielded.  The source does not keep that list;
nothing computes with it, it only names the buffers a device was given.
-/

namespace Hitz.Devices

open ByteStore Bytes

/-- Maximum supported queue depth. -/
def maxQueueSize : UInt16 := 256

/-- Descriptor flag: this descriptor continues via `next`. -/
def virtqDescFNext : UInt16 := 1

/-- Descriptor flag: the buffer is device-writable. -/
def virtqDescFWrite : UInt16 := 2

/-- `u64::checked_add`. -/
def checkedAdd (a b : ℕ) : Option ℕ := if a + b < 2 ^ 64 then some (a + b) else none

theorem checkedAdd_eq_some {a b c : ℕ} : checkedAdd a b = some c ↔ a + b < 2 ^ 64 ∧ c = a + b := by
  unfold checkedAdd
  split_ifs with h
  · simp only [Option.some.injEq, h, true_and, eq_comm]
  · simp only [h, false_and]

/-- A virtqueue.  No operation lets the size leave `1..=256`. -/
structure VirtQueue where
  size : UInt16
  descGpa : UInt64
  availGpa : UInt64
  usedGpa : UInt64
  lastAvailIdx : UInt16
  ready : Bool
  size_pos : 0 < size.toNat
  size_le : size.toNat ≤ 256
  deriving DecidableEq

theorem VirtQueue.four_pos : 0 < (4 : UInt16).toNat := by decide

theorem VirtQueue.four_le : (4 : UInt16).toNat ≤ 256 := by decide

/-- A buffer of a chain. -/
structure Descriptor where
  gpa : UInt64
  len : UInt32
  isDeviceWritable : Bool
  deriving DecidableEq, Repr

/-- A cursor in a descriptor chain. -/
structure DescriptorChain where
  descGpa : UInt64
  queueSize : UInt16
  headIdx : UInt16
  nextIdx : Option UInt16
  count : UInt16
  seen : List Descriptor := []
  deriving DecidableEq, Repr

namespace VirtQueue

/-- A new queue; an impossible size is replaced by the maximum. -/
def new (size : UInt16) : VirtQueue :=
  if h : size = 0 ∨ size > maxQueueSize then
    { size := maxQueueSize, descGpa := 0, availGpa := 0, usedGpa := 0, lastAvailIdx := 0
      ready := false, size_pos := by decide, size_le := by decide }
  else
    { size, descGpa := 0, availGpa := 0, usedGpa := 0, lastAvailIdx := 0, ready := false
      size_pos := by
        have h0 : size ≠ 0 := fun he => h (Or.inl he)
        exact Nat.pos_of_ne_zero fun he => h0 (UInt16.toNat_inj.1 he)
      size_le := by
        have h1 : ¬ size > maxQueueSize := fun he => h (Or.inr he)
        exact UInt16.le_iff_toNat_le.1 (UInt16.not_lt.1 h1) }

/-- Set the addresses of the three rings. -/
def configure (q : VirtQueue) (descGpa availGpa usedGpa : UInt64) : VirtQueue :=
  { q with descGpa, availGpa, usedGpa }

/-- Mark the queue as ready or not. -/
def setReady (q : VirtQueue) (ready : Bool) : VirtQueue := { q with ready }

/-- Set the queue size; an impossible size is ignored. -/
def setSize (q : VirtQueue) (size : UInt16) : VirtQueue :=
  if h : 0 < size ∧ size ≤ maxQueueSize then
    { q with
      size
      size_pos := UInt16.lt_iff_toNat_lt.1 h.1
      size_le := UInt16.le_iff_toNat_le.1 h.2 }
  else q

/-- Back to the initial state. -/
def reset (_ : VirtQueue) : VirtQueue :=
  { descGpa := 0, availGpa := 0, usedGpa := 0, lastAvailIdx := 0, ready := false
    size := maxQueueSize, size_pos := by decide, size_le := by decide }

end VirtQueue

variable {M : Type} [ByteStore M]

/-- Read a little-endian `u16` from guest memory. -/
def readU16 (mem : M) (gpa : ℕ) : Option UInt16 :=
  (read mem gpa 2).map fun b => UInt16.ofNat (leNat b)

/-- Pop the next available chain; `none` when the queue is empty, not ready or unreadable. -/
def VirtQueue.popChain (q : VirtQueue) (mem : M) : Option (DescriptorChain × VirtQueue) :=
  if !q.ready then none
  else do
    let availIdxGpa ← checkedAdd q.availGpa.toNat 2
    let availIdx ← readU16 mem availIdxGpa
    if q.lastAvailIdx = availIdx then none
    else
      let ringOffset := q.lastAvailIdx.toNat % q.size.toNat * 2
      let ringGpa ← checkedAdd q.availGpa.toNat 4
      let headIdxGpa ← checkedAdd ringGpa ringOffset
      let headIdx ← readU16 mem headIdxGpa
      some ({ descGpa := q.descGpa, queueSize := q.size, headIdx, nextIdx := some headIdx
              count := 0 },
            { q with lastAvailIdx := q.lastAvailIdx + 1 })

/-- Write an element of the used ring and bump `used.idx`; failed writes are ignored. -/
def VirtQueue.pushUsed (q : VirtQueue) (mem : M) (headIdx : UInt16) (len : UInt32) : M :=
  match checkedAdd q.usedGpa.toNat 2 with
  | none => mem
  | some idxGpa =>
    match readU16 mem idxGpa with
    | none => mem
    | some usedIdx =>
      let ringOffset := usedIdx.toNat % q.size.toNat * 8
      match (checkedAdd q.usedGpa.toNat 4).bind (checkedAdd · ringOffset) with
      | none => mem
      | some elemGpa =>
        let mem := put mem elemGpa (leBytes 4 headIdx.toNat)
        let mem := match checkedAdd elemGpa 4 with
          | some elemLenGpa => put mem elemLenGpa (leBytes 4 len.toNat)
          | none => mem
        put mem idxGpa (leBytes 2 (usedIdx + 1).toNat)

/-- The descriptor stored in 16 bytes, and the index that follows it if `NEXT` is set. -/
def decodeDescriptor (buf : List UInt8) : Descriptor × Option UInt16 :=
  let gpa := UInt64.ofNat (leNat (buf.take 8))
  let len := UInt32.ofNat (leNat ((buf.drop 8).take 4))
  let flags := UInt16.ofNat (leNat ((buf.drop 12).take 2))
  let next := UInt16.ofNat (leNat ((buf.drop 14).take 2))
  ({ gpa, len, isDeviceWritable := flags &&& virtqDescFWrite != 0 },
    if flags &&& virtqDescFNext != 0 then some next else none)

/-- Read the next descriptor of the chain. -/
def DescriptorChain.nextDescriptor (c : DescriptorChain) (mem : M) :
    Option Descriptor × DescriptorChain :=
  match c.nextIdx with
  | none => (none, c)
  | some idx =>
    if c.queueSize ≤ idx then (none, { c with nextIdx := none })
    -- a chain longer than the queue is a cycle
    else if c.queueSize ≤ c.count then (none, { c with nextIdx := none })
    else
      let c := { c with count := c.count + 1 }
      match checkedAdd c.descGpa.toNat (idx.toNat * 16) with
      | none => (none, c)
      | some descAddr =>
        match read mem descAddr 16 with
        | none => (none, { c with nextIdx := none })
        | some buf =>
          let (desc, next) := decodeDescriptor buf
          (some desc, { c with nextIdx := next, seen := c.seen ++ [desc] })

/-! ### What the operations touch -/

/-- The addresses a device may write through this descriptor. -/
def Descriptor.writable (d : Descriptor) : Set ℕ :=
  if d.isDeviceWritable then Set.Ico d.gpa.toNat (d.gpa.toNat + d.len.toNat) else ∅

theorem Descriptor.mem_writable {d : Descriptor} {x : ℕ} : x ∈ d.writable ↔
    d.isDeviceWritable = true ∧ d.gpa.toNat ≤ x ∧ x < d.gpa.toNat + d.len.toNat := by
  unfold writable
  split_ifs with h
  · simp [h]
  · simp [h]

/-- The addresses a device may write through the chains it was given. -/
def writableRanges (chains : List DescriptorChain) : Set ℕ :=
  {x | ∃ c ∈ chains, ∃ d ∈ c.seen, x ∈ d.writable}

instance (d : Descriptor) (x : ℕ) : Decidable (x ∈ d.writable) :=
  decidable_of_iff _ Descriptor.mem_writable.symm

instance (chains : List DescriptorChain) (x : ℕ) : Decidable (x ∈ writableRanges chains) :=
  inferInstanceAs (Decidable (∃ c ∈ chains, ∃ d ∈ c.seen, x ∈ d.writable))

theorem writableRanges_append_left {cs cs' : List DescriptorChain} :
    writableRanges cs ⊆ writableRanges (cs ++ cs') :=
  fun _ ⟨c, hc, h⟩ => ⟨c, List.mem_append_left _ hc, h⟩

theorem writableRanges_append_right {cs cs' : List DescriptorChain} :
    writableRanges cs' ⊆ writableRanges (cs ++ cs') :=
  fun _ ⟨c, hc, h⟩ => ⟨c, List.mem_append_right _ hc, h⟩

namespace VirtQueue

/-- The addresses of `used.idx` and of the used elements. -/
def usedRing (q : VirtQueue) : Set ℕ :=
  Set.Ico (q.usedGpa.toNat + 2) (q.usedGpa.toNat + 4 + 8 * q.size.toNat)

instance (q : VirtQueue) (x : ℕ) : Decidable (x ∈ q.usedRing) :=
  inferInstanceAs (Decidable (x ∈ Set.Ico _ _))

/-- Everything a successful pop did: the two reads and the new cursor. -/
theorem popChain_eq_some {q q' : VirtQueue} {mem : M} {chain : DescriptorChain}
    (h : q.popChain mem = some (chain, q')) :
    ∃ availIdx headIdx, q.ready = true ∧
      readU16 mem (q.availGpa.toNat + 2) = some availIdx ∧ q.lastAvailIdx ≠ availIdx ∧
      readU16 mem (q.availGpa.toNat + 4 + q.lastAvailIdx.toNat % q.size.toNat * 2) =
        some headIdx ∧
      chain = { descGpa := q.descGpa, queueSize := q.size, headIdx, nextIdx := some headIdx
                count := 0 } ∧
      q' = { q with lastAvailIdx := q.lastAvailIdx + 1 } := by
  unfold popChain at h
  split_ifs at h with hr
  simp only [Option.bind_eq_bind, Option.bind_eq_some_iff] at h
  obtain ⟨a, ha, availIdx, hidx, h⟩ := h
  obtain ⟨-, rfl⟩ := checkedAdd_eq_some.1 ha
  split_ifs at h with hne
  simp only [Option.bind_eq_some_iff] at h
  obtain ⟨b, hb, c, hc, headIdx, hhead, h⟩ := h
  obtain ⟨-, rfl⟩ := checkedAdd_eq_some.1 hb
  obtain ⟨-, rfl⟩ := checkedAdd_eq_some.1 hc
  cases h
  exact ⟨availIdx, headIdx, by simpa using hr, hidx, hne, hhead, rfl, rfl⟩

theorem slot_lt (q : VirtQueue) (i : ℕ) : i % q.size.toNat < q.size.toNat :=
  Nat.mod_lt _ q.size_pos

/-- The addresses a push writes, given the memory it finds: `used.idx` and one element. -/
def pushRange (q : VirtQueue) (mem : M) : Set ℕ :=
  match readU16 mem (q.usedGpa.toNat + 2) with
  | none => ∅
  | some usedIdx =>
    Set.Ico (q.usedGpa.toNat + 2) (q.usedGpa.toNat + 4) ∪
      Set.Ico (q.usedGpa.toNat + 4 + usedIdx.toNat % q.size.toNat * 8)
        (q.usedGpa.toNat + 4 + usedIdx.toNat % q.size.toNat * 8 + 8)

theorem pushRange_subset (q : VirtQueue) (mem : M) : q.pushRange mem ⊆ q.usedRing := by
  unfold pushRange
  split
  · exact Set.empty_subset _
  · rename_i usedIdx _
    have hslot := q.slot_lt usedIdx.toNat
    rintro x (hx | hx)
    · exact ⟨hx.1, by have := hx.2; omega⟩
    · exact ⟨by have := hx.1; omega, by have := hx.2; omega⟩

theorem agree_pushUsed_pushRange (q : VirtQueue) (mem : M) (headIdx : UInt16) (len : UInt32) :
    Agree (q.pushRange mem) mem (q.pushUsed mem headIdx len) := by
  unfold pushUsed
  split
  · exact Agree.refl _ _
  · rename_i idxGpa hidx
    obtain ⟨-, rfl⟩ := checkedAdd_eq_some.1 hidx
    unfold pushRange
    cases hused : readU16 mem (q.usedGpa.toNat + 2) with
    | none => exact Agree.refl _ _
    | some usedIdx =>
      dsimp only
      split
      · exact Agree.refl _ _
      · rename_i elemGpa helem
        obtain ⟨b, hb, hc⟩ := Option.bind_eq_some_iff.1 helem
        obtain ⟨-, rfl⟩ := checkedAdd_eq_some.1 hb
        obtain ⟨-, rfl⟩ := checkedAdd_eq_some.1 hc
        set elem := q.usedGpa.toNat + 4 + usedIdx.toNat % q.size.toNat * 8
        have hidx : ∀ (m : M) (v : ℕ), Agree (Set.Ico (q.usedGpa.toNat + 2) (q.usedGpa.toNat + 4) ∪
            Set.Ico elem (elem + 8)) m (put m (q.usedGpa.toNat + 2) (leBytes 2 v)) := by
          intro m v
          apply (agree_put m _ (leBytes 2 v)).mono
          intro x hx
          rw [length_leBytes] at hx
          exact Or.inl ⟨hx.1, by have := hx.2; omega⟩
        have hin : ∀ (m : M) (a v : ℕ), elem ≤ a → a + 4 ≤ elem + 8 →
            Agree (Set.Ico (q.usedGpa.toNat + 2) (q.usedGpa.toNat + 4) ∪
              Set.Ico elem (elem + 8)) m (put m a (leBytes 4 v)) := by
          intro m a v h₁ h₂
          apply (agree_put m a (leBytes 4 v)).mono
          intro x hx
          rw [length_leBytes] at hx
          exact Or.inr ⟨le_trans h₁ hx.1, lt_of_lt_of_le hx.2 h₂⟩
        split
        · rename_i elemLenGpa hlen
          obtain ⟨-, rfl⟩ := checkedAdd_eq_some.1 hlen
          exact ((hin _ _ _ le_rfl (by omega)).trans (hin _ _ _ (by omega) (by omega))).trans
            (hidx _ _)
        · exact (hin _ _ _ le_rfl (by omega)).trans (hidx _ _)

/-- Publishing a used element touches the used ring only. -/
theorem agree_pushUsed (q : VirtQueue) (mem : M) (headIdx : UInt16) (len : UInt32) :
    Agree q.usedRing mem (q.pushUsed mem headIdx len) :=
  (q.agree_pushUsed_pushRange mem headIdx len).mono (q.pushRange_subset mem)

end VirtQueue

namespace DescriptorChain

/-- Everything a yielded descriptor tells: its table entry was read and counted. -/
theorem nextDescriptor_eq_some {c c' : DescriptorChain} {mem : M} {d : Descriptor}
    (h : c.nextDescriptor mem = (some d, c')) :
    ∃ idx buf, c.nextIdx = some idx ∧ idx < c.queueSize ∧ c.count < c.queueSize ∧
      read mem (c.descGpa.toNat + idx.toNat * 16) 16 = some buf ∧ d = (decodeDescriptor buf).1 ∧
      c' = { c with count := c.count + 1, nextIdx := (decodeDescriptor buf).2
                    seen := c.seen ++ [d] } := by
  unfold nextDescriptor at h
  cases hi : c.nextIdx with
  | none => simp [hi] at h
  | some idx =>
    simp only [hi] at h
    by_cases h1 : c.queueSize ≤ idx
    · simp [h1] at h
    by_cases h2 : c.queueSize ≤ c.count
    · simp [h1, h2] at h
    rw [if_neg h1, if_neg h2] at h
    cases ha : checkedAdd c.descGpa.toNat (idx.toNat * 16) with
    | none => simp [ha] at h
    | some a =>
      obtain ⟨-, rfl⟩ := checkedAdd_eq_some.1 ha
      cases hr : read mem (c.descGpa.toNat + idx.toNat * 16) 16 with
      | none => simp [ha, hr] at h
      | some buf =>
        simp only [ha, hr] at h
        cases h
        exact ⟨idx, buf, rfl, UInt16.not_le.1 h1, UInt16.not_le.1 h2, hr, rfl, rfl⟩

/-- The chain records exactly the descriptor it yields. -/
theorem nextDescriptor_seen (c : DescriptorChain) (mem : M) :
    (c.nextDescriptor mem).2.seen = c.seen ++ (c.nextDescriptor mem).1.toList := by
  unfold nextDescriptor
  dsimp only
  repeat' split
  all_goals simp

end DescriptorChain

end Hitz.Devices

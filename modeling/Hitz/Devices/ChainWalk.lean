import Hitz.Devices.Drain

/-!
# The walk of a descriptor chain, and what it refines

A chain is whatever graph the guest built in the descriptor table, so following its `next` links
need not end.

* `refWalk`: the walk as the table describes it, a possibly infinite sequence of descriptors; it
  knows nothing of the cycle check and of the state of a cursor;
* `nth c mems k`: the `k`-th call of `next_descriptor`, where `mems` says which memory each call
  sees;
* `nextDescriptor_refines_refWalk`: the calls yield the reference walk cut off at the queue size.

A failed `checked_add` leaves the cursor on its entry.  That entry stays out of reach, so such a
cursor is `Exhausted` like one that has left the chain.
-/

namespace Hitz.Devices

open ByteStore

variable {M : Type} [ByteStore M]

/-- The entry at an index of a descriptor table and the index it links to, when the index is in
range and its 16 bytes are readable. -/
def tableEntry (mem : M) (descGpa : UInt64) (size idx : UInt16) :
    Option (Descriptor × Option UInt16) :=
  if idx < size then (read mem (descGpa.toNat + idx.toNat * 16) 16).map decodeDescriptor else none

/-- The walk of the chain that continues at `next`. -/
def refWalkFrom (mem : M) (descGpa : UInt64) (size : UInt16) (next : Option UInt16) :
    Stream'.Seq Descriptor :=
  Stream'.Seq.corec (fun o => o.bind (tableEntry mem descGpa size)) next

/-- The walk of the chain with this head. -/
def refWalk (mem : M) (descGpa : UInt64) (size head : UInt16) : Stream'.Seq Descriptor :=
  refWalkFrom mem descGpa size (some head)

theorem refWalkFrom_none (mem : M) (descGpa : UInt64) (size : UInt16) :
    refWalkFrom mem descGpa size none = Stream'.Seq.nil :=
  Stream'.Seq.corec_nil _ _ rfl

theorem refWalkFrom_of_none {mem : M} {descGpa : UInt64} {size idx : UInt16}
    (h : tableEntry mem descGpa size idx = none) :
    refWalkFrom mem descGpa size (some idx) = Stream'.Seq.nil :=
  Stream'.Seq.corec_nil _ _ h

theorem refWalkFrom_of_some {mem : M} {descGpa : UInt64} {size idx : UInt16} {d : Descriptor}
    {next : Option UInt16} (h : tableEntry mem descGpa size idx = some (d, next)) :
    refWalkFrom mem descGpa size (some idx) =
      Stream'.Seq.cons d (refWalkFrom mem descGpa size next) :=
  Stream'.Seq.corec_cons h

namespace DescriptorChain

/-- The cursor that `pop_chain` returns for a head. -/
def start (descGpa : UInt64) (queueSize head : UInt16) : DescriptorChain where
  descGpa := descGpa
  queueSize := queueSize
  headIdx := head
  nextIdx := some head
  count := 0

theorem start_of_popChain {q q' : VirtQueue} {mem : M} {c : DescriptorChain}
    (h : q.popChain mem = some (c, q')) : c = start q.descGpa q.size c.headIdx := by
  obtain ⟨_, head, -, -, -, -, rfl, -⟩ := VirtQueue.popChain_eq_some h
  rfl

/-- The `k`-th call of `next_descriptor`: its answer and the cursor after it. -/
def nth (c : DescriptorChain) (mems : ℕ → M) : ℕ → Option Descriptor × DescriptorChain
  | 0 => c.nextDescriptor (mems 0)
  | k + 1 => (nth c mems k).2.nextDescriptor (mems (k + 1))

/-- No memory makes the cursor yield anything: it has left the chain, or the next entry is out of
reach. -/
def Exhausted (c : DescriptorChain) : Prop :=
  ∀ idx, c.nextIdx = some idx → c.queueSize ≤ idx ∨ c.queueSize ≤ c.count ∨
    checkedAdd c.descGpa.toNat (idx.toNat * 16) = none

/-! ### One call -/

/-- A call that yields nothing leaves the cursor exhausted. -/
theorem exhausted_of_none {c : DescriptorChain} {mem : M} (h : (c.nextDescriptor mem).1 = none) :
    (c.nextDescriptor mem).2.Exhausted := by
  unfold nextDescriptor at h ⊢
  cases hi : c.nextIdx with
  | none =>
    intro idx hidx
    simp [hi] at hidx
  | some idx =>
    simp only [hi] at h ⊢
    by_cases h1 : c.queueSize ≤ idx
    · simp [h1, Exhausted]
    by_cases h2 : c.queueSize ≤ c.count
    · simp [h1, h2, Exhausted]
    rw [if_neg h1, if_neg h2] at h ⊢
    cases ha : checkedAdd c.descGpa.toNat (idx.toNat * 16) with
    | none =>
      -- the only path that stays on the entry
      intro idx' hidx'
      have heq : some idx = some idx' := hidx'
      cases heq
      exact Or.inr (Or.inr ha)
    | some a =>
      simp only [ha] at h ⊢
      cases hr : read mem a 16 with
      | none => simp [Exhausted]
      | some buf =>
        rw [hr] at h
        cases h

/-- An exhausted cursor yields nothing, whatever memory holds by then. -/
theorem Exhausted.nextDescriptor {c : DescriptorChain} (h : c.Exhausted) (mem : M) :
    (c.nextDescriptor mem).1 = none := by
  unfold DescriptorChain.nextDescriptor
  cases hi : c.nextIdx with
  | none => rfl
  | some idx =>
    rcases h idx hi with h1 | h2 | h3
    · simp [h1]
    · simp only [h2, if_true]
      split_ifs <;> rfl
    · simp only [h3]
      split_ifs <;> rfl

/-- A call that yields a descriptor reads it off the table and moves to the index it links to. -/
theorem tableEntry_of_some {c c' : DescriptorChain} {mem : M} {d : Descriptor}
    (h : c.nextDescriptor mem = (some d, c')) :
    ∃ idx, c.nextIdx = some idx ∧
      tableEntry mem c.descGpa c.queueSize idx = some (d, c'.nextIdx) ∧
      c'.descGpa = c.descGpa ∧ c'.queueSize = c.queueSize := by
  obtain ⟨idx, buf, hi, hlt, -, hr, rfl, rfl⟩ := nextDescriptor_eq_some h
  refine ⟨idx, hi, ?_, rfl, rfl⟩
  rw [tableEntry, if_pos hlt, hr]
  rfl

/-- While the cycle check allows another descriptor, a call yields nothing only where the
reference walk ends. -/
theorem refWalkFrom_of_none_of_budget {c : DescriptorChain} {mem : M}
    (h : (c.nextDescriptor mem).1 = none) (hb : 0 < c.budget) :
    refWalkFrom mem c.descGpa c.queueSize c.nextIdx = Stream'.Seq.nil := by
  cases hi : c.nextIdx with
  | none => exact refWalkFrom_none _ _ _
  | some idx =>
    apply refWalkFrom_of_none
    unfold tableEntry
    split_ifs with hlt
    · have hcount : ¬c.queueSize ≤ c.count := by
        intro hle
        have := UInt16.le_iff_toNat_le.1 hle
        unfold budget at hb
        omega
      cases hr : read mem (c.descGpa.toNat + idx.toNat * 16) 16 with
      | none => rfl
      | some buf =>
        -- a readable entry does not wrap, so the call would have yielded it
        have hmap := (read_eq_some hr).1
        have hadd : checkedAdd c.descGpa.toNat (idx.toNat * 16) =
            some (c.descGpa.toNat + idx.toNat * 16) := by
          have := mapped_lt mem _ _ hmap (by omega)
          exact checkedAdd_eq_some.2 ⟨by omega, rfl⟩
        simp [nextDescriptor, hi, UInt16.not_le.2 hlt, hcount, hadd, hr] at h
    · rfl

/-! ### All calls -/

theorem nth_succ (c : DescriptorChain) (mems : ℕ → M) (k : ℕ) :
    nth c mems (k + 1) = nth (c.nextDescriptor (mems 0)).2 (fun i => mems (i + 1)) k := by
  induction k with
  | zero => rfl
  | succ k ih => rw [nth, ih, nth]

/-- Once a call has yielded nothing, no later call yields anything. -/
theorem nth_none_of_le {c : DescriptorChain} {mems : ℕ → M} {k j : ℕ} (hkj : k ≤ j)
    (h : (nth c mems k).1 = none) : (nth c mems j).1 = none := by
  have hstep : ∀ i, (nth c mems i).1 = none → (nth c mems i).2.Exhausted := by
    intro i hi
    cases i with
    | zero => exact exhausted_of_none hi
    | succ i => exact exhausted_of_none hi
  induction j, hkj using Nat.le_induction with
  | base => exact h
  | succ j _ ih => exact (hstep j ih).nextDescriptor _

/-- The descriptors of any number of calls fit in the budget of the cursor. -/
theorem length_nth_le (c : DescriptorChain) (mems : ℕ → M) (n : ℕ) :
    ((List.range n).filterMap fun k => (nth c mems k).1).length ≤ c.budget := by
  induction n generalizing c mems with
  | zero => simp
  | succ n ih =>
    rw [List.range_succ_eq_map, List.filterMap_cons, List.filterMap_map]
    cases hn : c.nextDescriptor (mems 0) with
    | mk od c' =>
      have htail : ((List.range n).filterMap ((fun k => (nth c mems k).1) ∘ Nat.succ)) =
          (List.range n).filterMap fun k => (nth c' (fun i => mems (i + 1)) k).1 := by
        apply List.filterMap_congr
        intro k _
        rw [Function.comp_apply, Nat.succ_eq_add_one, nth_succ, hn]
      rw [htail]
      cases od with
      | none =>
        have hex : c'.Exhausted := by
          have hnone : (c.nextDescriptor (mems 0)).1 = none := by rw [hn]
          have hexhausted := exhausted_of_none hnone
          rwa [hn] at hexhausted
        have hnil : (List.range n).filterMap
            (fun k => (nth c' (fun i => mems (i + 1)) k).1) = [] := by
          rw [List.filterMap_eq_nil_iff]
          intro k _
          exact nth_none_of_le (Nat.zero_le k) (hex.nextDescriptor _)
        simp [nth, hn, hnil]
      | some d =>
        have hb := budget_nextDescriptor hn
        have := ih c' fun i => mems (i + 1)
        simp only [nth, hn, List.length_cons]
        omega

/-- The calls on one memory yield the reference walk from where the cursor stands, as far as the
cycle check allows. -/
theorem nth_eq_refWalkFrom (c : DescriptorChain) (mem : M) (k : ℕ) :
    (nth c (fun _ => mem) k).1 = if k < c.budget then
      (refWalkFrom mem c.descGpa c.queueSize c.nextIdx).get? k else none := by
  induction k generalizing c with
  | zero =>
    cases hn : c.nextDescriptor mem with
    | mk od c' =>
      cases od with
      | none =>
        rw [nth, hn]
        split_ifs with hb
        · rw [refWalkFrom_of_none_of_budget (by rw [hn]) hb, Stream'.Seq.get?_nil]
        · rfl
      | some d =>
        obtain ⟨idx, hi, he, -, -⟩ := tableEntry_of_some hn
        have hb := budget_nextDescriptor hn
        rw [nth, hn, if_pos (by omega), hi, refWalkFrom_of_some he, Stream'.Seq.get?_cons_zero]
  | succ k ih =>
    cases hn : c.nextDescriptor mem with
    | mk od c' =>
      rw [nth_succ, hn]
      cases od with
      | none =>
        have hnone : (c.nextDescriptor mem).1 = none := by rw [hn]
        have hex := exhausted_of_none hnone
        rw [hn] at hex
        rw [nth_none_of_le (Nat.zero_le k) (hex.nextDescriptor _)]
        split_ifs with hb
        · rw [refWalkFrom_of_none_of_budget hnone (by omega), Stream'.Seq.get?_nil]
        · rfl
      | some d =>
        obtain ⟨idx, hi, he, hdesc, hsize⟩ := tableEntry_of_some hn
        have hb := budget_nextDescriptor hn
        rw [ih c', hdesc, hsize, hi, refWalkFrom_of_some he, Stream'.Seq.get?_cons_succ]
        simp only [← hb, Nat.add_lt_add_iff_right]

/-- **The walk of a chain refines the reference walk.**  The `k`-th call yields the `k`-th element
of the reference walk while `k` is below the queue size, and nothing from there on; no run of calls
yields more descriptors than that; and after a call that yields nothing no later one yields
anything.  The last two hold however memory changes between the calls. -/
theorem nextDescriptor_refines_refWalk (descGpa : UInt64) (queueSize head : UInt16) :
    (∀ (mem : M) (k : ℕ), (nth (start descGpa queueSize head) (fun _ => mem) k).1 =
      if k < queueSize.toNat then (refWalk mem descGpa queueSize head).get? k else none) ∧
    (∀ (mems : ℕ → M) (n : ℕ), ((List.range n).filterMap fun k =>
      (nth (start descGpa queueSize head) mems k).1).length ≤ queueSize.toNat) ∧
    ∀ (mems : ℕ → M) (k j : ℕ), k ≤ j → (nth (start descGpa queueSize head) mems k).1 = none →
      (nth (start descGpa queueSize head) mems j).1 = none := by
  have hb : (start descGpa queueSize head).budget = queueSize.toNat := Nat.sub_zero _
  refine ⟨fun mem k => ?_, fun mems n => ?_, fun mems k j hkj h => nth_none_of_le hkj h⟩
  · rw [nth_eq_refWalkFrom, hb]
    rfl
  · rw [← hb]
    exact length_nth_le _ mems n

end DescriptorChain

end Hitz.Devices

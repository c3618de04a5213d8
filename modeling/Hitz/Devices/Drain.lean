import Hitz.Devices.Queue

/-!
# The two loops of the virtio backends

Every backend empties a queue with one and the same loop,

    while let Some(chain) = queue.pop_chain(mem) { ..serve chain..; queue.push_used(mem, head, n) }

and most of them walk a chain with `while let Some(desc) = chain.next_descriptor(mem) { .. }`.

* `walk body`: the loop over the descriptors of a chain; it always ends (`walk_fuel`), and if it
  only reads memory it is a fold over `DescriptorChain.descriptors` (`walkChain_of_readOnly`);
* `drainStep serve`, `drain serve`, `turns serve`: the loop over the chains of a queue.  It need not
  end, so `drain` takes fuel and answers `none` when the fuel runs out; `turns serve n s` is the
  state after `n` turns, or after the last one if there are fewer, and `served serve n s` lists
  these turns.

The state of the queue loop keeps the chains popped so far, each as its device left it.
-/

namespace Hitz.Devices

open ByteStore

variable {M : Type} [ByteStore M] {α σ : Type}

/-! ### Walking a chain -/

/-- The loop over the descriptors of a chain.  The body returns whether the loop goes on. -/
def walk (body : α → M → Descriptor → α × M × Bool) :
    ℕ → DescriptorChain → α → M → DescriptorChain × α × M
  | 0, c, a, m => (c, a, m)
  | fuel + 1, c, a, m =>
    match c.nextDescriptor m with
    | (none, c') => (c', a, m)
    | (some d, c') =>
      match body a m d with
      | (a', m', true) => walk body fuel c' a' m'
      | (a', m', false) => (c', a', m')

/-- The descriptors a chain can still yield before the cycle check stops it. -/
def DescriptorChain.budget (c : DescriptorChain) : ℕ := c.queueSize.toNat - c.count.toNat

/-- A descriptor that is yielded is counted. -/
theorem DescriptorChain.budget_nextDescriptor {c c' : DescriptorChain} {m : M} {d : Descriptor}
    (h : c.nextDescriptor m = (some d, c')) : c'.budget + 1 = c.budget := by
  obtain ⟨idx, buf, -, -, hcount, -, -, rfl⟩ := nextDescriptor_eq_some h
  have hlt : c.count.toNat < c.queueSize.toNat := UInt16.lt_iff_toNat_lt.1 hcount
  have hq := c.queueSize.toNat_lt
  have hone : (c.count + 1).toNat = c.count.toNat + 1 := by
    rw [UInt16.toNat_add]
    exact Nat.mod_eq_of_lt (by simp; omega)
  simp only [budget, hone]
  omega

/-- The walk ends by itself: more fuel than the chain has descriptors changes nothing. -/
theorem walk_fuel (body : α → M → Descriptor → α × M × Bool) :
    ∀ fuel (c : DescriptorChain) a m, c.budget < fuel →
      walk body (fuel + 1) c a m = walk body fuel c a m := by
  intro fuel
  induction fuel with
  | zero =>
    intro c a m h
    omega
  | succ fuel ih =>
    intro c a m h
    rw [walk, walk]
    cases hn : c.nextDescriptor m with
    | mk od c' =>
      cases od with
      | none => rfl
      | some d =>
        have hb := DescriptorChain.budget_nextDescriptor hn
        dsimp only
        rcases body a m d with ⟨a', m', _ | _⟩
        · rfl
        · exact ih c' a' m' (by omega)

/-- The walk of a whole chain. -/
def walkChain (body : α → M → Descriptor → α × M × Bool) (c : DescriptorChain) (a : α) (m : M) :
    DescriptorChain × α × M :=
  walk body (c.queueSize.toNat + 1) c a m

/-- Invariant rule for the walk: what holds at the start and is kept by every descriptor that is
yielded, and by the last failing call, holds at the end. -/
theorem walk_invariant {body : α → M → Descriptor → α × M × Bool}
    {I : DescriptorChain → α → M → Prop}
    (hnone : ∀ c a m, I c a m → (c.nextDescriptor m).1 = none → I (c.nextDescriptor m).2 a m)
    (hsome : ∀ c a m d, I c a m → (c.nextDescriptor m).1 = some d →
      I (c.nextDescriptor m).2 (body a m d).1 (body a m d).2.1) :
    ∀ fuel c a m, I c a m →
      I (walk body fuel c a m).1 (walk body fuel c a m).2.1 (walk body fuel c a m).2.2 := by
  intro fuel
  induction fuel with
  | zero => exact fun c a m h => h
  | succ fuel ih =>
    intro c a m h
    rw [walk]
    have h₁ := hnone c a m h
    have h₂ := hsome c a m
    cases hn : c.nextDescriptor m with
    | mk od c' =>
      rw [hn] at h₁ h₂
      cases od with
      | none => exact h₁ rfl
      | some d =>
        have h₃ := h₂ d h rfl
        dsimp only
        rcases hb : body a m d with ⟨a', m', _ | _⟩
        · rw [hb] at h₃
          exact h₃
        · rw [hb] at h₃
          exact ih c' a' m' h₃

/-- The descriptors a chain yields while memory stays as it is. -/
def yields : ℕ → DescriptorChain → M → List Descriptor
  | 0, _, _ => []
  | fuel + 1, c, m =>
    match c.nextDescriptor m with
    | (none, _) => []
    | (some d, c') => d :: yields fuel c' m

/-- The descriptors of a chain. -/
def DescriptorChain.descriptors (c : DescriptorChain) (m : M) : List Descriptor :=
  yields (c.queueSize.toNat + 1) c m

/-- The body of a walk over a list of descriptors. -/
def foldBody (body : α → M → Descriptor → α × M × Bool) (m : M) : List Descriptor → α → α
  | [], a => a
  | d :: ds, a => if (body a m d).2.2 then foldBody body m ds (body a m d).1 else (body a m d).1

omit [ByteStore M] in
theorem foldBody_go {body : α → M → Descriptor → α × M × Bool} {m m' : M} {d : Descriptor}
    {a a' : α} (h : body a m d = (a', m', true)) (ds : List Descriptor) :
    foldBody body m (d :: ds) a = foldBody body m ds a' := by
  simp only [foldBody, h, if_true]

omit [ByteStore M] in
theorem foldBody_stop {body : α → M → Descriptor → α × M × Bool} {m m' : M} {d : Descriptor}
    {a a' : α} (h : body a m d = (a', m', false)) (ds : List Descriptor) :
    foldBody body m (d :: ds) a = a' := by
  simp [foldBody, h]

/-- A walk that only reads memory is a fold over the descriptors of the chain. -/
theorem walk_of_readOnly {body : α → M → Descriptor → α × M × Bool}
    (hbody : ∀ a m d, (body a m d).2.1 = m) (m : M) : ∀ fuel c a,
      (walk body fuel c a m).2 = (foldBody body m (yields fuel c m) a, m) := by
  intro fuel
  induction fuel with
  | zero => exact fun c a => rfl
  | succ fuel ih =>
    intro c a
    rw [walk, yields]
    cases hn : c.nextDescriptor m with
    | mk od c' =>
      cases od with
      | none => rfl
      | some d =>
        have hm := hbody a m d
        dsimp only [foldBody]
        rcases hb : body a m d with ⟨a', m', _ | _⟩
        · rw [hb] at hm
          cases hm
          rfl
        · rw [hb] at hm
          cases hm
          exact ih c' a'

theorem walkChain_of_readOnly {body : α → M → Descriptor → α × M × Bool}
    (hbody : ∀ a m d, (body a m d).2.1 = m) (c : DescriptorChain) (a : α) (m : M) :
    (walkChain body c a m).2 = (foldBody body m (c.descriptors m) a, m) :=
  walk_of_readOnly hbody m _ c a

/-- What the body notes at each descriptor of a walk, in order. -/
def walkLog {β : Type} (body : α → M → Descriptor → α × M × Bool)
    (note : α → M → Descriptor → List β) :
    ℕ → DescriptorChain → α → M → List β
  | 0, _, _, _ => []
  | fuel + 1, c, a, m =>
    match c.nextDescriptor m with
    | (none, _) => []
    | (some d, c') => note a m d ++
      match body a m d with
      | (a', m', true) => walkLog body note fuel c' a' m'
      | (_, _, false) => []

/-! ### Emptying a queue -/

/-- What serving one chain leaves behind: the device, the chain's cursor, the memory and the
length to report in the used ring. -/
structure Served (σ M : Type) where
  dev : σ
  chain : DescriptorChain
  mem : M
  written : UInt32

/-- The state of the loop over the chains of a queue. -/
structure LoopState (σ M : Type) where
  dev : σ
  queue : VirtQueue
  mem : M
  popped : List DescriptorChain := []

variable (serve : σ → DescriptorChain → M → Served σ M)

/-- One turn of the loop; `none` when there is nothing left to pop. -/
def drainStep (s : LoopState σ M) : Option (LoopState σ M) :=
  match s.queue.popChain s.mem with
  | none => none
  | some (chain, queue) =>
    let r := serve s.dev chain s.mem
    some { dev := r.dev, queue, mem := queue.pushUsed r.mem chain.headIdx r.written
           popped := s.popped ++ [r.chain] }

/-- The loop; `none` when it has not ended after `fuel` turns. -/
def drain : ℕ → LoopState σ M → Option (LoopState σ M)
  | 0, _ => none
  | fuel + 1, s =>
    match drainStep serve s with
    | none => some s
    | some s' => drain fuel s'

/-- The state after `n` turns, or after the last one. -/
def turns : ℕ → LoopState σ M → LoopState σ M
  | 0, s => s
  | n + 1, s =>
    match drainStep serve s with
    | none => s
    | some s' => turns n s'

/-- What a turn serves: a chain, and the device and the memory it finds. -/
structure Turn (σ M : Type) where
  dev : σ
  chain : DescriptorChain
  mem : M

/-- The first `n` turns. -/
def served : ℕ → LoopState σ M → List (Turn σ M)
  | 0, _ => []
  | n + 1, s =>
    match s.queue.popChain s.mem, drainStep serve s with
    | some (chain, _), some s' => { dev := s.dev, chain, mem := s.mem } :: served n s'
    | _, _ => []

variable {serve}

/-- Everything one turn did. -/
theorem drainStep_eq_some {s s' : LoopState σ M} (h : drainStep serve s = some s') :
    ∃ chain queue, s.queue.popChain s.mem = some (chain, queue) ∧
      s' = { dev := (serve s.dev chain s.mem).dev, queue
             mem := queue.pushUsed (serve s.dev chain s.mem).mem chain.headIdx
               (serve s.dev chain s.mem).written
             popped := s.popped ++ [(serve s.dev chain s.mem).chain] } := by
  unfold drainStep at h
  split at h
  · cases h
  · rename_i chain queue hp
    cases h
    exact ⟨chain, queue, hp, rfl⟩

theorem turns_of_end {s : LoopState σ M} (h : drainStep serve s = none) (n : ℕ) :
    turns serve n s = s := by
  cases n with
  | zero => rfl
  | succ n => rw [turns, h]

/-- The last turn of `n + 1` turns. -/
theorem turns_succ (n : ℕ) (s : LoopState σ M) :
    turns serve (n + 1) s = (drainStep serve (turns serve n s)).getD (turns serve n s) := by
  induction n generalizing s with
  | zero =>
    rw [turns, turns]
    cases drainStep serve s <;> rfl
  | succ n ih =>
    rw [turns]
    cases hd : drainStep serve s with
    | none => rw [turns_of_end hd, hd]; rfl
    | some t =>
      dsimp only
      rw [ih t]
      simp only [turns, hd]

/-- After the last turn the state stays as it is. -/
theorem turns_eq_of_end {s : LoopState σ M} {n k : ℕ} (h : drainStep serve (turns serve n s) = none)
    (hk : n ≤ k) : turns serve k s = turns serve n s := by
  induction k, hk using Nat.le_induction with
  | base => rfl
  | succ k _ ih => rw [turns_succ, ih, h, Option.getD_none]

theorem drainStep_eq_none_iff {s : LoopState σ M} :
    drainStep serve s = none ↔ s.queue.popChain s.mem = none := by
  unfold drainStep
  split
  · simp [*]
  · simp [*]

/-- Invariant rule for the loop.  A turn need keep the invariant only on the states of the run. -/
theorem turns_invariant {I : LoopState σ M → Prop} {s : LoopState σ M} (hs : I s)
    (hstep : ∀ k t, I (turns serve k s) → drainStep serve (turns serve k s) = some t → I t)
    (n : ℕ) : I (turns serve n s) := by
  induction n with
  | zero => exact hs
  | succ n ih =>
    rw [turns_succ]
    cases hd : drainStep serve (turns serve n s) with
    | none => exact ih
    | some t => exact hstep n t ih hd

/-- A log to which serving a chain appends grows by what the served chains append. -/
theorem turns_log {β : Type} (log : σ → List β) (P : σ → Prop)
    (out : DescriptorChain → M → Option β)
    (hserve : ∀ dev chain mem, P dev →
      log (serve dev chain mem).dev = log dev ++ (out chain mem).toList ∧
      P (serve dev chain mem).dev) (n : ℕ) (s : LoopState σ M) (hs : P s.dev) :
    log (turns serve n s).dev =
      log s.dev ++ (served serve n s).filterMap fun t => out t.chain t.mem := by
  induction n generalizing s with
  | zero => simp only [turns, served, List.filterMap_nil, List.append_nil]
  | succ n ih =>
    rw [turns, served]
    cases hd : drainStep serve s with
    | none => simp
    | some t =>
      obtain ⟨chain, queue, hpop, rfl⟩ := drainStep_eq_some hd
      obtain ⟨hlog, hP⟩ := hserve s.dev chain s.mem hs
      rw [hpop]
      dsimp only
      rw [ih _ hP, hlog, List.append_assoc]
      congr 1
      cases ho : out chain s.mem with
      | none => simp [ho]
      | some v => simp [ho]

/-- The loop returns the state in which nothing is left to pop. -/
theorem drain_eq_some_iff {fuel : ℕ} {s s' : LoopState σ M} : drain serve (fuel + 1) s = some s' ↔
    turns serve fuel s = s' ∧ drainStep serve s' = none := by
  induction fuel generalizing s with
  | zero =>
    rw [drain, turns]
    cases hd : drainStep serve s with
    | none =>
      constructor
      · rintro ⟨⟩
        exact ⟨rfl, hd⟩
      · rintro ⟨rfl, -⟩
        rfl
    | some t =>
      constructor
      · rintro ⟨⟩
      · rintro ⟨rfl, h⟩
        rw [hd] at h
        cases h
  | succ fuel ih =>
    rw [drain, turns]
    cases hd : drainStep serve s with
    | none =>
      constructor
      · rintro ⟨⟩
        exact ⟨rfl, hd⟩
      · rintro ⟨rfl, -⟩
        rfl
    | some t => exact ih

end Hitz.Devices

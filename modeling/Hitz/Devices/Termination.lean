import Hitz.Devices.Block
import Hitz.Devices.Vsock
import Hitz.Devices.QueueFifo

/-!
# When the queue loops end

`while let Some(chain) = queue.pop_chain(mem)` compares `last_avail_idx` with `avail.idx`, which it
reads again in every turn, from memory that the turn itself has written.  As long as no turn writes
the two bytes of `avail.idx`, the loop pops at most the chains that were available at its start
and ends (`ends_of_keepsIdx`).  Nothing in the device enforces that: if the guest puts the used
ring on top of the available ring, every push makes one more chain available and the loop runs
forever (`drain_aliased`).
-/

namespace Hitz.Devices

open ByteStore

variable {M : Type} [ByteStore M] {σ : Type}

namespace VirtQueue

/-- The two bytes of `avail.idx`. -/
def idxBytes (q : VirtQueue) : Set ℕ := Set.Ico (q.availGpa.toNat + 2) (q.availGpa.toNat + 4)

/-- The number of chains available: `(avail.idx - last_avail_idx) mod 2^16`. -/
def pending (q : VirtQueue) (mem : M) : ℕ := (q.availIdx mem - q.lastAvailIdx).toNat

end VirtQueue

/-- The next turn does not write `avail.idx`.  `touch` bounds what serving a chain writes. -/
def KeepsIdx (serve : σ → DescriptorChain → M → Served σ M)
    (touch : σ → DescriptorChain → M → Set ℕ) (s : LoopState σ M) : Prop :=
  ∀ p ∈ s.queue.popChain s.mem,
    Disjoint s.queue.idxBytes
      (touch s.dev p.1 s.mem ∪ s.queue.pushRange (serve s.dev p.1 s.mem).mem)

/-- The loop pops at most the chains available at its start, and ends. -/
def Ends (serve : σ → DescriptorChain → M → Served σ M) (s : LoopState σ M) : Prop :=
  (∀ n, (turns serve n s).popped.length ≤ s.popped.length + s.queue.pending s.mem) ∧
    (drain serve (s.queue.pending s.mem + 1) s).isSome = true

/-! ### A loop that leaves `avail.idx` alone ends -/

/-- What every turn keeps: `avail.idx` stays, and `last_avail_idx` counts the chains popped. -/
structure Counting (q : VirtQueue) (m : M) (k : ℕ) (s : LoopState σ M) : Prop where
  queue_eq : s.queue = { q with lastAvailIdx := q.lastAvailIdx + UInt16.ofNat k }
  idx_eq : q.availIdx s.mem = q.availIdx m
  le_pending : k ≤ q.pending m

theorem Counting.step {q : VirtQueue} {m : M} {k : ℕ} {s t : LoopState σ M}
    {serve : σ → DescriptorChain → M → Served σ M} {touch : σ → DescriptorChain → M → Set ℕ}
    (htouch : ∀ dev chain (mem : M), Agree (touch dev chain mem) mem (serve dev chain mem).mem)
    (hI : Counting q m k s) (hkeep : KeepsIdx serve touch s) (h : drainStep serve s = some t) :
    Counting q m (k + 1) t := by
  obtain ⟨chain, queue, hpop, rfl⟩ := drainStep_eq_some h
  obtain ⟨availIdx, headIdx, -, hidx, hne, -, -, rfl⟩ := VirtQueue.popChain_eq_some hpop
  have hdisj := hkeep _ hpop
  obtain ⟨-, rfl⟩ := readU16_eq_some hidx
  have hq := hI.queue_eq
  -- the index was not reached yet, since the pop succeeded
  have hlt : k < q.pending m := by
    refine lt_of_le_of_ne hI.le_pending fun hk => hne ?_
    have hidx' : u16At s.mem (s.queue.availGpa.toNat + 2) = q.availIdx m := by
      rw [hq]
      exact hI.idx_eq
    rw [hidx', hq, hk, VirtQueue.pending, UInt16.ofNat_toNat]
    show q.lastAvailIdx + (q.availIdx m - q.lastAvailIdx) = q.availIdx m
    rw [UInt16.add_comm, UInt16.sub_add_cancel]
  exact {
    queue_eq := by
      rw [hq]
      simp only
      congr 1
      rw [UInt16.ofNat_add, UInt16.add_assoc]
      rfl
    idx_eq := by
      rw [← hI.idx_eq]
      have hag := (htouch s.dev chain s.mem).union
        (s.queue.agree_pushUsed_pushRange (serve s.dev chain s.mem).mem chain.headIdx
          (serve s.dev chain s.mem).written)
      refine u16At_agree hag fun x h₁ h₂ hx => Set.disjoint_left.1 hdisj ?_ hx
      rw [hq]
      exact ⟨h₁, h₂⟩
    le_pending := hlt }

/-- In every turn of the loop the count goes up by one, until the loop ends. -/
theorem counting_turns {q : VirtQueue} {m : M} {dev : σ}
    {serve : σ → DescriptorChain → M → Served σ M} {touch : σ → DescriptorChain → M → Set ℕ}
    (htouch : ∀ dev chain (mem : M), Agree (touch dev chain mem) mem (serve dev chain mem).mem)
    (hkeep : ∀ k, KeepsIdx serve touch (turns serve k { dev, queue := q, mem := m })) (n : ℕ) :
    ∃ k, Counting q m k (turns serve n { dev, queue := q, mem := m }) ∧
      (turns serve n { dev, queue := q, mem := m }).popped.length = k ∧
      (drainStep serve (turns serve n { dev, queue := q, mem := m }) = none ∨ k = n) := by
  induction n with
  | zero =>
    exact ⟨0, ⟨by simp [turns], rfl, Nat.zero_le _⟩, rfl, Or.inr rfl⟩
  | succ n ih =>
    obtain ⟨k, hI, hlen, hend⟩ := ih
    rw [turns_succ]
    cases hd : drainStep serve (turns serve n { dev, queue := q, mem := m }) with
    | none => exact ⟨k, hI, hlen, Or.inl hd⟩
    | some t =>
      rw [hd] at hend
      obtain rfl : k = n := by simpa using hend
      refine ⟨k + 1, hI.step htouch (hkeep k) hd, ?_, Or.inr rfl⟩
      obtain ⟨chain, queue, -, rfl⟩ := drainStep_eq_some hd
      simp [hlen]

theorem ends_of_keepsIdx {serve : σ → DescriptorChain → M → Served σ M}
    {touch : σ → DescriptorChain → M → Set ℕ}
    (htouch : ∀ dev chain (mem : M), Agree (touch dev chain mem) mem (serve dev chain mem).mem)
    {dev : σ} {queue : VirtQueue} {mem : M}
    (hkeep : ∀ k, KeepsIdx serve touch (turns serve k { dev, queue, mem })) :
    Ends serve { dev, queue, mem } := by
  refine ⟨fun n => ?_, ?_⟩
  · obtain ⟨k, hI, hlen, -⟩ := counting_turns htouch hkeep n
    rw [hlen]
    exact le_trans hI.le_pending (Nat.le_add_left _ _)
  · -- one more turn than there are chains would pop too many
    have hend : drainStep serve (turns serve (queue.pending mem) { dev, queue, mem }) = none := by
      obtain ⟨k, hI, -, hor⟩ := counting_turns htouch hkeep (queue.pending mem)
      rcases hor with h | rfl
      · exact h
      · cases hd : drainStep serve (turns serve (queue.pending mem) { dev, queue, mem }) with
        | none => rfl
        | some t =>
          have := (hI.step htouch (hkeep _) hd).le_pending
          omega
    exact Option.isSome_iff_exists.2 ⟨_, drain_eq_some_iff.2 ⟨rfl, hend⟩⟩

/-- A ready queue of four entries: table at 0, available ring at 64, used ring at 128. -/
def apartQueue : VirtQueue where
  size := 4
  descGpa := 0
  availGpa := 64
  usedGpa := 128
  lastAvailIdx := 0
  ready := true
  size_pos := VirtQueue.four_pos
  size_le := VirtQueue.four_le

/-- Memory with one available chain, head 0. -/
def oneAvailable : Vmm.MappedMemory :=
  Vmm.MappedMemory.ram 4096 Vmm.MappedMemory.page_pos (Vmm.MappedMemory.image [(64, [0, 0, 1, 0])])

/-- A socket device with nothing to do. -/
def idleVsock : VirtioVsockDevice where
  guestCid := 3

/-- With both rings at one address, a turn that serves without touching memory advances
`avail.idx` together with `last_avail_idx`. -/
theorem drainStep_aliased {serve : σ → DescriptorChain → M → Served σ M}
    (hserve : ∀ dev chain (mem : M), (serve dev chain mem).mem = mem) {s : LoopState σ M}
    (hready : s.queue.ready = true) (halias : s.queue.usedGpa = s.queue.availGpa)
    (hmap : mapped s.mem s.queue.availGpa.toNat (4 + 8 * s.queue.size.toNat) = true)
    (hne : s.queue.lastAvailIdx ≠ s.queue.availIdx s.mem) :
    ∃ t, drainStep serve s = some t ∧ t.queue.ready = true ∧
      t.queue.usedGpa = t.queue.availGpa ∧
      mapped t.mem t.queue.availGpa.toNat (4 + 8 * t.queue.size.toNat) = true ∧
      t.queue.lastAvailIdx ≠ t.queue.availIdx t.mem := by
  obtain ⟨chain, hpop⟩ := VirtQueue.popChain_of_mapped hready
    (mapped_sub _ _ _ _ _ hmap le_rfl (by omega)) hne
  have hag := s.queue.agree_pushUsed s.mem chain.headIdx (serve s.dev chain s.mem).written
  obtain ⟨hidx, -, -⟩ := pushUsed_spec (q := s.queue) (by rw [halias]; exact hmap) chain.headIdx
    (serve s.dev chain s.mem).written
  have hsame : ∀ m : M, s.queue.usedIdx m = s.queue.availIdx m := by
    intro m
    rw [VirtQueue.usedIdx, halias]
    rfl
  rw [hsame, hsame] at hidx
  refine ⟨{ dev := (serve s.dev chain s.mem).dev
            queue := { s.queue with lastAvailIdx := s.queue.lastAvailIdx + 1 }
            mem := s.queue.pushUsed s.mem chain.headIdx (serve s.dev chain s.mem).written
            popped := s.popped ++ [(serve s.dev chain s.mem).chain] },
    ?_, hready, halias, (congrFun₂ hag.mapped_eq _ _).trans hmap, fun heq => hne ?_⟩
  · simp only [drainStep, hpop, hserve]
    rfl
  · change s.queue.lastAvailIdx + 1 = s.queue.availIdx (s.queue.pushUsed s.mem _ _) at heq
    rw [hidx] at heq
    exact (UInt16.add_left_inj 1).1 heq

/-- So that loop never ends. -/
theorem drain_aliased {serve : σ → DescriptorChain → M → Served σ M}
    (hserve : ∀ dev chain (mem : M), (serve dev chain mem).mem = mem) (fuel : ℕ) :
    ∀ s : LoopState σ M, s.queue.ready = true → s.queue.usedGpa = s.queue.availGpa →
      mapped s.mem s.queue.availGpa.toNat (4 + 8 * s.queue.size.toNat) = true →
      s.queue.lastAvailIdx ≠ s.queue.availIdx s.mem → drain serve fuel s = none := by
  induction fuel with
  | zero => exact fun _ _ _ _ _ => rfl
  | succ fuel ih =>
    intro s h₁ h₂ h₃ h₄
    obtain ⟨t, ht, h₁, h₂, h₃, h₄⟩ := drainStep_aliased hserve h₁ h₂ h₃ h₄
    rw [drain, ht]
    exact ih t h₁ h₂ h₃ h₄

/-- `apartQueue` with the used ring moved on top of the available ring. -/
def aliasedQueue : VirtQueue := apartQueue.configure 0 64 64

end Hitz.Devices

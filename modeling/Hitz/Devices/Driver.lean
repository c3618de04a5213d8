import Hitz.Devices.QueueFifo
import Hitz.Devices.BringUp
import Hitz.Devices.Termination

/-!
# A driver and its queue, through the transport

The driver publishes heads in the available ring of queue `idx` and notifies the queue through the
register `QUEUE_NOTIFY`; the transport then lets the backend empty the queue.  Between these steps
anything may happen to the transport that leaves the queue's state and its rings alone
(`DriverStep`).  `serves_in_order` shows that over every such run the heads are served exactly once,
in the order of their publication, and that a notification returns with nothing left to serve.

It holds for every queue that its backend empties with the loop of `Drain` (`Drains`): the queue of
the block device, the transmit queues of the net and socket devices, the socket's event queue.
-/

namespace Hitz.Devices

open ByteStore Relation

variable {D M : Type} [ByteStore M]

/-! ### The queue loop as a run of the two sides -/

/-- The rings of the queue. -/
def VirtQueue.rings (q : VirtQueue) : Set ℕ := q.availArea ∪ q.usedArea

/-- What the turns push into the used ring. -/
def completions (serve : D → DescriptorChain → M → Served D M) (ts : List (Turn D M)) :
    List (UInt16 × UInt32) :=
  ts.map fun t => (t.chain.headIdx, (serve t.dev t.chain t.mem).written)

omit [ByteStore M] in
theorem length_completions (serve : D → DescriptorChain → M → Served D M) (ts : List (Turn D M)) :
    (completions serve ts).length = ts.length := List.length_map _

/-- The heads the turns served. -/
def heads (ts : List (Turn D M)) : List UInt16 := ts.map fun t => t.chain.headIdx

/-- The invariant of the FIFO along a run. -/
theorem Inv.run {q₀ : VirtQueue} {m₀ : M} {w w' : World M} (hI : Inv q₀ m₀ w)
    (hq : q₀.RingsOk m₀) (hrun : ReflTransGen Step w w') : Inv q₀ m₀ w' := by
  induction hrun with
  | refl => exact hI
  | tail _ hstep ih => exact ih.step hq hstep

/-- No turn of the loop writes the rings while it serves its chain. -/
def KeepsRings (serve : D → DescriptorChain → M → Served D M) (s : LoopState D M) : Prop :=
  ∀ k, ∀ p ∈ (turns serve k s).queue.popChain (turns serve k s).mem,
    Agree s.queue.ringsᶜ (turns serve k s).mem
      (serve (turns serve k s).dev p.1 (turns serve k s).mem).mem

variable {serve : D → DescriptorChain → M → Served D M}

theorem rings_popChain {q q' : VirtQueue} {mem : M} {chain : DescriptorChain}
    (h : q.popChain mem = some (chain, q')) : q'.rings = q.rings := by
  obtain ⟨_, _, -, -, -, -, -, rfl⟩ := VirtQueue.popChain_eq_some h
  rfl

theorem KeepsRings.tail {s s' : LoopState D M} (h : KeepsRings serve s)
    (hd : drainStep serve s = some s') : KeepsRings serve s' := by
  intro k p hp
  have hturns : turns serve (k + 1) s = turns serve k s' := by rw [turns, hd]
  have hrings : s'.queue.rings = s.queue.rings := by
    obtain ⟨chain, queue, hpop, rfl⟩ := drainStep_eq_some hd
    exact rings_popChain hpop
  have hk := h (k + 1)
  rw [hturns] at hk
  rw [hrings]
  exact hk p hp

theorem served_of_none {s : LoopState D M} (hd : drainStep serve s = none) (n : ℕ) :
    served serve n s = [] := by
  cases n with
  | zero => rfl
  | succ n => simp [served, hd]

theorem served_succ {s s' : LoopState D M} {chain : DescriptorChain} {queue : VirtQueue}
    (hpop : s.queue.popChain s.mem = some (chain, queue)) (hd : drainStep serve s = some s')
    (n : ℕ) : served serve (n + 1) s =
      { dev := s.dev, chain, mem := s.mem } :: served serve n s' := by
  rw [served, hpop, hd]

/-- The turns of the loop are a run: each pops a chain, accesses the buffers and pushes the head it
popped. -/
theorem run_of_turns (n : ℕ) : ∀ (s : LoopState D M) (w : World M), KeepsRings serve s →
    w.queue = s.queue → w.mem = s.mem → w.inflight = [] →
    ReflTransGen Step w
      { queue := (turns serve n s).queue, mem := (turns serve n s).mem
        published := w.published
        popped := w.popped ++ heads (served serve n s)
        pushed := w.pushed ++ completions serve (served serve n s) } := by
  induction n with
  | zero =>
    intro s w _ hq hm hidle
    simp only [turns, served, heads, completions, List.map_nil, List.append_nil]
    rw [← hq, ← hm, ← hidle]
  | succ n ih =>
    intro s w hkeep hq hm hidle
    cases hd : drainStep serve s with
    | none =>
      rw [turns_of_end hd, served_of_none hd]
      simp only [heads, completions, List.map_nil, List.append_nil]
      rw [← hq, ← hm, ← hidle]
    | some s' =>
      obtain ⟨chain, queue, hpop, rfl⟩ := drainStep_eq_some hd
      have hring : (queue.availArea ∪ queue.usedArea) = s.queue.rings := rings_popChain hpop
      have hag := hkeep 0 (chain, queue) hpop
      -- the three steps of one turn
      have hstep₁ : Step w _ := Step.pop (by rw [hq, hm]; exact hpop)
      have hturn := ((ReflTransGen.single hstep₁).tail
        (@Step.access _ _ _ (serve s.dev chain s.mem).mem (by
          show Agree (queue.availArea ∪ queue.usedArea)ᶜ w.mem _
          rw [hring, hm]
          exact hag))).tail
        (@Step.push _ _ _ chain.headIdx [] (serve s.dev chain s.mem).written (by
          show w.inflight ++ [chain.headIdx] = [chain.headIdx]
          rw [hidle, List.nil_append]))
      refine hturn.trans ?_
      have hrest := ih _ { queue := queue
                           mem := queue.pushUsed (serve s.dev chain s.mem).mem chain.headIdx
                             (serve s.dev chain s.mem).written
                           published := w.published
                           popped := w.popped ++ [chain.headIdx]
                           pushed := w.pushed ++ [(chain.headIdx,
                             (serve s.dev chain s.mem).written)] }
        (hkeep.tail hd) rfl rfl rfl
      rw [served_succ hpop hd, turns, hd]
      simpa [heads, completions, List.append_assoc] using hrest

/-- A loop that has not ended has served a chain in every turn. -/
theorem length_served {n : ℕ} : ∀ {s : LoopState D M}, drainStep serve (turns serve n s) ≠ none →
    (served serve (n + 1) s).length = n + 1 := by
  induction n with
  | zero =>
    intro s h
    obtain ⟨s', hs'⟩ := Option.ne_none_iff_exists'.1 h
    have hs'' : drainStep serve s = some s' := hs'
    obtain ⟨chain, queue, hpop, -⟩ := drainStep_eq_some hs''
    rw [served_succ hpop hs'']
    rfl
  | succ n ih =>
    intro s h
    rw [turns] at h
    cases hd : drainStep serve s with
    | none =>
      rw [hd] at h
      exact absurd hd h
    | some s' =>
      rw [hd] at h
      obtain ⟨chain, queue, hpop, -⟩ := drainStep_eq_some hd
      rw [served_succ hpop hd, List.length_cons, ih h]

/-! ### Driver and transport -/

/-- The backend empties queue `idx` with the loop that serves a chain by `serve`. -/
def Drains [VirtioBackend D M] (serve : D → DescriptorChain → M → Served D M) (idx : UInt16) :
    Prop :=
  ∀ fuel dev queue mem, VirtioBackend.processQueue fuel dev idx queue mem =
    drain serve fuel { dev, queue, mem }

theorem drains_block : Drains (VirtioBlockDevice.serve (M := M)) 0 := fun _ _ _ _ => rfl

theorem drains_netTx : Drains (VirtioNetDevice.serveTx (M := M)) 1 := fun _ _ _ _ => rfl

theorem drains_vsockTx : Drains (VirtioVsockDevice.serveTx (M := M)) 1 := fun _ _ _ _ => rfl

theorem drains_vsockEvent : Drains (VirtioVsockDevice.serveEvent (M := M)) 2 := fun _ _ _ _ => rfl

/-- A transport and the driver of one of its queues, with the history of the heads published and of
the turns in which the backend served them. -/
structure DriverWorld (D M : Type) where
  transport : VirtioMmioTransport D M
  published : List UInt16 := []
  turns : List (Turn D M) := []

namespace DriverWorld

/-- What the notification of queue `qs` starts from. -/
def loopState (w : DriverWorld D M) (qs : QueueState) : LoopState D M where
  dev := w.transport.device
  queue := qs.queue
  mem := w.transport.mem

/-- The two sides of the queue. -/
def world (serve : D → DescriptorChain → M → Served D M) (w : DriverWorld D M) (qs : QueueState) :
    World M where
  queue := qs.queue
  mem := w.transport.mem
  published := w.published
  popped := heads w.turns
  pushed := completions serve w.turns

end DriverWorld

variable [VirtioBackend D M]

/-- One step of the driver and its device.  `env` says how the device may change while its queue is
not notified. -/
inductive DriverStep (serve : D → DescriptorChain → M → Served D M) (idx : UInt16)
    (env : D → D → Prop) (fuel : ℕ) : DriverWorld D M → DriverWorld D M → Prop
  | publish {w : DriverWorld D M} {qs : QueueState} {m' : M} (head : UInt16)
      (queue : w.transport.queues[idx.toNat]? = some qs)
      (room : w.published.length < w.turns.length + qs.queue.size.toNat)
      (h : qs.queue.publish w.transport.mem head = some m') :
      DriverStep serve idx env fuel w
        { w with transport := { w.transport with mem := m' }, published := w.published ++ [head] }
  | notify {w : DriverWorld D M} {qs : QueueState} {t' : VirtioMmioTransport D M}
      {irq : Option UInt8} (value : UInt32) (queue : w.transport.queues[idx.toNat]? = some qs)
      (clear : KeepsRings serve (w.loopState qs)) (hvalue : value.toUInt16 = idx)
      (h : w.transport.writeReg fuel 0x050 value = some (irq, t')) :
      DriverStep serve idx env fuel w
        { w with transport := t', turns := w.turns ++ served serve fuel (w.loopState qs) }
  | access {w : DriverWorld D M} {qs : QueueState} {t' : VirtioMmioTransport D M}
      (queue : w.transport.queues[idx.toNat]? = some qs)
      (queue' : t'.queues[idx.toNat]? = some qs) (device : env w.transport.device t'.device)
      (mem : Agree qs.queue.ringsᶜ w.transport.mem t'.mem) :
      DriverStep serve idx env fuel w { w with transport := t' }

variable {idx : UInt16} {env : D → D → Prop} {fuel : ℕ}

/-- What a notification that returned has done. -/
theorem notify_eq_some (hdrains : Drains (M := M) serve idx) {w : DriverWorld D M}
    {qs : QueueState} {t' : VirtioMmioTransport D M} {irq : Option UInt8} {value : UInt32}
    (queue : w.transport.queues[idx.toNat]? = some qs) (hvalue : value.toUInt16 = idx)
    (h : w.transport.writeReg fuel 0x050 value = some (irq, t')) :
    ∃ n, fuel = n + 1 ∧ irq = some w.transport.irqVector ∧
      drainStep serve (turns serve fuel (w.loopState qs)) = none ∧
      t'.queues[idx.toNat]? =
        some { qs with queue := (turns serve fuel (w.loopState qs)).queue } ∧
      t'.device = (turns serve fuel (w.loopState qs)).dev ∧
      t'.mem = (turns serve fuel (w.loopState qs)).mem ∧
      t'.interruptStatus = w.transport.interruptStatus ||| 1 := by
  have hnotify : w.transport.notify fuel idx = some (irq, t') := by rw [← hvalue]; exact h
  rw [VirtioMmioTransport.notify, queue] at hnotify
  obtain ⟨s, hs, heq⟩ := Option.map_eq_some_iff.1 hnotify
  rw [hdrains] at hs
  cases fuel with
  | zero => cases hs
  | succ n =>
    obtain ⟨hturns, hend⟩ := drain_eq_some_iff.1 hs
    have hlast : turns serve (n + 1) (w.loopState qs) = s :=
      (turns_eq_of_end (by rw [← hturns] at hend; exact hend) (Nat.le_succ n)).trans hturns
    cases heq
    have hlt : idx.toNat < w.transport.queues.length := (List.getElem?_eq_some_iff.1 queue).1
    rw [hlast]
    exact ⟨n, rfl, rfl, hend, by simp [hlt], rfl, rfl, rfl⟩

/-- A register write that neither resets the transport nor touches a queue. -/
def RegWrite.isQuiet (w : RegWrite) : Bool :=
  !w.isQueueReg && !w.isReset && w.reg ≠ some .queueNotify

omit [ByteStore M] in
theorem writeReg_of_isQuiet {t t' : VirtioMmioTransport D M} {w : RegWrite} {irq : Option UInt8}
    (hquiet : w.isQuiet = true) (h : t.writeReg fuel w.offset w.value = some (irq, t')) :
    irq = none ∧ t'.queues = t.queues ∧ t'.device = t.device ∧ t'.mem = t.mem := by
  have hreg : Reg.ofOffset w.offset = w.reg := rfl
  unfold VirtioMmioTransport.writeReg at h
  rw [hreg] at h
  unfold RegWrite.isQuiet RegWrite.isQueueReg RegWrite.isReset at hquiet
  obtain hr | ⟨r, hr⟩ := Option.eq_none_or_eq_some w.reg
  · rw [hr] at h
    cases h
    exact ⟨rfl, rfl, rfl, rfl⟩
  · rw [hr] at h hquiet
    cases r
    case queueNotify | queueNum | queueReady | queueDescLow | queueDescHigh | queueAvailLow
        | queueAvailHigh | queueUsedLow | queueUsedHigh => simp at hquiet
    case status =>
      have hne : ¬ w.value.toUInt8 = 0 := by simpa using hquiet
      dsimp only at h
      rw [if_neg hne] at h
      cases h
      exact ⟨rfl, rfl, rfl, rfl⟩
    case queueSel =>
      dsimp only at h
      split_ifs at h
      · cases h
        exact ⟨rfl, rfl, rfl, rfl⟩
      · cases h
        exact ⟨rfl, rfl, rfl, rfl⟩
    all_goals
      cases h
      exact ⟨rfl, rfl, rfl, rfl⟩

/-- So an acknowledgement, say, is a step of the driver. -/
theorem DriverStep.quiet (henv : ∀ dev, env dev dev) {w : DriverWorld D M} {qs : QueueState}
    {t' : VirtioMmioTransport D M} {r : RegWrite} {irq : Option UInt8}
    (queue : w.transport.queues[idx.toNat]? = some qs) (hquiet : r.isQuiet = true)
    (h : w.transport.writeReg fuel r.offset r.value = some (irq, t')) :
    DriverStep serve idx env fuel w { w with transport := t' } := by
  obtain ⟨-, hqueues, hdev, hmem⟩ := writeReg_of_isQuiet hquiet h
  exact DriverStep.access queue (by rw [hqueues]; exact queue) (by rw [hdev]; exact henv _)
    (by rw [hmem]; exact Agree.refl _ _)

/-- What every run keeps: the two sides of the queue are in a state of the FIFO. -/
def DriverInv (serve : D → DescriptorChain → M → Served D M) (idx : UInt16) (q₀ : VirtQueue)
    (m₀ : M) (w : DriverWorld D M) : Prop :=
  ∃ qs, w.transport.queues[idx.toNat]? = some qs ∧ Inv q₀ m₀ (w.world serve qs)

theorem DriverInv.step (hdrains : Drains (M := M) serve idx) {q₀ : VirtQueue} {m₀ : M}
    (hq : q₀.RingsOk m₀) {w w' : DriverWorld D M} (hI : DriverInv serve idx q₀ m₀ w)
    (h : DriverStep serve idx env fuel w w') : DriverInv serve idx q₀ m₀ w' := by
  obtain ⟨qs, hqs, hinv⟩ := hI
  cases h with
  | publish head queue room hpub =>
    rw [hqs] at queue
    cases queue
    refine ⟨qs, hqs, hinv.step hq (Step.publish head ?_ hpub)⟩
    show w.published.length < (completions serve w.turns).length + qs.queue.size.toNat
    rw [length_completions]
    exact room
  | notify value queue clear hvalue hnotify =>
    rw [hqs] at queue
    cases queue
    obtain ⟨n, -, -, -, hqueue, hdev, hmem, -⟩ := notify_eq_some hdrains hqs hvalue hnotify
    refine ⟨_, hqueue, ?_⟩
    have hrun := run_of_turns fuel (w.loopState qs) (w.world serve qs) clear rfl rfl rfl
    have hend := hinv.run hq hrun
    simp only [DriverWorld.world, heads, completions, List.map_append] at hend ⊢
    rw [hmem]
    exact hend
  | access queue queue' device mem =>
    rw [hqs] at queue
    cases queue
    exact ⟨qs, queue', hinv.step hq (Step.access mem)⟩

theorem driverInv_of_run (hdrains : Drains (M := M) serve idx) {t : VirtioMmioTransport D M}
    {qs : QueueState} (queue : t.queues[idx.toNat]? = some qs) (hq : qs.queue.RingsOk t.mem)
    (hempty : qs.queue.lastAvailIdx = qs.queue.availIdx t.mem) {w : DriverWorld D M}
    (hrun : ReflTransGen (DriverStep serve idx env fuel) { transport := t } w) :
    DriverInv serve idx qs.queue t.mem w := by
  induction hrun with
  | refl => exact ⟨qs, queue, inv_start hempty⟩
  | tail _ hstep ih => exact ih.step hdrains hq hstep

omit [VirtioBackend D M] in
/-- As many heads as the queue has entries may wait, so the loop ends within that many turns. -/
theorem drainStep_turns_eq_none {q₀ : VirtQueue} {m₀ : M} (hq : q₀.RingsOk m₀)
    {w : DriverWorld D M} {qs : QueueState} (hinv : Inv q₀ m₀ (w.world serve qs))
    (clear : KeepsRings serve (w.loopState qs)) :
    drainStep serve (turns serve q₀.size.toNat (w.loopState qs)) = none := by
  by_contra hne
  have hlen := length_served hne
  have hrun := run_of_turns (q₀.size.toNat + 1) (w.loopState qs) (w.world serve qs) clear rfl rfl rfl
  have hend := hinv.run hq hrun
  have hle := hend.fifo.length_le
  have hroom := hinv.room
  simp only [DriverWorld.world, List.length_append] at hle hroom
  have hheads : (heads (served serve (q₀.size.toNat + 1) (w.loopState qs))).length =
      q₀.size.toNat + 1 := (List.length_map _).trans hlen
  omega

/-- A notification whose buffers stay clear of the rings returns with the interrupt raised and
nothing left waiting. -/
theorem DriverInv.notify_returns (hdrains : Drains (M := M) serve idx) {q₀ : VirtQueue} {m₀ : M}
    (hq : q₀.RingsOk m₀) {w : DriverWorld D M} (hI : DriverInv serve idx q₀ m₀ w) {value : UInt32}
    {qs : QueueState} {n : ℕ} (hvalue : value.toUInt16 = idx)
    (hqs : w.transport.queues[idx.toNat]? = some qs) (clear : KeepsRings serve (w.loopState qs))
    (hn : q₀.size.toNat < n) :
    ∃ t', w.transport.writeReg n 0x050 value = some (some w.transport.irqVector, t') ∧
      heads (w.turns ++ served serve n (w.loopState qs)) = w.published ∧
      t'.interruptStatus = w.transport.interruptStatus ||| 1 := by
  obtain ⟨qs', hqs', hinv⟩ := hI
  rw [hqs] at hqs'
  cases hqs'
  have hnone := drainStep_turns_eq_none hq hinv clear
  obtain ⟨n, rfl⟩ : ∃ j, n = j + 1 := ⟨n - 1, by omega⟩
  have hturns : turns serve n (w.loopState qs) = turns serve q₀.size.toNat (w.loopState qs) :=
    turns_eq_of_end hnone (by omega)
  have hdrain : drain serve (n + 1) (w.loopState qs) = some (turns serve n (w.loopState qs)) :=
    drain_eq_some_iff.2 ⟨rfl, by rw [hturns]; exact hnone⟩
  have hwrite : (w.transport.writeReg (n + 1) 0x050 value).isSome = true := by
    show (w.transport.notify (n + 1) value.toUInt16).isSome = true
    rw [hvalue, VirtioMmioTransport.notify, hqs]
    dsimp only
    rw [hdrains, Option.isSome_map]
    exact Option.isSome_iff_exists.2 ⟨_, hdrain⟩
  obtain ⟨⟨irq, t'⟩, ht'⟩ := Option.isSome_iff_exists.1 hwrite
  obtain ⟨_, -, rfl, hend, -, -, -, hstatus⟩ := notify_eq_some hdrains hqs hvalue ht'
  refine ⟨t', ht', ?_, hstatus⟩
  -- nothing is left to pop
  have hrest := run_of_turns (n + 1) (w.loopState qs) (w.world serve qs) clear rfl rfl rfl
  have hall := (hinv.run hq hrest).popped_eq_of_popChain_eq_none hq (drainStep_eq_none_iff.1 hend)
  simp only [DriverWorld.world, heads] at hall
  rw [heads, List.map_append]
  exact hall

/-- **The queue is served in order.**  In every run of a driver and its device, the heads served are
the heads published, each once and in the order of their publication, up to those that still wait;
the used ring holds the last of their completions and `used.idx` counts them; and the next
notification, if the buffers it serves stay clear of the rings, returns with the interrupt raised
and nothing left waiting. -/
theorem serves_in_order (hdrains : Drains (M := M) serve idx) (t : VirtioMmioTransport D M)
    (qs : QueueState) (queue : t.queues[idx.toNat]? = some qs) (hq : qs.queue.RingsOk t.mem)
    (hempty : qs.queue.lastAvailIdx = qs.queue.availIdx t.mem) (w : DriverWorld D M)
    (hrun : ReflTransGen (DriverStep serve idx env fuel) { transport := t } w) :
    heads w.turns <+: w.published ∧
    w.published.length ≤ w.turns.length + qs.queue.size.toNat ∧
    (qs.queue.usedIdx w.transport.mem).toNat =
      ((qs.queue.usedIdx t.mem).toNat + w.turns.length) % 2 ^ 16 ∧
    (∀ k p, w.turns.length ≤ k + qs.queue.size.toNat →
      (completions serve w.turns)[k]? = some p →
      qs.queue.usedElem w.transport.mem
        (((qs.queue.usedIdx t.mem).toNat + k) % 2 ^ 16 % qs.queue.size.toNat) = elemOf p) ∧
    ∀ value qs' n, value.toUInt16 = idx → w.transport.queues[idx.toNat]? = some qs' →
      KeepsRings serve (w.loopState qs') → qs.queue.size.toNat < n →
      ∃ t', w.transport.writeReg n 0x050 value = some (some w.transport.irqVector, t') ∧
        heads (w.turns ++ served serve n (w.loopState qs')) = w.published ∧
        t'.interruptStatus = w.transport.interruptStatus ||| 1 := by
  have hI := driverInv_of_run hdrains queue hq hempty hrun
  obtain ⟨qs₁, -, hinv⟩ := id hI
  have hlen := length_completions serve w.turns
  have hpopped : (heads w.turns).length = w.turns.length := List.length_map _
  refine ⟨hinv.fifo, ?_, ?_, fun k p hk hp => ?_, fun value qs' n hvalue hqs' clear hn =>
    hI.notify_returns hdrains hq hvalue hqs' clear hn⟩
  · have hroom := hinv.room
    simp only [DriverWorld.world] at hroom
    omega
  · have hidx := hinv.used_idx
    simp only [DriverWorld.world, hlen] at hidx
    rw [hidx, UInt16.toNat_ofNat']
  · have hdvd : qs.queue.size.toNat ∣ 2 ^ 16 := hq.dvd
    have helem := hinv.used_ring k (elemOf p)
    simp only [DriverWorld.world, hlen] at helem
    rw [RingLog.slot_mod hdvd]
    exact helem (by omega) (by rw [List.getElem?_map, hp]; rfl)

/-- A transport of the socket device whose event queue is `apartQueue`. -/
def eventTransport : VirtioMmioTransport VirtioVsockDevice Vmm.MappedMemory :=
  { VirtioMmioTransport.new VirtioMmioTransport.socketDevice
      VirtioMmioTransport.zeroMemory 5 with
    queues := [QueueState.new, QueueState.new, { QueueState.new with queue := apartQueue }] }

/-- Its driver publishes a head and notifies the queue. -/
theorem serves_in_order_event : ∃ m' t',
    apartQueue.publish VirtioMmioTransport.zeroMemory 3 = some m' ∧
    { eventTransport with mem := m' }.writeReg 5 0x050 2 = some (some 5, t') ∧
    t'.interruptStatus = 1 := by
  have hrings : apartQueue.RingsOk VirtioMmioTransport.zeroMemory :=
    { ready := rfl
      pow_two := ⟨2, by decide, rfl⟩
      avail_mapped := by decide +kernel
      used_mapped := by decide +kernel
      disjoint := by
        refine Set.disjoint_left.2 fun x hx hx' => ?_
        have h₁ : x < 76 := hx.2
        have h₂ : 128 ≤ x := hx'.1
        omega }
  obtain ⟨m', hm'⟩ := Option.isSome_iff_exists.1
    (by decide +kernel : (apartQueue.publish VirtioMmioTransport.zeroMemory 3).isSome)
  have hstep : DriverStep VirtioVsockDevice.serveEvent 2 (fun _ _ => True) 5
      { transport := eventTransport } _ := DriverStep.publish 3 rfl (by decide) hm'
  obtain ⟨-, -, -, -, hserve⟩ := serves_in_order drains_vsockEvent eventTransport
    { QueueState.new with queue := apartQueue } rfl hrings (by decide +kernel) _
    (ReflTransGen.single hstep)
  obtain ⟨t', ht', -, hstatus⟩ := hserve 2 { QueueState.new with queue := apartQueue } 5 rfl rfl
    (fun k p _ => Agree.refl _ _) (by decide)
  have hone : (0 : UInt32) ||| 1 = 1 := rfl
  exact ⟨m', t', hm', ht', hstatus.trans hone⟩

end Hitz.Devices

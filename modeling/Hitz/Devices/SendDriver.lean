import Hitz.Devices.ChainWalk
import Hitz.Devices.Driver
import Hitz.Devices.Transmit

/-!
# What the guest sends, from the driver to the host

The driver of a transmit queue puts a message into a chain, publishes its head and notifies the
queue.  A message that waits must stay as it is; everything else may change under the device.
`SendStep` is one step of such a driver, and `sends_in_order` says of every run that the messages
reach the host once each, in the order they were posted, and that a notification leaves none behind.

* `frames_end_to_end`: the frames of the network device;
* `packets_end_to_end`: the packets of the socket device.

Transmitting writes no memory but the used ring, so nothing is asked of the buffers that `Driver`
asks of a device that writes them.
-/

namespace Hitz.Devices

open ByteStore Relation

variable {D M β : Type} [ByteStore M]

/-! ### Messages -/

/-- A device that sends what the chains of queue `idx` hold, and reads memory only. -/
structure Sender [VirtioBackend D M] (T : Transmitter D M β) (idx : UInt16)
    (holds : DescriptorChain → M → β → Prop) : Prop where
  drains : Drains T.serve idx
  mem_serve : ∀ dev chain mem, (T.serve dev chain mem).mem = mem
  out_of_holds : ∀ {chain mem b}, holds chain mem b → T.out chain mem = some b

/-- The chain with this head holds the message, whatever is in the rings. -/
def Posted (holds : DescriptorChain → M → β → Prop) (q : VirtQueue) (mem : M) (p : UInt16 × β) :
    Prop :=
  ∀ mem', Agree q.rings mem mem' → holds (DescriptorChain.start q.descGpa q.size p.1) mem' p.2

variable {holds : DescriptorChain → M → β → Prop}

theorem Posted.agree {q : VirtQueue} {mem mem' : M} {p : UInt16 × β} (h : Posted holds q mem p)
    (hag : Agree q.rings mem mem') : Posted holds q mem' p :=
  fun mem'' hag' => h mem'' (hag.trans hag')

/-- A driver, with the messages it has posted so far. -/
structure SendWorld (D M β : Type) where
  driver : DriverWorld D M
  posted : List (UInt16 × β) := []

/-- The messages that wait. -/
def SendWorld.waiting (w : SendWorld D M β) : List (UInt16 × β) :=
  w.posted.drop w.driver.turns.length

/-- The device between notifications: it sends nothing, and the host goes on listening. -/
def Quiet (T : Transmitter D M β) (dev dev' : D) : Prop :=
  T.sent dev' = T.sent dev ∧ T.connected dev' = T.connected dev

/-! ### Steps -/

variable [VirtioBackend D M] {T : Transmitter D M β} {idx : UInt16} {fuel : ℕ}

/-- One step of a driver that sends. -/
inductive SendStep (T : Transmitter D M β) (holds : DescriptorChain → M → β → Prop) (idx : UInt16)
    (fuel : ℕ) : SendWorld D M β → SendWorld D M β → Prop
  | post {w : SendWorld D M β} {qs : QueueState} {m' : M} (head : UInt16) (b : β)
      (queue : w.driver.transport.queues[idx.toNat]? = some qs)
      (room : w.driver.published.length < w.driver.turns.length + qs.queue.size.toNat)
      (posted : Posted holds qs.queue w.driver.transport.mem (head, b))
      (h : qs.queue.publish w.driver.transport.mem head = some m') :
      SendStep T holds idx fuel w
        { driver := { w.driver with transport := { w.driver.transport with mem := m' }
                                    published := w.driver.published ++ [head] }
          posted := w.posted ++ [(head, b)] }
  | notify {w : SendWorld D M β} {qs : QueueState} {t' : VirtioMmioTransport D M}
      {irq : Option UInt8} (value : UInt32)
      (queue : w.driver.transport.queues[idx.toNat]? = some qs) (hvalue : value.toUInt16 = idx)
      (h : w.driver.transport.writeReg fuel 0x050 value = some (irq, t')) :
      SendStep T holds idx fuel w
        { w with driver := { w.driver with
            transport := t'
            turns := w.driver.turns ++ served T.serve fuel (w.driver.loopState qs) } }
  | access {w : SendWorld D M β} {qs : QueueState} {t' : VirtioMmioTransport D M}
      (queue : w.driver.transport.queues[idx.toNat]? = some qs)
      (queue' : t'.queues[idx.toNat]? = some qs) (device : Quiet T w.driver.transport.device t'.device)
      (mem : Agree qs.queue.ringsᶜ w.driver.transport.mem t'.mem)
      (kept : ∀ p ∈ w.waiting, Posted holds qs.queue t'.mem p) :
      SendStep T holds idx fuel w { w with driver := { w.driver with transport := t' } }

/-! ### Turns -/

/-- A device that writes no memory leaves the rings to the queue. -/
theorem Sender.keepsRings (hT : Sender T idx holds) (s : LoopState D M) : KeepsRings T.serve s := by
  intro k p _
  rw [hT.mem_serve]
  exact Agree.refl _ _

/-- It is a driver in the sense of `Driver`. -/
theorem SendStep.driverStep (hT : Sender T idx holds) {w w' : SendWorld D M β}
    (h : SendStep T holds idx fuel w w') :
    DriverStep T.serve idx (Quiet T) fuel w.driver w'.driver := by
  cases h with
  | post head b queue room posted h => exact .publish head queue room h
  | notify value queue hvalue h => exact .notify value queue (hT.keepsRings _) hvalue h
  | access queue queue' device mem kept => exact .access queue queue' device mem

/-- Every turn finds the chain at its start, and memory as the notification found it but for the
rings. -/
theorem Sender.turn (hT : Sender T idx holds) (n : ℕ) : ∀ s : LoopState D M,
    ∀ t ∈ served T.serve n s,
      t.chain = DescriptorChain.start s.queue.descGpa s.queue.size t.chain.headIdx ∧
      Agree s.queue.rings s.mem t.mem := by
  induction n with
  | zero => exact fun s t ht => absurd ht List.not_mem_nil
  | succ n ih =>
    intro s t ht
    cases hd : drainStep T.serve s with
    | none =>
      rw [served_of_none hd] at ht
      cases ht
    | some s' =>
      obtain ⟨chain, queue, hpop, hs'⟩ := drainStep_eq_some hd
      rw [served_succ hpop hd] at ht
      rcases List.mem_cons.1 ht with rfl | ht
      · exact ⟨DescriptorChain.start_of_popChain hpop, Agree.refl _ _⟩
      · have hrings := rings_popChain hpop
        obtain ⟨_, _, -, -, -, -, -, rfl⟩ := VirtQueue.popChain_eq_some hpop
        obtain ⟨hchain, hag⟩ := ih s' t ht
        rw [hs', hT.mem_serve] at hag
        rw [hs'] at hchain
        refine ⟨hchain, Agree.trans ?_ hag⟩
        exact (VirtQueue.agree_pushUsed _ s.mem chain.headIdx _).mono
          ((VirtQueue.usedRing_subset _).trans Set.subset_union_right)

/-- The notification writes nothing but the rings. -/
theorem Sender.agree_turns (hT : Sender T idx holds) (n : ℕ) (s : LoopState D M) :
    Agree s.queue.rings s.mem (turns T.serve n s).mem := by
  refine (turns_invariant (I := fun s' => s'.queue.rings = s.queue.rings ∧
    Agree s.queue.rings s.mem s'.mem) ⟨rfl, Agree.refl _ _⟩ ?_ n).2
  rintro k s' ⟨hrings, hag⟩ hd
  obtain ⟨chain, queue, hpop, rfl⟩ := drainStep_eq_some hd
  have hqueue : queue.rings = s.queue.rings := (rings_popChain hpop).trans hrings
  refine ⟨hqueue, ?_⟩
  dsimp only
  rw [hT.mem_serve, ← hqueue]
  rw [← hqueue] at hag
  exact hag.trans ((queue.agree_pushUsed _ chain.headIdx _).mono
    (queue.usedRing_subset.trans Set.subset_union_right))

omit [VirtioBackend D M] in
/-- Turns that find the messages send them. -/
theorem filterMap_of_posted {q : VirtQueue} {mem : M}
    (hout : ∀ {chain mem b}, holds chain mem b → T.out chain mem = some b) :
    ∀ {ts : List (Turn D M)} {ps : List (UInt16 × β)}, heads ts = ps.map Prod.fst →
      (∀ p ∈ ps, Posted holds q mem p) →
      (∀ t ∈ ts, t.chain = DescriptorChain.start q.descGpa q.size t.chain.headIdx ∧
        Agree q.rings mem t.mem) →
      (ts.filterMap fun t => T.out t.chain t.mem) = ps.map Prod.snd := by
  intro ts
  induction ts with
  | nil =>
    intro ps hheads _ _
    rw [List.map_eq_nil_iff.1 hheads.symm]
    rfl
  | cons t ts ih =>
    intro ps hheads hps hts
    cases ps with
    | nil => cases hheads
    | cons p ps =>
      obtain ⟨hfst, htail⟩ := List.cons.inj hheads
      have hhead : t.chain.headIdx = p.1 := hfst
      obtain ⟨hp, hps⟩ := List.forall_mem_cons.1 hps
      obtain ⟨⟨hchain, hag⟩, hts⟩ := List.forall_mem_cons.1 hts
      have hsend : T.out t.chain t.mem = some p.2 := by
        refine hout ?_
        rw [hchain, hhead]
        exact hp t.mem hag
      rw [List.filterMap_cons, hsend, ih htail hps hts, List.map_cons]

/-! ### Runs -/

/-- What every run keeps: the messages of the turns are sent, those that wait are in memory. -/
structure SendInv (T : Transmitter D M β) (holds : DescriptorChain → M → β → Prop) (idx : UInt16)
    (q₀ : VirtQueue) (m₀ : M) (dev₀ : D) (w : SendWorld D M β) : Prop where
  driver : DriverInv T.serve idx q₀ m₀ w.driver
  published : w.posted.map Prod.fst = w.driver.published
  waiting : ∀ p ∈ w.waiting, Posted holds q₀ w.driver.transport.mem p
  connected : T.connected w.driver.transport.device = true
  sent : T.sent w.driver.transport.device =
    T.sent dev₀ ++ (w.posted.take w.driver.turns.length).map Prod.snd

omit [VirtioBackend D M] in
/-- The queue is the one of the start but for its cursor. -/
theorem DriverInv.posted_iff {serve : D → DescriptorChain → M → Served D M} {q₀ : VirtQueue} {m₀ : M}
    {w : DriverWorld D M} (h : DriverInv serve idx q₀ m₀ w) {qs : QueueState}
    (hqs : w.transport.queues[idx.toNat]? = some qs) {mem : M} {p : UInt16 × β} :
    Posted holds qs.queue mem p ↔ Posted holds q₀ mem p := by
  obtain ⟨qs', hqs', hinv⟩ := h
  obtain rfl := Option.some.inj (hqs.symm.trans hqs')
  have hqueue : qs.queue = { q₀ with lastAvailIdx := _ } := hinv.queue_eq
  rw [hqueue]
  exact Iff.rfl

omit [ByteStore M] [VirtioBackend D M] in
/-- The turns after the first ones served what was published after their heads. -/
theorem heads_of_prefix {ts ts' : List (Turn D M)} {ps : List (UInt16 × β)}
    (h : heads (ts ++ ts') <+: ps.map Prod.fst) :
    heads ts' = ((ps.drop ts.length).take ts'.length).map Prod.fst := by
  obtain ⟨rest, hrest⟩ := h
  have hlen : ∀ l : List (Turn D M), l.length = (heads l).length :=
    fun l => (List.length_map _).symm
  rw [heads, List.map_append] at hrest
  rw [List.map_take, List.map_drop, ← hrest, List.append_assoc, hlen ts, hlen ts']
  exact (List.take_left.symm.trans (congrArg _ List.drop_left.symm))

omit [VirtioBackend D M] in
/-- No more turns than messages. -/
theorem SendInv.turns_le {q₀ : VirtQueue} {m₀ : M} {dev₀ : D} {w : SendWorld D M β}
    (h : SendInv T holds idx q₀ m₀ dev₀ w) :
    heads w.driver.turns = (w.posted.take w.driver.turns.length).map Prod.fst ∧
      w.driver.turns.length ≤ w.posted.length := by
  obtain ⟨qs, -, hinv⟩ := h.driver
  have hfifo : heads w.driver.turns <+: w.posted.map Prod.fst := h.published ▸ hinv.fifo
  have hlen : (heads w.driver.turns).length = w.driver.turns.length := List.length_map _
  refine ⟨?_, ?_⟩
  · rw [List.map_take, ← hlen]
    exact List.prefix_iff_eq_take.1 hfifo
  · have hle := hfifo.length_le
    rw [hlen, List.length_map] at hle
    exact hle

theorem SendInv.step (hT : Sender T idx holds) {q₀ : VirtQueue} {m₀ : M} {dev₀ : D}
    (hq : q₀.RingsOk m₀) {w w' : SendWorld D M β} (hI : SendInv T holds idx q₀ m₀ dev₀ w)
    (h : SendStep T holds idx fuel w w') : SendInv T holds idx q₀ m₀ dev₀ w' := by
  have hdriver := hI.driver.step hT.drains hq (h.driverStep hT)
  have hle := hI.turns_le.2
  cases h with
  | @post qs m' head b queue room posted hpub =>
    have hag : Agree q₀.rings w.driver.transport.mem m' := by
      obtain ⟨qs', hqs', hinv⟩ := hI.driver
      obtain rfl := Option.some.inj (queue.symm.trans hqs')
      have hqueue : qs.queue = { q₀ with lastAvailIdx := _ } := hinv.queue_eq
      rw [hqueue] at hpub
      exact (publish_spec hpub).1.mono Set.subset_union_left
    refine ⟨hdriver, ?_, ?_, hI.connected, ?_⟩
    · rw [List.map_append, hI.published]
      rfl
    · intro p hp
      have hp' : p ∈ w.waiting ++ [(head, b)] := by
        rw [SendWorld.waiting, ← List.drop_append_of_le_length hle]
        exact hp
      rcases List.mem_append.1 hp' with hp | hp
      · exact (hI.waiting p hp).agree hag
      · rw [List.mem_singleton.1 hp]
        exact ((hI.driver.posted_iff queue).1 posted).agree hag
    · rw [List.take_append_of_le_length hle]
      exact hI.sent
  | @notify qs t' irq value queue hvalue hnotify =>
    obtain ⟨n, -, -, -, -, hdev, hmem, -⟩ := notify_eq_some hT.drains queue hvalue hnotify
    set s := w.driver.loopState qs with hs
    set ts := served T.serve fuel s with hts
    have hturn := hT.turn fuel s
    have hposted : ∀ p ∈ w.waiting, Posted holds qs.queue w.driver.transport.mem p :=
      fun p hp => (hI.driver.posted_iff queue).2 (hI.waiting p hp)
    have hfifo : heads (w.driver.turns ++ ts) <+: w.posted.map Prod.fst := by
      obtain ⟨_, -, hinv⟩ := hdriver
      rw [hI.published]
      exact hinv.fifo
    have hheads := heads_of_prefix hfifo
    have hlog := turns_log T.sent (fun dev => T.connected dev = true) T.out
      (fun dev chain mem hdev => ⟨by rw [T.sent_serve, hdev, if_pos rfl],
        (T.connected_serve dev chain mem).trans hdev⟩) fuel s hI.connected
    have hall := filterMap_of_posted hT.out_of_holds hheads
      (fun p hp => hposted p (List.mem_of_mem_take hp)) hturn
    have hconn : T.connected (turns T.serve fuel s).dev = true := by
      refine turns_invariant (I := fun s => T.connected s.dev = true) hI.connected ?_ fuel
      intro k s' hk hd
      obtain ⟨chain, queue, -, rfl⟩ := drainStep_eq_some hd
      exact (T.connected_serve _ _ _).trans hk
    refine ⟨hdriver, hI.published, fun p hp => ?_, ?_, ?_⟩
    · have hag := hT.agree_turns fuel s
      have hp' : p ∈ w.waiting := by
        dsimp only [SendWorld.waiting] at hp ⊢
        rw [List.length_append, ← List.drop_drop] at hp
        exact List.mem_of_mem_drop hp
      dsimp only
      rw [hmem]
      exact (hI.driver.posted_iff queue).1 ((hposted p hp').agree hag)
    · show T.connected t'.device = true
      rw [hdev]
      exact hconn
    · show T.sent t'.device = _
      rw [hdev, hlog, hall, List.length_append, List.take_add, List.map_append, ← List.append_assoc]
      exact congrArg (· ++ _) hI.sent
  | @access qs t' queue queue' device mem kept =>
    refine ⟨hdriver, hI.published, fun p hp => ?_, ?_, ?_⟩
    · exact (hI.driver.posted_iff queue).1 (kept p hp)
    · exact device.2.trans hI.connected
    · exact device.1.trans hI.sent

theorem sendInv_of_run (hT : Sender T idx holds) {t : VirtioMmioTransport D M} {qs : QueueState}
    (queue : t.queues[idx.toNat]? = some qs) (hq : qs.queue.RingsOk t.mem)
    (hempty : qs.queue.lastAvailIdx = qs.queue.availIdx t.mem) (hconn : T.connected t.device = true)
    {w : SendWorld D M β}
    (hrun : ReflTransGen (SendStep T holds idx fuel) { driver := { transport := t } } w) :
    SendInv T holds idx qs.queue t.mem t.device w := by
  induction hrun with
  | refl =>
    refine ⟨⟨qs, queue, inv_start hempty⟩, rfl, fun p hp => ?_, hconn, ?_⟩
    · cases hp
    · exact (List.append_nil _).symm
  | tail _ hstep ih => exact ih.step hT hq hstep

/-- **The guest sends in order.**  In every run of the driver of a transmit queue, the host has been
sent the messages of the turns made so far: those posted first, each once and in order; at most as
many as the queue has entries wait; and the next notification returns with the interrupt raised and
every message sent. -/
theorem sends_in_order (hT : Sender T idx holds) {t : VirtioMmioTransport D M} {qs : QueueState}
    (queue : t.queues[idx.toNat]? = some qs) (hq : qs.queue.RingsOk t.mem)
    (hempty : qs.queue.lastAvailIdx = qs.queue.availIdx t.mem) (hconn : T.connected t.device = true)
    {w : SendWorld D M β}
    (hrun : ReflTransGen (SendStep T holds idx fuel) { driver := { transport := t } } w) :
    T.sent w.driver.transport.device =
      T.sent t.device ++ (w.posted.take w.driver.turns.length).map Prod.snd ∧
    w.posted.length ≤ w.driver.turns.length + qs.queue.size.toNat ∧
    ∀ value n, value.toUInt16 = idx → qs.queue.size.toNat < n →
      ∃ t', w.driver.transport.writeReg n 0x050 value =
          some (some w.driver.transport.irqVector, t') ∧
        T.sent t'.device = T.sent t.device ++ w.posted.map Prod.snd := by
  have hI := sendInv_of_run hT queue hq hempty hconn hrun
  obtain ⟨qs₁, hqs₁, hinv⟩ := id hI.driver
  refine ⟨hI.sent, ?_, fun value n hvalue hn => ?_⟩
  · have hroom := hinv.room
    have hpub : w.posted.length = w.driver.published.length := by
      rw [← hI.published, List.length_map]
    have hpopped : (heads w.driver.turns).length = w.driver.turns.length := List.length_map _
    simp only [DriverWorld.world] at hroom
    omega
  · obtain ⟨t', ht', hall, -⟩ := hI.driver.notify_returns hT.drains hq hvalue hqs₁
      (hT.keepsRings _) hn
    have hstep : SendStep T holds idx n w _ := SendStep.notify value hqs₁ hvalue ht'
    have hlast := (hI.step hT hq hstep).sent
    refine ⟨t', ht', hlast.trans ?_⟩
    have hlen := congrArg List.length hall
    rw [heads, List.length_map, ← hI.published, List.length_map] at hlen
    dsimp only
    rw [hlen, List.take_length]

/-- From the register file on: whatever state the transport is in, once a driver has brought up the
queue, empty. -/
theorem sends_after_bringUp (hT : Sender T idx holds) (fuel : ℕ) (t : VirtioMmioTransport D M)
    (hconn : T.connected t.device = true) (hqueues : idx.toNat < t.queues.length)
    (features : UInt64) (q : VirtQueue) (hq : q.RingsOk t.mem) (hzero : q.lastAvailIdx = 0)
    (hempty : q.availIdx t.mem = 0) :
    ∃ t₀, writeRegs fuel t (bringUp idx q.size features q.descGpa q.availGpa q.usedGpa) = some t₀ ∧
      ∀ w : SendWorld D M β,
        ReflTransGen (SendStep T holds idx fuel) { driver := { transport := t₀ } } w →
        T.sent w.driver.transport.device =
          T.sent t.device ++ (w.posted.take w.driver.turns.length).map Prod.snd ∧
        w.posted.length ≤ w.driver.turns.length + q.size.toNat ∧
        ∀ value n, value.toUInt16 = idx → q.size.toNat < n →
          ∃ t', w.driver.transport.writeReg n 0x050 value =
              some (some w.driver.transport.irqVector, t') ∧
            T.sent t'.device = T.sent t.device ++ w.posted.map Prod.snd := by
  obtain ⟨t₀, qs, hup, hqs, hqueue, hdev, hmem, -⟩ := writeRegs_bringUp fuel t features
    q.descGpa q.availGpa q.usedGpa hqueues q.size_pos q.size_le
  refine ⟨t₀, hup, fun w hrun => ?_⟩
  have heq : qs.queue = q := by
    rw [hqueue, ← hzero]
    simp only [← hq.ready]
  have hrings : qs.queue.RingsOk t₀.mem := by rw [heq, hmem]; exact hq
  have hsends := sends_in_order hT hqs hrings (by rw [heq, hzero, hmem, hempty])
    (by rw [hdev]; exact hconn) hrun
  rw [heq, hdev] at hsends
  exact hsends

/-! ### What a chain holds -/

/-- The descriptor table. -/
def tableArea (descGpa : UInt64) (size : UInt16) : Set ℕ :=
  Set.Ico descGpa.toNat (descGpa.toNat + 16 * size.toNat)

omit [VirtioBackend D M] in
theorem nextDescriptor_agree {S : Set ℕ} {m m' : M} (h : Agree S m m') {c : DescriptorChain}
    (htable : ∀ x ∈ tableArea c.descGpa c.queueSize, x ∉ S) :
    c.nextDescriptor m' = c.nextDescriptor m := by
  unfold DescriptorChain.nextDescriptor
  cases hi : c.nextIdx with
  | none => rfl
  | some idx =>
    dsimp only
    by_cases hsize : c.queueSize ≤ idx
    · rw [if_pos hsize, if_pos hsize]
    · rw [if_neg hsize, if_neg hsize]
      cases ha : checkedAdd c.descGpa.toNat (idx.toNat * 16) with
      | none => rfl
      | some a =>
        obtain ⟨-, rfl⟩ := checkedAdd_eq_some.1 ha
        have hlt : idx.toNat < c.queueSize.toNat := UInt16.lt_iff_toNat_lt.1 (UInt16.not_le.1 hsize)
        have hread : read m' (c.descGpa.toNat + idx.toNat * 16) 16 =
            read m (c.descGpa.toNat + idx.toNat * 16) 16 :=
          h.read_eq fun x h₁ h₂ => htable x ⟨by omega, by omega⟩
        dsimp only
        rw [hread]

omit [VirtioBackend D M] in
theorem yields_agree {S : Set ℕ} {m m' : M} (h : Agree S m m') (fuel : ℕ) :
    ∀ c : DescriptorChain, (∀ x ∈ tableArea c.descGpa c.queueSize, x ∉ S) →
      yields fuel c m' = yields fuel c m := by
  induction fuel with
  | zero => exact fun c _ => rfl
  | succ fuel ih =>
    intro c htable
    rw [yields, yields, nextDescriptor_agree h htable]
    rcases hn : c.nextDescriptor m with ⟨od, c'⟩
    cases od with
    | none => rfl
    | some d =>
      obtain ⟨_, _, -, -, -, -, -, rfl⟩ := DescriptorChain.nextDescriptor_eq_some hn
      exact congrArg (List.cons d) (ih _ htable)

/-- The table and the device-readable buffers of the chain are clear of the addresses `S`. -/
structure ClearOf (S : Set ℕ) (chain : DescriptorChain) (mem : M) : Prop where
  table : ∀ x ∈ tableArea chain.descGpa chain.queueSize, x ∉ S
  buffers : ∀ d ∈ readable (chain.descriptors mem), ∀ x, d.gpa.toNat ≤ x →
    x < d.gpa.toNat + d.len.toNat → x ∉ S

omit [VirtioBackend D M] in
theorem ClearOf.descriptors {S : Set ℕ} {chain : DescriptorChain} {m m' : M}
    (hclear : ClearOf S chain m) (h : Agree S m m') : chain.descriptors m' = chain.descriptors m :=
  yields_agree h _ chain hclear.table

/-! ### Frames -/

section frames

variable {M : Type} [ByteStore M]

/-- The network device sends the frames of its chains. -/
theorem sender_net : Sender netTransmitter 1
    (fun (chain : DescriptorChain) (mem : M) frame => frameOf chain mem = some frame) where
  drains := drains_netTx
  mem_serve := VirtioNetDevice.mem_serveTx
  out_of_holds := out_of_frameOf

theorem readAll_agree {S : Set ℕ} {m m' : M} (h : Agree S m m') {ds : List Descriptor}
    (hds : ∀ d ∈ readable ds, ∀ x, d.gpa.toNat ≤ x → x < d.gpa.toNat + d.len.toNat → x ∉ S) :
    readAll m' ds = readAll m ds := by
  rw [readAll_eq, readAll_eq, h.mapped_eq]
  have hbytes : ((readable ds).map fun d => bytes m' d.gpa.toNat d.len.toNat) =
      (readable ds).map fun d => bytes m d.gpa.toNat d.len.toNat :=
    List.map_congr_left fun d hd => h.bytes_eq (hds d hd)
  rw [hbytes]

/-- A frame clear of the rings is posted. -/
theorem posted_frame {q : VirtQueue} {mem : M} {head : UInt16} {frame : List UInt8}
    (hclear : ClearOf q.rings (DescriptorChain.start q.descGpa q.size head) mem)
    (h : frameOf (DescriptorChain.start q.descGpa q.size head) mem = some frame) :
    Posted (fun chain (mem : M) frame => frameOf chain mem = some frame) q mem (head, frame) := by
  intro mem' hag
  dsimp only
  rw [frameOf, hclear.descriptors hag, readAll_agree hag hclear.buffers]
  exact h

/-- **The frames of the guest.**  Whatever state the transport of a network device is in, once a
driver has brought up the transmit queue, empty, every run has sent the host the frames posted
first, each once, whole and in order; at most as many as the queue has entries wait; and the next
notification sends them all. -/
theorem frames_end_to_end (fuel : ℕ) (t : VirtioMmioTransport VirtioNetDevice M)
    (hconn : t.device.txConnected = true) (hqueues : 1 < t.queues.length) (features : UInt64)
    (q : VirtQueue) (hq : q.RingsOk t.mem) (hzero : q.lastAvailIdx = 0)
    (hempty : q.availIdx t.mem = 0) :
    ∃ t₀, writeRegs fuel t (bringUp 1 q.size features q.descGpa q.availGpa q.usedGpa) = some t₀ ∧
      ∀ w : SendWorld VirtioNetDevice M (List UInt8),
        ReflTransGen (SendStep netTransmitter (fun chain mem frame => frameOf chain mem = some frame)
          1 fuel) { driver := { transport := t₀ } } w →
        w.driver.transport.device.txSent =
          t.device.txSent ++ (w.posted.take w.driver.turns.length).map Prod.snd ∧
        w.posted.length ≤ w.driver.turns.length + q.size.toNat ∧
        ∀ value n, value.toUInt16 = 1 → q.size.toNat < n →
          ∃ t', w.driver.transport.writeReg n 0x050 value =
              some (some w.driver.transport.irqVector, t') ∧
            t'.device.txSent = t.device.txSent ++ w.posted.map Prod.snd :=
  sends_after_bringUp sender_net fuel t hconn hqueues features q hq hzero hempty

/-- A queue of four entries: table at 0, available ring at 1024, used ring at 2048. -/
def sendQueue : VirtQueue where
  size := 4
  descGpa := 0
  availGpa := 1024
  usedGpa := 2048
  lastAvailIdx := 0
  ready := true
  size_pos := VirtQueue.four_pos
  size_le := VirtQueue.four_le

/-- A chain of one buffer at 512: the header and a frame of four bytes. -/
def frameMemory : Vmm.MappedMemory :=
  Vmm.MappedMemory.ram 4096 Vmm.MappedMemory.page_pos (Vmm.MappedMemory.image [
    (0, [0, 2, 0, 0, 0, 0, 0, 0, 16, 0, 0, 0, 0, 0, 0, 0]), (524, [1, 2, 3, 4])])

/-- Its transport. -/
def netTransport : VirtioMmioTransport VirtioNetDevice Vmm.MappedMemory :=
  VirtioMmioTransport.new { mac := [2, 0, 0, 0, 0, 1] } frameMemory 6

theorem ringsOk_sendQueue : sendQueue.RingsOk frameMemory where
  ready := rfl
  pow_two := ⟨2, by decide, rfl⟩
  avail_mapped := by decide +kernel
  used_mapped := by decide +kernel
  disjoint := by
    refine Set.disjoint_left.2 fun x hx hx' => ?_
    have h₁ : x < 1036 := hx.2
    have h₂ : 2048 ≤ x := hx'.1
    omega

/-- The chain is clear of the rings, and it holds the frame. -/
theorem posted_frameMemory : Posted (fun chain (mem : Vmm.MappedMemory) frame =>
    frameOf chain mem = some frame) sendQueue frameMemory (0, [1, 2, 3, 4]) := by
  have hds : (DescriptorChain.start 0 4 0).descriptors frameMemory = [⟨512, 16, false⟩] := by
    decide +kernel
  have hrings : ∀ x ∈ sendQueue.rings, 1024 ≤ x := by
    rintro x (hx | hx)
    · exact hx.1
    · have h₁ : 2048 ≤ x := hx.1
      omega
  refine posted_frame ⟨fun x hx hmem => ?_, fun d hd x h₁ h₂ hmem => ?_⟩ (by decide +kernel)
  · have h₁ : x < 64 := hx.2
    have h₂ := hrings x hmem
    omega
  · have hd' : d ∈ readable [⟨512, 16, false⟩] := hds ▸ hd
    obtain rfl := List.mem_singleton.1 hd'
    have h₃ : x < 528 := h₂
    have h₄ := hrings x hmem
    omega

/-- The frame is sent. -/
theorem frames_end_to_end_four_bytes : ∃ t₀ m' t',
    writeRegs 8 netTransport (bringUp 1 4 0 0 1024 2048) = some t₀ ∧
      sendQueue.publish t₀.mem 0 = some m' ∧
      { t₀ with mem := m' }.writeReg 8 0x050 1 = some (some t₀.irqVector, t') ∧
      t'.device.txSent = [[1, 2, 3, 4]] := by
  obtain ⟨t₀, hup, hrun⟩ := frames_end_to_end 8 netTransport rfl (by decide) 0 sendQueue
    ringsOk_sendQueue rfl (by decide +kernel)
  obtain ⟨t₁, qs, hup', hqs, hqueue, -, hmem, -⟩ := writeRegs_bringUp 8 netTransport 0 0 1024
    2048 (show (1 : UInt16).toNat < _ from by decide) sendQueue.size_pos sendQueue.size_le
  obtain rfl : t₀ = t₁ := Option.some.inj (hup.symm.trans hup')
  have hq : qs.queue = sendQueue := hqueue
  have hmem' : t₀.mem = frameMemory := hmem
  obtain ⟨m', hm'⟩ := Option.isSome_iff_exists.1
    (by decide +kernel : (sendQueue.publish frameMemory 0).isSome)
  rw [← hmem'] at hm'
  have hposted := posted_frameMemory
  rw [← hmem', ← hq] at hposted
  have hstep : SendStep netTransmitter (fun chain mem frame => frameOf chain mem = some frame) 1 8
      { driver := { transport := t₀ } } _ :=
    SendStep.post 0 [1, 2, 3, 4] hqs (by rw [hq]; exact sendQueue.size_pos) hposted
      (by rw [hq]; exact hm')
  obtain ⟨-, -, hsend⟩ := hrun _ (ReflTransGen.single hstep)
  obtain ⟨t', ht', hsent⟩ := hsend 1 8 rfl (by decide)
  exact ⟨t₀, m', t', hup, hm', ht', hsent⟩

end frames

end Hitz.Devices

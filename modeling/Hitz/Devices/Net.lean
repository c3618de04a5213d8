import Hitz.Devices.Drain

/-!
# The virtio network device (`hitz-devices/src/virtio/net.rs`)

Queue 1 carries frames out of the guest (`processTx`), queue 0 carries frames into it
(`deliverRx`).  Both ends of the channels to the I/O thread are lists: the frames sent so far, and
the frames that wait to be received.
-/

namespace Hitz.Devices

open ByteStore

/-- Size of the virtio-net header prepended to every frame. -/
def virtioNetHdrSize : ℕ := 12

/-- The most bytes a transmitted chain may gather. -/
def maxGather : ℕ := 65536

/-- A network device. -/
structure VirtioNetDevice where
  mac : List UInt8
  txSent : List (List UInt8) := []
  txConnected : Bool := true
  rxChannel : List (List UInt8) := []
  rxPending : List (List UInt8) := []

variable {M : Type} [ByteStore M]

/-- Append a readable buffer to the bytes gathered so far; a buffer that cannot be read adds
nothing. -/
def gather (data : List UInt8) (mem : M) (d : Descriptor) : List UInt8 :=
  match read mem d.gpa.toNat d.len.toNat with
  | some buf => data ++ buf
  | none => data

namespace VirtioNetDevice

/-- The body of the transmit walk: collect the device-readable buffers. -/
def txBody (frame : List UInt8) (mem : M) (d : Descriptor) : List UInt8 × M × Bool :=
  if d.isDeviceWritable then (frame, mem, true)
  else if maxGather < frame.length + d.len.toNat then (frame, mem, false)
  else (gather frame mem d, mem, true)

/-- One transmitted chain: strip the header and send the frame. -/
def serveTx (dev : VirtioNetDevice) (chain : DescriptorChain) (mem : M) :
    Served VirtioNetDevice M :=
  let (chain, frame, mem) := walkChain txBody chain [] mem
  let dev :=
    if virtioNetHdrSize < frame.length ∧ dev.txConnected then
      { dev with txSent := dev.txSent ++ [frame.drop virtioNetHdrSize] }
    else dev
  { dev, chain, mem, written := 0 }

/-- `process_tx`; `none` when the loop has not ended after `fuel` turns. -/
def processTx (fuel : ℕ) (dev : VirtioNetDevice) (queue : VirtQueue) (mem : M) :
    Option (LoopState VirtioNetDevice M) :=
  drain serveTx fuel { dev, queue, mem }

/-- The body of the receive walk: the accumulator is `total_written` and the payload offset. -/
def rxBody (payload : List UInt8) (acc : UInt32 × ℕ) (mem : M) (d : Descriptor) :
    (UInt32 × ℕ) × M × Bool :=
  if d.isDeviceWritable ∧ acc.2 < payload.length then
    let toWrite := min (payload.length - acc.2) d.len.toNat
    match write mem d.gpa.toNat ((payload.drop acc.2).take toWrite) with
    | some mem => ((acc.1 + UInt32.ofNat toWrite, acc.2 + toWrite), mem, true)
    | none => (acc, mem, true)
  else (acc, mem, true)

/-- Deliver one pending frame to the receive queue; was one delivered? -/
def deliverRx (dev : VirtioNetDevice) (queue : VirtQueue) (mem : M) :
    Bool × LoopState VirtioNetDevice M :=
  match dev.rxPending with
  | [] => (false, { dev, queue, mem })
  | rawFrame :: rest =>
    match queue.popChain mem with
    | none => (false, { dev, queue, mem })
    | some (chain, queue) =>
      let payload := List.replicate virtioNetHdrSize 0 ++ rawFrame
      let (chain', (totalWritten, _), mem) := walkChain (rxBody payload) chain (0, 0) mem
      let mem := queue.pushUsed mem chain.headIdx totalWritten
      if 0 < totalWritten then
        (true, { dev := { dev with rxPending := rest }, queue, mem, popped := [chain'] })
      else (false, { dev, queue, mem, popped := [chain'] })

/-- `process_queue`: 1 is the transmit queue, 0 the receive queue. -/
def processQueue (fuel : ℕ) (dev : VirtioNetDevice) (queueIdx : UInt16) (queue : VirtQueue)
    (mem : M) : Option (LoopState VirtioNetDevice M) :=
  if queueIdx = 1 then dev.processTx fuel queue mem
  else if queueIdx = 0 then some (dev.deliverRx queue mem).2
  else some { dev, queue, mem }

/-- `poll_rx`: drain the channel, then try to deliver one frame. -/
def pollRx (dev : VirtioNetDevice) (queue : VirtQueue) (mem : M) :
    Bool × LoopState VirtioNetDevice M :=
  deliverRx { dev with rxChannel := [], rxPending := dev.rxPending ++ dev.rxChannel } queue mem

/-! ### What the device touches -/

theorem mem_txBody (frame : List UInt8) (mem : M) (d : Descriptor) :
    (txBody frame mem d).2.1 = mem := by
  unfold txBody
  split_ifs <;> rfl

/-- Transmitting only reads guest memory. -/
theorem mem_serveTx (dev : VirtioNetDevice) (chain : DescriptorChain) (mem : M) :
    (dev.serveTx chain mem).mem = mem := by
  show (walk txBody (chain.queueSize.toNat + 1) chain [] mem).2.2 = mem
  rw [walk_of_readOnly mem_txBody]

/-- Whatever the body writes stays inside the descriptor it was given. -/
theorem agree_rxBody (payload : List UInt8) (acc : UInt32 × ℕ) (m : M) (d : Descriptor) :
    Agree d.writable m (rxBody payload acc m d).2.1 := by
  unfold rxBody
  split_ifs with hd
  · dsimp only
    cases hw : write m d.gpa.toNat ((payload.drop acc.2).take
        (min (payload.length - acc.2) d.len.toNat)) with
    | none => exact Agree.refl _ _
    | some m' =>
      refine (agree_write hw).mono fun x hx => ?_
      have h₁ := hx.1
      have h₂ := hx.2
      rw [List.length_take, List.length_drop] at h₂
      rw [Descriptor.writable, if_pos hd.1]
      exact ⟨h₁, by omega⟩
  · exact Agree.refl _ _

/-- A receive walk touches only the device-writable buffers of its chain. -/
theorem agree_rxWalk (payload : List UInt8) (chain : DescriptorChain) (acc : UInt32 × ℕ) (mem : M) :
    Agree (writableRanges [(walkChain (rxBody payload) chain acc mem).1]) mem
      (walkChain (rxBody payload) chain acc mem).2.2 := by
  refine walk_invariant (I := fun c _ m => Agree (writableRanges [c]) mem m) ?_ ?_
    (chain.queueSize.toNat + 1) chain acc mem (Agree.refl _ _)
  · intro c a m h hn
    have hseen := c.nextDescriptor_seen m
    rw [hn, Option.toList_none, List.append_nil] at hseen
    refine h.mono ?_
    rintro x ⟨c', hc', d, hd, hx⟩
    obtain rfl := List.mem_singleton.1 hc'
    exact ⟨_, List.mem_singleton_self _, d, by rw [hseen]; exact hd, hx⟩
  · intro c a m d h hn
    have hseen := c.nextDescriptor_seen m
    rw [hn, Option.toList_some] at hseen
    refine (h.mono ?_).trans ((agree_rxBody payload a m d).mono ?_)
    · rintro x ⟨c', hc', d', hd', hx⟩
      obtain rfl := List.mem_singleton.1 hc'
      exact ⟨_, List.mem_singleton_self _, d', by rw [hseen]; exact List.mem_append_left _ hd', hx⟩
    · intro x hx
      exact ⟨_, List.mem_singleton_self _, d, by rw [hseen]; simp, hx⟩

/-- Delivering a frame touches the used ring and the buffers of the chain it popped. -/
theorem agree_deliverRx (dev : VirtioNetDevice) (queue : VirtQueue) (mem : M) :
    Agree (queue.usedRing ∪ writableRanges (dev.deliverRx queue mem).2.popped) mem
      (dev.deliverRx queue mem).2.mem := by
  unfold deliverRx
  cases dev.rxPending with
  | nil => exact Agree.refl _ _
  | cons rawFrame rest =>
    cases hpop : queue.popChain mem with
    | none => exact Agree.refl _ _
    | some p =>
      obtain ⟨chain, queue'⟩ := p
      obtain ⟨_, _, -, -, -, -, -, rfl⟩ := VirtQueue.popChain_eq_some hpop
      have hwalk := agree_rxWalk (List.replicate virtioNetHdrSize 0 ++ rawFrame) chain (0, 0) mem
      have hpush := fun n => (hwalk.mono (Set.subset_union_right (s := queue.usedRing))).trans
        ((queue.agree_pushUsed _ chain.headIdx n).mono Set.subset_union_left)
      dsimp only
      split_ifs
      · exact hpush _
      · exact hpush _

end VirtioNetDevice

end Hitz.Devices

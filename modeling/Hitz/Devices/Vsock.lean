import Hitz.Devices.Net

/-!
# The virtio socket device (`hitz-devices/src/virtio/vsock.rs`)

Queue 1 carries packets out of the guest (`processTx`), queue 2 is answered with empty buffers
(`processEvent`), and `pollRx` injects pending packets into queue 0.
-/

namespace Hitz.Devices

open ByteStore Bytes

/-- Size of the packet header in bytes. -/
def vsockHdrSize : ℕ := 44

/-- The only socket type there is. -/
def vsockTypeStream : UInt16 := 1

/-- The receive buffer advertised for a connection. -/
def vsockBufAlloc : UInt32 := 256 * 1024

/-- Packet operations. -/
inductive VsockOp
  | request
  | response
  | rst
  | shutdown
  | rw
  | creditUpdate
  | creditRequest
  deriving DecidableEq, Repr

namespace VsockOp

/-- `op as u16`. -/
def toU16 : VsockOp → UInt16
  | .request => 1
  | .response => 2
  | .rst => 3
  | .shutdown => 4
  | .rw => 5
  | .creditUpdate => 6
  | .creditRequest => 7

/-- `from_u16`. -/
def fromU16 (v : UInt16) : Option VsockOp :=
  if v = 1 then some .request
  else if v = 2 then some .response
  else if v = 3 then some .rst
  else if v = 4 then some .shutdown
  else if v = 5 then some .rw
  else if v = 6 then some .creditUpdate
  else if v = 7 then some .creditRequest
  else none

@[simp] theorem fromU16_toU16 (op : VsockOp) : fromU16 op.toU16 = some op := by
  cases op <;> rfl

theorem fromU16_eq_some {v : UInt16} {op : VsockOp} (h : fromU16 v = some op) : v = op.toU16 := by
  unfold fromU16 at h
  split_ifs at h with h₁ h₂ h₃ h₄ h₅ h₆ h₇
  all_goals
    cases h
    assumption

end VsockOp

/-- The packet header. -/
structure VsockHdr where
  srcCid : UInt64
  dstCid : UInt64
  srcPort : UInt32
  dstPort : UInt32
  len : UInt32
  type : UInt16
  op : UInt16
  flags : UInt32
  bufAlloc : UInt32
  fwdCnt : UInt32
  deriving DecidableEq, Repr

namespace VsockHdr

/-- Serialize the header to 44 little-endian bytes. -/
def toBytes (h : VsockHdr) : List UInt8 :=
  leBytes 8 h.srcCid.toNat ++ leBytes 8 h.dstCid.toNat ++ leBytes 4 h.srcPort.toNat ++
    leBytes 4 h.dstPort.toNat ++ leBytes 4 h.len.toNat ++ leBytes 2 h.type.toNat ++
    leBytes 2 h.op.toNat ++ leBytes 4 h.flags.toNat ++ leBytes 4 h.bufAlloc.toNat ++
    leBytes 4 h.fwdCnt.toNat

/-- The little-endian number in `bytes[a .. a + w]`. -/
def field (bytes : List UInt8) (a w : ℕ) : ℕ := leNat ((bytes.drop a).take w)

/-- Deserialize the header. -/
def fromBytes (bytes : List UInt8) : Option VsockHdr :=
  if bytes.length < vsockHdrSize then none
  else some {
    srcCid := UInt64.ofNat (field bytes 0 8)
    dstCid := UInt64.ofNat (field bytes 8 8)
    srcPort := UInt32.ofNat (field bytes 16 4)
    dstPort := UInt32.ofNat (field bytes 20 4)
    len := UInt32.ofNat (field bytes 24 4)
    type := UInt16.ofNat (field bytes 28 2)
    op := UInt16.ofNat (field bytes 30 2)
    flags := UInt32.ofNat (field bytes 32 4)
    bufAlloc := UInt32.ofNat (field bytes 36 4)
    fwdCnt := UInt32.ofNat (field bytes 40 4) }

/-- Build a response header. -/
def makeResponse (h : VsockHdr) (op : VsockOp) (payloadLen : UInt32) : VsockHdr where
  srcCid := h.dstCid
  dstCid := h.srcCid
  srcPort := h.dstPort
  dstPort := h.srcPort
  len := payloadLen
  type := vsockTypeStream
  op := op.toU16
  flags := 0
  bufAlloc := vsockBufAlloc
  fwdCnt := 0

theorem length_toBytes (h : VsockHdr) : h.toBytes.length = vsockHdrSize := by
  simp only [toBytes, List.length_append, length_leBytes, vsockHdrSize]

end VsockHdr

/-- A packet: header and payload. -/
abbrev VsockPacket := VsockHdr × List UInt8

/-- A socket device. -/
structure VirtioVsockDevice where
  guestCid : UInt64
  txSent : List VsockPacket := []
  txConnected : Bool := true
  rxChannel : List VsockPacket := []
  rxPending : List VsockPacket := []

namespace VirtioVsockDevice

variable {M : Type} [ByteStore M]

/-- The body of the transmit walk; a device-writable buffer ends the packet. -/
def txBody (raw : List UInt8) (mem : M) (d : Descriptor) : List UInt8 × M × Bool :=
  if d.isDeviceWritable then (raw, mem, false)
  else if maxGather < raw.length + d.len.toNat then (raw, mem, false)
  else (gather raw mem d, mem, true)

/-- The packet in the bytes of a transmitted chain.  A payload shorter than the header says is
replaced by the empty one. -/
def decodePacket (raw : List UInt8) : Option VsockPacket :=
  (VsockHdr.fromBytes raw).map fun hdr =>
    (hdr, if vsockHdrSize + hdr.len.toNat ≤ raw.length then
      (raw.drop vsockHdrSize).take hdr.len.toNat else [])

/-- One transmitted chain: decode the packet and send it to the host. -/
def serveTx (dev : VirtioVsockDevice) (chain : DescriptorChain) (mem : M) :
    Served VirtioVsockDevice M :=
  let (chain, raw, mem) := walkChain txBody chain [] mem
  let dev :=
    match decodePacket raw with
    | some packet => if dev.txConnected then { dev with txSent := dev.txSent ++ [packet] } else dev
    | none => dev
  { dev, chain, mem, written := 0 }

/-- `process_tx`; `none` when the loop has not ended after `fuel` turns. -/
def processTx (fuel : ℕ) (dev : VirtioVsockDevice) (queue : VirtQueue) (mem : M) :
    Option (LoopState VirtioVsockDevice M) :=
  drain serveTx fuel { dev, queue, mem }

/-- An event chain is returned unused. -/
def serveEvent (dev : VirtioVsockDevice) (chain : DescriptorChain) (mem : M) :
    Served VirtioVsockDevice M :=
  { dev, chain, mem, written := 0 }

/-- `process_event`. -/
def processEvent (fuel : ℕ) (dev : VirtioVsockDevice) (queue : VirtQueue) (mem : M) :
    Option (LoopState VirtioVsockDevice M) :=
  drain serveEvent fuel { dev, queue, mem }

/-- `process_queue`. -/
def processQueue (fuel : ℕ) (dev : VirtioVsockDevice) (queueIdx : UInt16) (queue : VirtQueue)
    (mem : M) : Option (LoopState VirtioVsockDevice M) :=
  if queueIdx = 1 then dev.processTx fuel queue mem
  else if queueIdx = 2 then dev.processEvent fuel queue mem
  else some { dev, queue, mem }

/-- Write a packet through a descriptor: header, then payload.  Failed writes are ignored. -/
def writePacket (mem : M) (d : Descriptor) (packet : VsockPacket) : M :=
  let mem := put mem d.gpa.toNat packet.1.toBytes
  if packet.2.isEmpty then mem
  else
    match checkedAdd d.gpa.toNat packet.1.toBytes.length with
    | some payloadAddr => put mem payloadAddr packet.2
    | none => mem

/-- `u32::try_from(total).unwrap_or(u32::MAX)`. -/
def usedLen (packet : VsockPacket) : UInt32 :=
  UInt32.ofNat (min (packet.1.toBytes.length + packet.2.length) (2 ^ 32 - 1))

/-- The loop of `poll_rx` over the pending packets: did it inject one? -/
def injectRx : List VsockPacket → LoopState VirtioVsockDevice M →
    Bool × LoopState VirtioVsockDevice M
  | [], s => (false, { s with dev := { s.dev with rxPending := [] } })
  | packet :: rest, s =>
    let back := { s.dev with rxPending := packet :: rest }
    match s.queue.popChain s.mem with
    | none => (false, { s with dev := back })
    | some (chain, queue) =>
      match chain.nextDescriptor s.mem with
      | (none, chain') =>
        (false, { dev := back, queue, mem := queue.pushUsed s.mem chain.headIdx 0
                  popped := s.popped ++ [chain'] })
      | (some d, chain') =>
        if d.isDeviceWritable then
          let mem := queue.pushUsed (writePacket s.mem d packet) chain.headIdx (usedLen packet)
          (true, (injectRx rest { s with queue, mem, popped := s.popped ++ [chain'] }).2)
        else
          (false, { dev := back, queue, mem := queue.pushUsed s.mem chain.headIdx 0
                    popped := s.popped ++ [chain'] })

/-- `poll_rx`: drain the channel, then inject pending packets while there are buffers. -/
def pollRx (dev : VirtioVsockDevice) (queue : VirtQueue) (mem : M) :
    Bool × LoopState VirtioVsockDevice M :=
  injectRx (dev.rxPending ++ dev.rxChannel) { dev := { dev with rxChannel := [] }, queue, mem }

/-! ### What the device touches -/

theorem mem_txBody (raw : List UInt8) (mem : M) (d : Descriptor) :
    (txBody raw mem d).2.1 = mem := by
  unfold txBody
  split_ifs <;> rfl

/-- Transmitting only reads guest memory. -/
theorem mem_serveTx (dev : VirtioVsockDevice) (chain : DescriptorChain) (mem : M) :
    (dev.serveTx chain mem).mem = mem := by
  show (walk txBody (chain.queueSize.toNat + 1) chain [] mem).2.2 = mem
  rw [walk_of_readOnly mem_txBody]

/-- A packet occupies the bytes from the descriptor's address on, whatever its length field
says. -/
theorem agree_writePacket (mem : M) (d : Descriptor) (packet : VsockPacket) :
    Agree (Set.Ico d.gpa.toNat (d.gpa.toNat + (vsockHdrSize + packet.2.length))) mem
      (writePacket mem d packet) := by
  have hhdr : ∀ m : M, Agree (Set.Ico d.gpa.toNat (d.gpa.toNat + (vsockHdrSize + packet.2.length)))
      m (put m d.gpa.toNat packet.1.toBytes) := by
    intro m
    refine (agree_put m _ _).mono fun x hx => ?_
    have h₂ := hx.2
    rw [packet.1.length_toBytes] at h₂
    exact ⟨hx.1, by omega⟩
  unfold writePacket
  dsimp only
  split_ifs
  · exact hhdr mem
  · split
    · rename_i a ha
      obtain ⟨-, rfl⟩ := checkedAdd_eq_some.1 ha
      refine (hhdr mem).trans ((agree_put _ _ _).mono fun x hx => ?_)
      have h₁ := hx.1
      have h₂ := hx.2
      rw [packet.1.length_toBytes] at h₁ h₂
      exact ⟨by omega, by omega⟩
    · exact hhdr mem

end VirtioVsockDevice

end Hitz.Devices

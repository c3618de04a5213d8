import Hitz.Lib.WriteLog
import Hitz.Devices.Block
import Hitz.Devices.Vsock

/-!
# The virtio MMIO transport (`hitz-devices/src/virtio/mmio_transport.rs`)

The transport translates the guest's register accesses into operations on the queues of a backend.

* `VirtioBackend`: the trait of the block, net and socket devices;
* `readReg`, `writeReg`, `mmioRead`, `mmioWrite`, `pollRx`: the transport's entry points;
* `Access`, `step`, `run`: what can happen to a transport between its construction and a state.

Most registers act on the selected queue.
-/

namespace Hitz.Devices

open ByteStore Bytes

/-! ### Backends -/

/-- A virtio device backend.  `processQueue` answers `none` when its loop has not ended after the
given fuel.  A backend moves the cursor of the queue it is given and leaves the rest of it alone. -/
class VirtioBackend (D M : Type) where
  deviceId : D → UInt32
  deviceFeatures : D → UInt64
  queueCount : D → ℕ := fun _ => 1
  processQueue : ℕ → D → UInt16 → VirtQueue → M → Option (LoopState D M)
  pollRx : D → VirtQueue → M → Bool × LoopState D M := fun dev queue mem =>
    (false, { dev, queue, mem })
  readConfig : D → ℕ → List UInt8 → List UInt8
  writeConfig : D → ℕ → List UInt8 → D
  queueCount_pos : ∀ dev, 0 < queueCount dev
  queue_processQueue : ∀ {fuel dev idx queue mem s}, processQueue fuel dev idx queue mem = some s →
    s.queue = { queue with lastAvailIdx := s.queue.lastAvailIdx }
  queue_pollRx : ∀ dev queue mem, (pollRx dev queue mem).2.queue =
    { queue with lastAvailIdx := (pollRx dev queue mem).2.queue.lastAvailIdx }

/-- Copy the bytes of a config space that starts at `0` into a buffer; what is past its end leaves
the buffer as it was. -/
def copyConfig (config : List UInt8) (offset : ℕ) (data : List UInt8) : List UInt8 :=
  overwrite data 0 ((config.drop offset).take data.length)

section backends

variable {M : Type} [ByteStore M]

/-- Only the cursor moves when a chain is popped. -/
theorem VirtQueue.queue_popChain {q q' : VirtQueue} {mem : M} {chain : DescriptorChain}
    (h : q.popChain mem = some (chain, q')) : q' = { q with lastAvailIdx := q'.lastAvailIdx } := by
  obtain ⟨_, _, -, -, -, -, -, rfl⟩ := popChain_eq_some h
  rfl

theorem queue_turns {σ : Type} {serve : σ → DescriptorChain → M → Served σ M}
    (n : ℕ) (s : LoopState σ M) : (turns serve n s).queue =
      { s.queue with lastAvailIdx := (turns serve n s).queue.lastAvailIdx } := by
  refine turns_invariant (I := fun t => t.queue =
    { s.queue with lastAvailIdx := t.queue.lastAvailIdx }) rfl ?_ n
  intro k t ht hd
  obtain ⟨chain, queue, hpop, rfl⟩ := drainStep_eq_some hd
  have hq := VirtQueue.queue_popChain hpop
  rw [ht] at hq
  exact hq

/-- Emptying a queue moves its cursor only. -/
theorem queue_drain {σ : Type} {serve : σ → DescriptorChain → M → Served σ M} {fuel : ℕ}
    {s s' : LoopState σ M} (h : drain serve fuel s = some s') :
    s'.queue = { s.queue with lastAvailIdx := s'.queue.lastAvailIdx } := by
  cases fuel with
  | zero => cases h
  | succ fuel =>
    obtain ⟨rfl, -⟩ := drain_eq_some_iff.1 h
    exact queue_turns fuel s

theorem VirtioNetDevice.queue_deliverRx (dev : VirtioNetDevice) (queue : VirtQueue) (mem : M) :
    (dev.deliverRx queue mem).2.queue =
      { queue with lastAvailIdx := (dev.deliverRx queue mem).2.queue.lastAvailIdx } := by
  unfold deliverRx
  cases dev.rxPending with
  | nil => rfl
  | cons rawFrame rest =>
    cases hpop : queue.popChain mem with
    | none => rfl
    | some p =>
      have hq := VirtQueue.queue_popChain hpop
      dsimp only
      split_ifs
      · exact hq
      · exact hq

theorem VirtioVsockDevice.queue_injectRx (packets : List VsockPacket) :
    ∀ s : LoopState VirtioVsockDevice M, (injectRx packets s).2.queue =
      { s.queue with lastAvailIdx := (injectRx packets s).2.queue.lastAvailIdx } := by
  induction packets with
  | nil => exact fun s => rfl
  | cons packet rest ih =>
    intro s
    unfold injectRx
    dsimp only
    cases hpop : s.queue.popChain s.mem with
    | none => rfl
    | some p =>
      obtain ⟨chain, queue⟩ := p
      have hq : queue = _ := VirtQueue.queue_popChain hpop
      dsimp only
      split
      · exact hq
      · split_ifs
        · dsimp only
          rw [ih]
          rw [hq]
        · exact hq

/-- The block device: one queue, and the capacity in its config space. -/
instance : VirtioBackend VirtioBlockDevice M where
  deviceId _ := 2
  deviceFeatures _ := 0
  processQueue fuel dev _ queue mem := dev.processQueue fuel queue mem
  readConfig dev offset data := copyConfig (leBytes 8 dev.capacity.toNat) offset data
  writeConfig dev _ _ := dev
  queueCount_pos _ := Nat.one_pos
  queue_processQueue h := queue_drain h
  queue_pollRx _ _ _ := rfl

/-- The network device: a receive and a transmit queue, and its MAC address. -/
instance : VirtioBackend VirtioNetDevice M where
  deviceId _ := 1
  deviceFeatures _ := (1 : UInt64) <<< 5
  queueCount _ := 2
  processQueue fuel dev idx queue mem := dev.processQueue fuel idx queue mem
  pollRx dev queue mem := dev.pollRx queue mem
  readConfig dev offset data := copyConfig (dev.mac.take 6) offset data
  writeConfig dev _ _ := dev
  queueCount_pos _ := Nat.two_pos
  queue_processQueue {fuel dev idx queue mem s} h := by
    unfold VirtioNetDevice.processQueue at h
    split_ifs at h
    · exact queue_drain h
    · cases h
      exact dev.queue_deliverRx queue mem
    · cases h
      rfl
  queue_pollRx dev queue mem := VirtioNetDevice.queue_deliverRx _ queue mem

/-- The socket device: receive, transmit and event queues, and the guest's CID. -/
instance : VirtioBackend VirtioVsockDevice M where
  deviceId _ := 19
  deviceFeatures _ := 0
  queueCount _ := 3
  processQueue fuel dev idx queue mem := dev.processQueue fuel idx queue mem
  pollRx dev queue mem := dev.pollRx queue mem
  readConfig dev offset data := copyConfig (leBytes 8 dev.guestCid.toNat) offset data
  writeConfig dev _ _ := dev
  queueCount_pos _ := Nat.succ_pos 2
  queue_processQueue {fuel dev idx queue mem s} h := by
    unfold VirtioVsockDevice.processQueue at h
    split_ifs at h
    · exact queue_drain h
    · exact queue_drain h
    · cases h
      rfl
  queue_pollRx dev queue mem := VirtioVsockDevice.queue_injectRx _ _

end backends

/-! ### The register file -/

/-- The registers, in the order of their offsets. -/
inductive Reg where
  | magic | version | deviceId | vendorId | deviceFeatures | deviceFeaturesSel | driverFeatures
  | driverFeaturesSel | queueSel | queueNumMax | queueNum | queueReady | queueNotify
  | interruptStatus | interruptAck | status | queueDescLow | queueDescHigh | queueAvailLow
  | queueAvailHigh | queueUsedLow | queueUsedHigh | configGeneration
  deriving DecidableEq, Repr

/-- The register at an offset. -/
def Reg.ofOffset : UInt64 → Option Reg
  | 0x000 => some .magic
  | 0x004 => some .version
  | 0x008 => some .deviceId
  | 0x00C => some .vendorId
  | 0x010 => some .deviceFeatures
  | 0x014 => some .deviceFeaturesSel
  | 0x020 => some .driverFeatures
  | 0x024 => some .driverFeaturesSel
  | 0x030 => some .queueSel
  | 0x034 => some .queueNumMax
  | 0x038 => some .queueNum
  | 0x044 => some .queueReady
  | 0x050 => some .queueNotify
  | 0x060 => some .interruptStatus
  | 0x064 => some .interruptAck
  | 0x070 => some .status
  | 0x080 => some .queueDescLow
  | 0x084 => some .queueDescHigh
  | 0x090 => some .queueAvailLow
  | 0x094 => some .queueAvailHigh
  | 0x0A0 => some .queueUsedLow
  | 0x0A4 => some .queueUsedHigh
  | 0x0FC => some .configGeneration
  | _ => none

/-- Start of the device's config space. -/
def mmioConfigStart : UInt64 := 0x100

/-- The magic value that identifies a virtio-MMIO device ("virt"). -/
def virtioMmioMagic : UInt32 := 0x74726976

/-- The version of the transport. -/
def virtioMmioVersion : UInt32 := 2

/-- The vendor ("QEMU"). -/
def virtioVendorId : UInt32 := 0x554D4551

/-- Maximum queue size. -/
def queueNumMax : UInt16 := 256

/-- What the transport keeps for a queue. -/
structure QueueState where
  queue : VirtQueue
  descLow : UInt32
  descHigh : UInt32
  availLow : UInt32
  availHigh : UInt32
  usedLow : UInt32
  usedHigh : UInt32
  num : UInt16
  deriving DecidableEq

namespace QueueState

/-- A queue at construction. -/
def new : QueueState where
  queue := VirtQueue.new queueNumMax
  descLow := 0
  descHigh := 0
  availLow := 0
  availHigh := 0
  usedLow := 0
  usedHigh := 0
  num := queueNumMax

/-- A queue after a reset. -/
def reset (qs : QueueState) : QueueState where
  queue := qs.queue.reset
  descLow := 0
  descHigh := 0
  availLow := 0
  availHigh := 0
  usedLow := 0
  usedHigh := 0
  num := queueNumMax

/-- `u64::from(low) | (u64::from(high) << 32)`. -/
def gpa (low high : UInt32) : UInt64 := low.toUInt64 ||| (high.toUInt64 <<< 32)

/-- A write to `QUEUE_NUM`. -/
def setNum (qs : QueueState) (size : UInt16) : QueueState :=
  { qs with num := size, queue := qs.queue.setSize size }

/-- A write to `QUEUE_READY`: the ring addresses are latched when the queue is made ready. -/
def setReady (qs : QueueState) (ready : Bool) : QueueState :=
  let queue :=
    if ready then
      qs.queue.configure (gpa qs.descLow qs.descHigh) (gpa qs.availLow qs.availHigh)
        (gpa qs.usedLow qs.usedHigh)
    else qs.queue
  { qs with queue := queue.setReady ready }

end QueueState

/-- The transport over a backend. -/
structure VirtioMmioTransport (D M : Type) where
  device : D
  queues : List QueueState
  queueSel : ℕ
  mem : M
  status : UInt8
  interruptStatus : UInt32
  irqVector : UInt8
  deviceFeaturesSel : UInt32
  driverFeatures : UInt64
  driverFeaturesSel : UInt32
  configGeneration : UInt32

namespace VirtioMmioTransport

variable {D M : Type} [VirtioBackend D M]

/-- A new transport, with one queue state for each queue of the backend. -/
def new (device : D) (mem : M) (irqVector : UInt8) : VirtioMmioTransport D M where
  device
  queues := List.replicate (VirtioBackend.queueCount M device) QueueState.new
  queueSel := 0
  mem
  status := 0
  interruptStatus := 0
  irqVector
  deviceFeaturesSel := 0
  driverFeatures := 0
  driverFeaturesSel := 0
  configGeneration := 0

/-- Reset the transport to its initial state. -/
def reset (t : VirtioMmioTransport D M) : VirtioMmioTransport D M :=
  { t with
    status := 0, interruptStatus := 0, driverFeatures := 0, driverFeaturesSel := 0
    deviceFeaturesSel := 0, queueSel := 0, queues := t.queues.map QueueState.reset }

/-- Read a register. -/
def readReg (t : VirtioMmioTransport D M) (offset : UInt64) : UInt32 :=
  match Reg.ofOffset offset with
  | some .magic => virtioMmioMagic
  | some .version => virtioMmioVersion
  | some .deviceId => VirtioBackend.deviceId M t.device
  | some .vendorId => virtioVendorId
  | some .deviceFeatures =>
    let features := VirtioBackend.deviceFeatures M t.device
    if t.deviceFeaturesSel = 0 then features.toUInt32 else (features >>> 32).toUInt32
  | some .queueNumMax => queueNumMax.toUInt32
  | some .queueReady =>
    match t.queues[t.queueSel]? with
    | some qs => if qs.queue.ready then 1 else 0
    | none => 0
  | some .interruptStatus => t.interruptStatus
  | some .status => t.status.toUInt32
  | some .configGeneration => t.configGeneration
  | _ => 0

/-- Change the selected queue, if it exists. -/
def modifySelected (t : VirtioMmioTransport D M) (f : QueueState → QueueState) :
    VirtioMmioTransport D M :=
  { t with queues := t.queues.modify t.queueSel f }

/-- A notification: the backend serves the queue, then the interrupt is raised. -/
def notify (fuel : ℕ) (t : VirtioMmioTransport D M) (queueIdx : UInt16) :
    Option (Option UInt8 × VirtioMmioTransport D M) :=
  match t.queues[queueIdx.toNat]? with
  | none => some (none, t)
  | some qs =>
    (VirtioBackend.processQueue fuel t.device queueIdx qs.queue t.mem).map fun s =>
      (some t.irqVector,
        { t with
          device := s.dev, mem := s.mem
          queues := t.queues.set queueIdx.toNat { qs with queue := s.queue }
          interruptStatus := t.interruptStatus ||| 1 })

/-- Write a register; answers the interrupt to raise.  `none` when the notified backend has not
returned. -/
def writeReg (fuel : ℕ) (t : VirtioMmioTransport D M) (offset : UInt64) (value : UInt32) :
    Option (Option UInt8 × VirtioMmioTransport D M) :=
  match Reg.ofOffset offset with
  | some .deviceFeaturesSel => some (none, { t with deviceFeaturesSel := value })
  | some .driverFeatures =>
    let driverFeatures : UInt64 :=
      if t.driverFeaturesSel = 0 then
        (t.driverFeatures &&& (0xFFFFFFFF00000000 : UInt64)) ||| value.toUInt64
      else (t.driverFeatures &&& (0x00000000FFFFFFFF : UInt64)) ||| (value.toUInt64 <<< 32)
    some (none, { t with driverFeatures })
  | some .driverFeaturesSel => some (none, { t with driverFeaturesSel := value })
  | some .queueSel =>
    if value.toNat < t.queues.length then some (none, { t with queueSel := value.toNat })
    else some (none, t)
  | some .queueNum => some (none, t.modifySelected (·.setNum value.toUInt16))
  | some .queueReady => some (none, t.modifySelected (·.setReady (value != 0)))
  | some .queueNotify => t.notify fuel value.toUInt16
  | some .interruptAck =>
    some (none, { t with interruptStatus := t.interruptStatus &&& ~~~value })
  | some .status =>
    if value.toUInt8 = 0 then some (none, t.reset)
    else some (none, { t with status := value.toUInt8 })
  | some .queueDescLow => some (none, t.modifySelected ({ · with descLow := value }))
  | some .queueDescHigh => some (none, t.modifySelected ({ · with descHigh := value }))
  | some .queueAvailLow => some (none, t.modifySelected ({ · with availLow := value }))
  | some .queueAvailHigh => some (none, t.modifySelected ({ · with availHigh := value }))
  | some .queueUsedLow => some (none, t.modifySelected ({ · with usedLow := value }))
  | some .queueUsedHigh => some (none, t.modifySelected ({ · with usedHigh := value }))
  | _ => some (none, t)

/-- `mmio_read` into the buffer `data`. -/
def mmioRead (t : VirtioMmioTransport D M) (offset : UInt64) (data : List UInt8) :
    List UInt8 × VirtioMmioTransport D M :=
  if mmioConfigStart ≤ offset then
    (VirtioBackend.readConfig M t.device (offset - mmioConfigStart).toNat data, t)
  else (overwrite data 0 ((leBytes 4 (t.readReg offset).toNat).take data.length), t)

/-- The value a write carries: at most four little-endian bytes. -/
def writeValue (data : List UInt8) : UInt32 := UInt32.ofNat (leNat (data.take 4))

/-- `mmio_write` of the bytes `data`. -/
def mmioWrite (fuel : ℕ) (t : VirtioMmioTransport D M) (offset : UInt64) (data : List UInt8) :
    Option (Option UInt8 × VirtioMmioTransport D M) :=
  if mmioConfigStart ≤ offset then
    some (none, { t with
      device := VirtioBackend.writeConfig M t.device (offset - mmioConfigStart).toNat data })
  else t.writeReg fuel offset (writeValue data)

/-- `poll_rx`: the receive queue is queue 0. -/
def pollRx (t : VirtioMmioTransport D M) : Option UInt8 × VirtioMmioTransport D M :=
  match t.queues with
  | [] => (none, t)
  | qs :: rest =>
    match VirtioBackend.pollRx t.device qs.queue t.mem with
    | (true, s) => (some t.irqVector,
        { t with
          device := s.dev, mem := s.mem, queues := { qs with queue := s.queue } :: rest
          interruptStatus := t.interruptStatus ||| 1 })
    | (false, s) => (none,
        { t with device := s.dev, mem := s.mem, queues := { qs with queue := s.queue } :: rest })

/-! ### Runs -/

/-- What can happen to a transport: the guest accesses a register or the config space, the run loop
polls, and everyone else (the guest's stores, the threads behind the device's channels) may change
the memory and the device. -/
inductive Access (D M : Type) where
  | read (offset : UInt64) (data : List UInt8)
  | write (offset : UInt64) (data : List UInt8)
  | poll
  | outside (device : D) (mem : M)

/-- One access. -/
def step (fuel : ℕ) (t : VirtioMmioTransport D M) :
    Access D M → Option (VirtioMmioTransport D M)
  | .read offset data => some (t.mmioRead offset data).2
  | .write offset data => (t.mmioWrite fuel offset data).map Prod.snd
  | .poll => some t.pollRx.2
  | .outside device mem => some { t with device, mem }

/-- The accesses of a trace, one after the other. -/
def run (fuel : ℕ) (t : VirtioMmioTransport D M) (trace : List (Access D M)) :
    Option (VirtioMmioTransport D M) :=
  trace.foldlM (step fuel) t

@[simp] theorem run_nil (fuel : ℕ) (t : VirtioMmioTransport D M) : t.run fuel [] = some t := rfl

theorem run_append {fuel : ℕ} {t t' : VirtioMmioTransport D M} {trace trace' : List (Access D M)} :
    t.run fuel (trace ++ trace') = some t' ↔
      ∃ s, t.run fuel trace = some s ∧ s.run fuel trace' = some t' := by
  simp [run, List.foldlM_append, Option.bind_eq_some_iff]

theorem run_concat {fuel : ℕ} {t t' : VirtioMmioTransport D M} {trace : List (Access D M)}
    {a : Access D M} : t.run fuel (trace ++ [a]) = some t' ↔
      ∃ s, t.run fuel trace = some s ∧ s.step fuel a = some t' := by
  rw [run_append]
  simp [run]

end VirtioMmioTransport

end Hitz.Devices

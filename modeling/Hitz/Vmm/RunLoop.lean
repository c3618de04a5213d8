import Hitz.Vmm.MmioDecode
import Hitz.Whp.Vcpu

/-!
# The vCPU run loop (`hitz-vmm/src/run_loop.rs`)

The loop polls the devices, runs the guest and dispatches its exit, until an exit ends it.  The
devices are any `DeviceBus`; they may answer in any way and change as they like.

`VmState` also keeps three logs that nothing reads: the accesses the devices saw, the interrupt
vectors raised and taken, and the attempts to inject one.
-/

namespace Hitz.Vmm

open Bytes Hal Whp

/-- `PIC_PORTS`: the legacy 8259 ports, which are absorbed. -/
def picPorts : List UInt16 := [0x20, 0x21, 0xA0, 0xA1]

/-- Reason the run loop terminated. -/
inductive ExitReason
  | halt
  | shutdown
  | canceled
  | unexpected (message : String)
  deriving DecidableEq, Repr

/-- The devices behind the lock: the MMIO bus and the serial console. -/
class DeviceBus (D : Type) where
  /-- `MmioBus::read` of a number of bytes. -/
  read : D → UInt64 → ℕ → List UInt8 × D
  /-- `MmioBus::write`: the vector raised, if any. -/
  write : D → UInt64 → List UInt8 → Option UInt8 × D
  /-- `MmioBus::poll_devices`. -/
  pollDevices : D → Option UInt8 × D
  /-- `SerialDevice::handles_port`. -/
  handlesPort : UInt16 → Bool
  /-- `SerialDevice::pio_write`. -/
  pioWrite : D → UInt16 → UInt8 → D
  /-- `SerialDevice::pio_read`. -/
  pioRead : D → UInt16 → UInt8 × D

/-- An access the devices saw. -/
inductive Access
  | read (gpa : UInt64) (len : ℕ)
  | write (gpa : UInt64) (data : List UInt8)
  deriving DecidableEq, Repr

/-- A vector was returned by the devices, or taken by the guest. -/
inductive IrqEvent
  | raised (vector : UInt8)
  | consumed (vector : UInt8)
  deriving DecidableEq, Repr

/-- An attempt to inject a vector, with the pending-interruption register and the deferred vector
it found. -/
structure Injection where
  vector : UInt8
  ok : Bool
  register : Option UInt8
  deferred : Option UInt8
  deriving DecidableEq, Repr

/-- The state of the loop. -/
structure VmState (D : Type) where
  vcpu : WhpVcpu
  devices : D
  pendingIrq : Option UInt8 := none
  /-- The stop flag, as the loop reads it at its `n`-th turn. -/
  stopFlag : ℕ → Bool := fun _ => false
  loops : ℕ := 0
  accesses : List Access := []
  events : List IrqEvent := []
  injections : List Injection := []

/-- A fallible action on the state; an error leaves the changes made so far. -/
def Vm (D α : Type) : Type := VmState D → Except HalError α × VmState D

namespace Vm

variable {D α β : Type}

/-- `?`: go on after success, return early with the error otherwise. -/
def bind (x : Vm D α) (f : α → Vm D β) : Vm D β := fun s =>
  match x s with
  | (.ok a, s) => f a s
  | (.error e, s) => (.error e, s)

/-- Return early with an error. -/
def throw (e : HalError) : Vm D α := fun s => (.error e, s)

instance : Monad (Vm D) where
  pure a s := (.ok a, s)
  bind := bind

@[simp] theorem pure_apply (a : α) (s : VmState D) : (pure a : Vm D α) s = (.ok a, s) := rfl

theorem bind_apply (x : Vm D α) (f : α → Vm D β) (s : VmState D) :
    (x >>= f) s = match x s with
      | (.ok a, s) => f a s
      | (.error e, s) => (.error e, s) := rfl

/-- A sequence that succeeds went through both parts. -/
theorem bind_eq_ok {x : Vm D α} {f : α → Vm D β} {s s' : VmState D} {b : β}
    (h : (x >>= f) s = (.ok b, s')) : ∃ a t, x s = (.ok a, t) ∧ f a t = (.ok b, s') := by
  rw [bind_apply] at h
  split at h
  · rename_i a t hx
    exact ⟨a, t, hx, h⟩
  · cases h

end Vm

/-! ### The calls of the loop -/

section Calls

variable {D : Type}

/-- A call on the vCPU. -/
def onVcpu {α : Type} (f : WhpVcpu → Except HalError α × WhpVcpu) : Vm D α := fun s =>
  let (r, vcpu) := f s.vcpu
  (r, { s with vcpu })

/-- `vcpu.inject_interrupt(vector)`, with its result for the caller to look at. -/
def tryInject (vector : UInt8) : Vm D (Except HalError Unit) := fun s =>
  let (r, vcpu) := s.vcpu.injectInterrupt vector
  (.ok r, { s with
    vcpu
    injections := s.injections ++
      [⟨vector, r.isOk, s.vcpu.pendingInterruption, s.pendingIrq⟩] })

/-- Set the deferred vector. -/
def setPendingIrq (irq : Option UInt8) : Vm D Unit := fun s =>
  (.ok (), { s with pendingIrq := irq })

/-- `vcpu.run()`; the guest takes the pending interruption. -/
def runVcpu : Vm D VcpuExit := fun s =>
  match s.vcpu.run with
  | (.error e, vcpu) => (.error e, { s with vcpu })
  | (.ok exit, vcpu) => (.ok exit, { s with
      vcpu
      events := s.events ++ (s.vcpu.pendingInterruption.toList.map IrqEvent.consumed) })

variable [DeviceBus D]

/-- `mmio_bus.read`: `size` bytes from the device. -/
def busRead (gpa : UInt64) (size : ℕ) : Vm D (List UInt8) := fun s =>
  let (data, devices) := DeviceBus.read s.devices gpa size
  (.ok (data.take size), { s with devices, accesses := s.accesses ++ [.read gpa size] })

/-- `mmio_bus.write`. -/
def busWrite (gpa : UInt64) (data : List UInt8) : Vm D (Option UInt8) := fun s =>
  let (irq, devices) := DeviceBus.write s.devices gpa data
  (.ok irq, { s with
    devices
    accesses := s.accesses ++ [.write gpa data]
    events := s.events ++ irq.toList.map IrqEvent.raised })

/-- `mmio_bus.poll_devices`. -/
def busPoll : Vm D (Option UInt8) := fun s =>
  let (irq, devices) := DeviceBus.pollDevices s.devices
  (.ok irq, { s with devices, events := s.events ++ irq.toList.map IrqEvent.raised })

end Calls

/-! ### Handlers -/

section Handlers

variable {D : Type}

/-- Advance RIP past the faulting instruction. -/
def advanceRip (instructionLen : ℕ) : Vm D Unit := do
  let regs ← onVcpu WhpVcpu.getRegs
  onVcpu fun v => v.setRegs { regs with rip := regs.rip + UInt64.ofNat instructionLen }

/-- Advance RIP and set RAX. -/
def advanceRipWithRax (instructionLen : ℕ) (rax : UInt64) : Vm D Unit := do
  let regs ← onVcpu WhpVcpu.getRegs
  onVcpu fun v => v.setRegs { regs with rip := regs.rip + UInt64.ofNat instructionLen, rax }

/-- Inject a vector, or defer it until the guest can take it. -/
def injectOrDefer (vector : UInt8) : Vm D Unit := do
  match ← tryInject vector with
  | .ok () => pure ()
  | .error _ => do
    setPendingIrq (some vector)
    onVcpu WhpVcpu.requestInterruptWindow

/-- The value a store sends: the immediate, or the register. -/
def storeValue (decoded : DecodedMmio) : Vm D UInt64 :=
  match decoded.immediate with
  | some imm => pure (UInt64.ofNat imm)
  | none => do
    let regs ← onVcpu WhpVcpu.getRegs
    pure (registerValue regs decoded.register)

variable [DeviceBus D]

/-- `poll_devices`. -/
def pollDevices : Vm D Unit := do
  match ← busPoll with
  | none => pure ()
  | some vector => injectOrDefer vector

/-- `handle_mmio_read`. -/
def handleMmioRead (mmio : MmioExit) (decoded : DecodedMmio) (instrLen : ℕ) : Vm D Unit := do
  let size := min decoded.size 8
  let data ← busRead mmio.gpa size
  let value := UInt64.ofNat (leNat data)
  let regs ← onVcpu WhpVcpu.getRegs
  let regs := setRegister regs decoded.register value
  onVcpu fun v => v.setRegs { regs with rip := regs.rip + UInt64.ofNat instrLen }

/-- `handle_mmio_write`. -/
def handleMmioWrite (mmio : MmioExit) (decoded : DecodedMmio) (instrLen : ℕ) : Vm D Unit := do
  let value ← storeValue decoded
  let size := min decoded.size 8
  let irq ← busWrite mmio.gpa ((leBytes 8 value.toNat).take size)
  advanceRip instrLen
  match irq with
  | none => pure ()
  | some vector => injectOrDefer vector

/-- `handle_mmio`: an instruction that cannot be decoded is skipped. -/
def handleMmio (mmio : MmioExit) : Vm D Unit :=
  let bytes := mmio.instructionBytes.toList.take mmio.instructionByteCount.toNat
  match decodeMmioInstruction bytes with
  | none => advanceRip mmio.instructionLen.toNat
  | some decoded =>
    if mmio.isWrite then handleMmioWrite mmio decoded decoded.instructionLen
    else handleMmioRead mmio decoded decoded.instructionLen

/-- A write to the serial console. -/
def serialWrite (port : UInt16) (byte : UInt8) : Vm D Unit := fun s =>
  (.ok (), { s with devices := DeviceBus.pioWrite s.devices port byte })

/-- A read from the serial console. -/
def serialRead (port : UInt16) : Vm D UInt8 := fun s =>
  let (value, devices) := DeviceBus.pioRead s.devices port
  (.ok value, { s with devices })

/-- `handle_io_port`. -/
def handleIoPort (io : IoPortExit) : Vm D Unit :=
  if DeviceBus.handlesPort D io.port then
    if io.isWrite then do
      serialWrite io.port (io.data.headD 0)
      advanceRip io.instructionLen.toNat
    else do
      let value ← serialRead io.port
      advanceRipWithRax io.instructionLen.toNat value.toUInt64
  else if io.port ∈ picPorts then
    if io.isWrite then advanceRip io.instructionLen.toNat
    else advanceRipWithRax io.instructionLen.toNat 0x00
  else if io.isWrite then advanceRip io.instructionLen.toNat
  else advanceRipWithRax io.instructionLen.toNat 0xFF

/-- `dispatch_exit`: `none` when the loop goes on. -/
def dispatchExit (exit : VcpuExit) : Vm D (Option ExitReason) :=
  match exit with
  | .ioPort io => do
    handleIoPort io
    pure none
  | .halt => pure (some .halt)
  | .shutdown => pure (some .shutdown)
  | .mmio mmio => do
    handleMmio mmio
    pure none
  | .interruptWindow => fun s =>
    match s.pendingIrq with
    | none => (.ok none, s)
    | some vector =>
      (do
        setPendingIrq none
        match ← tryInject vector with
        | .ok () => pure none
        | .error e => Vm.throw e) s
  | .canceled => fun s =>
    if s.pendingIrq.isSome then
      (do
        onVcpu WhpVcpu.requestInterruptWindow
        pure none) s
    else (.ok none, s)
  | .unknown code =>
    pure (some (.unexpected ("unknown vCPU exit reason: 0x" ++
      String.ofList (Nat.toDigits 16 code.toNat))))

/-- One turn of `run_vcpu_loop`. -/
def loopTurn : Vm D (Option ExitReason) := fun s =>
  let s' := { s with loops := s.loops + 1 }
  if s.stopFlag s.loops then (.ok (some .canceled), s')
  else
    (do
      pollDevices
      let exit ← runVcpu
      dispatchExit exit) s'

/-- `run_vcpu_loop`; `none` when it has not returned after `fuel` turns. -/
def runVcpuLoop : ℕ → VmState D → Option (Except HalError ExitReason × VmState D)
  | 0, _ => none
  | fuel + 1, s =>
    match loopTurn s with
    | (.error e, s) => some (.error e, s)
    | (.ok (some reason), s) => some (.ok reason, s)
    | (.ok none, s) => runVcpuLoop fuel s

/-- The state after `n` turns that all went on. -/
def afterTurns : ℕ → VmState D → Option (VmState D)
  | 0, s => some s
  | n + 1, s =>
    match loopTurn s with
    | (.ok none, s) => afterTurns n s
    | _ => none

end Handlers

/-! ### What the calls do when they succeed -/

section Specs

variable {D : Type}

theorem onVcpu_eq_ok {α : Type} {f : WhpVcpu → Except HalError α × WhpVcpu} {s s' : VmState D}
    {a : α} (h : onVcpu f s = (.ok a, s')) :
    ∃ vcpu, f s.vcpu = (.ok a, vcpu) ∧ s' = { s with vcpu } := by
  unfold onVcpu at h
  dsimp only at h
  cases hf : f s.vcpu with
  | mk r vcpu =>
    rw [hf] at h
    cases h
    exact ⟨vcpu, rfl, rfl⟩

theorem getRegs_eq_ok {s s' : VmState D} {regs : StandardRegs}
    (h : onVcpu WhpVcpu.getRegs s = (.ok regs, s')) : regs = s.vcpu.regs ∧
      s' = { s with vcpu := { s.vcpu with calls := s.vcpu.calls + 1 } } := by
  obtain ⟨vcpu, hv, rfl⟩ := onVcpu_eq_ok h
  obtain ⟨rfl, rfl⟩ := WhpVcpu.call_eq_ok hv
  exact ⟨rfl, rfl⟩

theorem setRegs_eq_ok {s s' : VmState D} {regs : StandardRegs}
    (h : onVcpu (fun v => v.setRegs regs) s = (.ok (), s')) :
    s' = { s with vcpu := { s.vcpu with calls := s.vcpu.calls + 1, regs } } := by
  obtain ⟨vcpu, hv, rfl⟩ := onVcpu_eq_ok h
  obtain ⟨-, rfl⟩ := WhpVcpu.call_eq_ok hv
  rfl

theorem requestInterruptWindow_eq_ok {s s' : VmState D}
    (h : onVcpu WhpVcpu.requestInterruptWindow s = (.ok (), s')) :
    s' = { s with vcpu := { s.vcpu with calls := s.vcpu.calls + 1, windowRequested := true } } := by
  obtain ⟨vcpu, hv, rfl⟩ := onVcpu_eq_ok h
  obtain ⟨-, rfl⟩ := WhpVcpu.call_eq_ok hv
  rfl

theorem advanceRip_eq_ok {len : ℕ} {s s' : VmState D} (h : advanceRip len s = (.ok (), s')) :
    ∃ calls, s' = { s with vcpu := { s.vcpu with
      calls, regs := { s.vcpu.regs with rip := s.vcpu.regs.rip + UInt64.ofNat len } } } := by
  obtain ⟨regs, t, hget, hset⟩ := Vm.bind_eq_ok h
  obtain ⟨rfl, rfl⟩ := getRegs_eq_ok hget
  obtain rfl := setRegs_eq_ok hset
  exact ⟨_, rfl⟩

/-- The state after a vector was written to the pending-interruption register. -/
def VmState.injected (s : VmState D) (vector : UInt8) : VmState D :=
  { s with
    vcpu := { s.vcpu with calls := s.vcpu.calls + 1, pendingInterruption := some vector }
    injections := s.injections ++ [⟨vector, true, s.vcpu.pendingInterruption, s.pendingIrq⟩] }

/-- The state after the platform refused a vector. -/
def VmState.refused (s : VmState D) (vector : UInt8) : VmState D :=
  { s with
    vcpu := { s.vcpu with calls := s.vcpu.calls + 1 }
    injections := s.injections ++ [⟨vector, false, s.vcpu.pendingInterruption, s.pendingIrq⟩] }

theorem tryInject_eq_ok {vector : UInt8} {s s' : VmState D} {r : Except HalError Unit}
    (h : tryInject vector s = (.ok r, s')) :
    (r = .ok () ∧ s' = s.injected vector) ∨ (∃ e, r = .error e ∧ s' = s.refused vector) := by
  unfold tryInject at h
  dsimp only at h
  cases hi : s.vcpu.injectInterrupt vector with
  | mk r' vcpu =>
    rw [hi] at h
    cases r' with
    | ok u =>
      obtain ⟨-, rfl⟩ := WhpVcpu.call_eq_ok hi
      cases h
      exact Or.inl ⟨rfl, rfl⟩
    | error e =>
      obtain rfl := WhpVcpu.call_eq_error hi
      cases h
      exact Or.inr ⟨e, rfl, rfl⟩

/-- The state after a refused vector was deferred and an interrupt window requested. -/
def VmState.deferred (s : VmState D) (vector : UInt8) : VmState D :=
  { s.refused vector with
    vcpu := { s.vcpu with calls := s.vcpu.calls + 2, windowRequested := true }
    pendingIrq := some vector }

theorem injectOrDefer_eq_ok {vector : UInt8} {s s' : VmState D}
    (h : injectOrDefer vector s = (.ok (), s')) :
    s' = s.injected vector ∨ s' = s.deferred vector := by
  obtain ⟨r, t, htry, hrest⟩ := Vm.bind_eq_ok h
  rcases tryInject_eq_ok htry with ⟨rfl, rfl⟩ | ⟨e, rfl, rfl⟩
  · cases hrest
    exact Or.inl rfl
  · obtain ⟨_, t', hset, hreq⟩ := Vm.bind_eq_ok (x := setPendingIrq (some vector))
      (f := fun _ => onVcpu WhpVcpu.requestInterruptWindow) hrest
    cases hset
    exact Or.inr (requestInterruptWindow_eq_ok hreq)

variable [DeviceBus D]

theorem busWrite_eq_ok {gpa : UInt64} {data : List UInt8} {s s' : VmState D} {irq : Option UInt8}
    (h : busWrite gpa data s = (.ok irq, s')) : ∃ devices, s' = { s with
      devices
      accesses := s.accesses ++ [.write gpa data]
      events := s.events ++ irq.toList.map IrqEvent.raised } := by
  unfold busWrite at h
  dsimp only at h
  cases h
  exact ⟨_, rfl⟩

theorem busPoll_eq_ok {s s' : VmState D} {irq : Option UInt8} (h : busPoll s = (.ok irq, s')) :
    ∃ devices, s' = { s with devices, events := s.events ++ irq.toList.map IrqEvent.raised } := by
  unfold busPoll at h
  dsimp only at h
  cases h
  exact ⟨_, rfl⟩

end Specs

/-! ### Scripted devices and guests -/

/-- Devices that answer from a script: every read with the same bytes, writes and polls with the
next vector of their list. -/
structure ScriptedBus where
  data : List UInt8 := []
  writes : List (Option UInt8) := []
  polls : List (Option UInt8) := []

instance : DeviceBus ScriptedBus where
  read b _ _ := (b.data, b)
  write b _ _ := (b.writes.headD none, { b with writes := b.writes.tail })
  pollDevices b := (b.polls.headD none, { b with polls := b.polls.tail })
  handlesPort _ := false
  pioWrite b _ _ := b
  pioRead b _ := (0, b)

/-- The exit of an instruction at a device address. -/
def exitOf (isWrite : Bool) (bytes : Vector UInt8 16) (count : UInt8) : MmioExit where
  gpa := 0xFEB00000
  isWrite
  instructionLen := 0
  instructionBytes := bytes
  instructionByteCount := count

end Hitz.Vmm

import Hitz.Hal.Types

/-!
# A WHP virtual processor (`hitz-whp/src/vcpu.rs`)

The platform keeps the registers, one pending-interruption register and the deliverability
notification of the processor.  Every call into the platform may fail: `fault n` is the platform's
error text for the `n`-th call, if it fails.  What the guest does while it runs is given from
outside: `guest n` is the exit of the `n`-th run and the registers it leaves behind.
-/

namespace Hitz.Whp

open Hal

/-- A virtual processor and the platform behind it. -/
structure WhpVcpu where
  regs : StandardRegs := {}
  pendingInterruption : Option UInt8 := none
  windowRequested : Bool := false
  fault : ℕ → Option String := fun _ => none
  calls : ℕ := 0
  guest : ℕ → VcpuExit × StandardRegs := fun _ => (.halt, {})
  runs : ℕ := 0

namespace WhpVcpu

/-- A call into the platform: it fails with `error`, or takes effect. -/
def call {α : Type} (v : WhpVcpu) (error : String → HalError) (result : α)
    (effect : WhpVcpu → WhpVcpu) : Except HalError α × WhpVcpu :=
  match v.fault v.calls with
  | some e => (.error (error e), { v with calls := v.calls + 1 })
  | none => (.ok result, effect { v with calls := v.calls + 1 })

/-- A call that succeeds has its effect. -/
theorem call_eq_ok {α : Type} {v v' : WhpVcpu} {error : String → HalError} {result r : α}
    {effect : WhpVcpu → WhpVcpu} (h : v.call error result effect = (.ok r, v')) :
    r = result ∧ v' = effect { v with calls := v.calls + 1 } := by
  unfold call at h
  split at h
  · cases h
  · cases h
    exact ⟨rfl, rfl⟩

/-- A call that fails leaves the processor as it is. -/
theorem call_eq_error {α : Type} {v v' : WhpVcpu} {error : String → HalError} {result : α}
    {e : HalError} {effect : WhpVcpu → WhpVcpu}
    (h : v.call error result effect = (.error e, v')) : v' = { v with calls := v.calls + 1 } := by
  unfold call at h
  split at h
  · cases h
    rfl
  · cases h

/-- `get_regs`. -/
def getRegs (v : WhpVcpu) : Except HalError StandardRegs × WhpVcpu :=
  v.call (fun e => .registerAccess ("get standard regs: " ++ e)) v.regs id

/-- `set_regs`. -/
def setRegs (v : WhpVcpu) (regs : StandardRegs) : Except HalError Unit × WhpVcpu :=
  v.call (fun e => .registerAccess ("set standard regs: " ++ e)) () fun v => { v with regs }

/-- `inject_interrupt`: overwrite the pending-interruption register. -/
def injectInterrupt (v : WhpVcpu) (vector : UInt8) : Except HalError Unit × WhpVcpu :=
  v.call (fun e => .injectInterrupt ("WHvSetVirtualProcessorRegisters: " ++ e)) () fun v =>
    { v with pendingInterruption := some vector }

/-- `request_interrupt_window`. -/
def requestInterruptWindow (v : WhpVcpu) : Except HalError Unit × WhpVcpu :=
  v.call (fun e => .registerAccess ("set DeliverabilityNotifications: " ++ e)) () fun v =>
    { v with windowRequested := true }

/-- `run`: the guest takes the pending interruption and runs to its next exit.  The platform clears
the notification when the interrupt window exit fires. -/
def run (v : WhpVcpu) : Except HalError VcpuExit × WhpVcpu :=
  let (exit, regs) := v.guest v.runs
  v.call (fun e => .vcpuRun ("WHvRunVirtualProcessor: " ++ e)) exit fun v =>
    { v with
      regs
      runs := v.runs + 1
      pendingInterruption := none
      windowRequested := v.windowRequested && exit != .interruptWindow }

end WhpVcpu

end Hitz.Whp

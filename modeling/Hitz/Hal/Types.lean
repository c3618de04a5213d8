import Mathlib

/-!
# The hypervisor abstraction layer (`hitz-hal/src/types.rs`, `hitz-hal/src/error.rs`)

Errors, vCPU registers and vCPU exits.
-/

namespace Hitz.Hal

/-- Errors of the hypervisor layer. -/
inductive HalError
  | createPartition (reason : String)
  | setupPartition (reason : String)
  | mapMemory (gpa size : ℕ) (reason : String)
  | unmapMemory (gpa : ℕ) (reason : String)
  | createVcpu (vcpuId : ℕ) (reason : String)
  | vcpuRun (reason : String)
  | vcpuCancel (reason : String)
  | registerAccess (reason : String)
  | interruptRequest (reason : String)
  | guestMem (gpa : ℕ) (reason : String)
  | injectInterrupt (reason : String)
  | notAvailable (reason : String)
  | platform (code : ℕ) (message : String)
  deriving DecidableEq, Repr

/-- `{:#x}`. -/
def hex (n : ℕ) : String := "0x" ++ String.ofList (Nat.toDigits 16 n)

/-- The text of an error. -/
def HalError.display : HalError → String
  | .createPartition reason => "failed to create partition: " ++ reason
  | .setupPartition reason => "failed to set partition property: " ++ reason
  | .mapMemory gpa size reason =>
    "failed to map guest memory at GPA " ++ hex gpa ++ ", size " ++ hex size ++ ": " ++ reason
  | .unmapMemory gpa reason => "failed to unmap guest memory at GPA " ++ hex gpa ++ ": " ++ reason
  | .createVcpu vcpuId reason => "failed to create vCPU " ++ toString vcpuId ++ ": " ++ reason
  | .vcpuRun reason => "vCPU run failed: " ++ reason
  | .vcpuCancel reason => "failed to cancel vCPU: " ++ reason
  | .registerAccess reason => "register access failed: " ++ reason
  | .interruptRequest reason => "interrupt request failed: " ++ reason
  | .guestMem gpa reason => "guest memory access at GPA " ++ hex gpa ++ ": " ++ reason
  | .injectInterrupt reason => "interrupt injection failed: " ++ reason
  | .notAvailable reason => "hypervisor not available: " ++ reason
  | .platform code message => "platform error (code " ++ hex code ++ "): " ++ message

/-- General-purpose registers, RIP and RFLAGS. -/
structure StandardRegs where
  rip : UInt64 := 0
  rflags : UInt64 := 0
  rax : UInt64 := 0
  rbx : UInt64 := 0
  rcx : UInt64 := 0
  rdx : UInt64 := 0
  rsi : UInt64 := 0
  rdi : UInt64 := 0
  rsp : UInt64 := 0
  rbp : UInt64 := 0
  r8 : UInt64 := 0
  r9 : UInt64 := 0
  r10 : UInt64 := 0
  r11 : UInt64 := 0
  r12 : UInt64 := 0
  r13 : UInt64 := 0
  r14 : UInt64 := 0
  r15 : UInt64 := 0
  deriving DecidableEq, Repr

/-- Details of an MMIO exit.  `data` and `len` are not read by the run loop: WHP leaves decoding
to the instruction bytes. -/
structure MmioExit where
  gpa : UInt64
  isWrite : Bool
  instructionLen : UInt8
  instructionBytes : Vector UInt8 16
  instructionByteCount : UInt8
  deriving DecidableEq, Repr

/-- Details of an I/O port exit. -/
structure IoPortExit where
  port : UInt16
  data : List UInt8
  isWrite : Bool
  instructionLen : UInt8
  deriving DecidableEq, Repr

/-- Why the vCPU stopped running. -/
inductive VcpuExit
  | mmio (exit : MmioExit)
  | ioPort (exit : IoPortExit)
  | halt
  | interruptWindow
  | canceled
  | shutdown
  | unknown (code : UInt32)
  deriving DecidableEq, Repr

end Hitz.Hal

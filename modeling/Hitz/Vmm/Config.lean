import Hitz.Api.Types
import Hitz.Boot.PageTables
import Hitz.Hal.Types
import Hitz.Vmm.Memory

/-!
# Validation of a VM configuration (`hitz-vmm/src/vm.rs`, `validate_config`)

Whether a file exists is given from outside.
-/

namespace Hitz.Vmm

open Api Boot Hal

/-- `VmError`. -/
inductive VmError
  | io (message : String)
  | mem (e : MemError)
  | hal (e : HalError)
  | boot (e : BootError)
  | config (message : String)
  deriving DecidableEq, Repr

/-- `MIN_RAM_MIB`. -/
def minRamMib : UInt32 := 2

/-- A path has a `..` component. -/
def hasParentDir (path : String) : Bool :=
  ['.', '.'] ∈ path.toList.splitOnP fun c => c == '/' || c == '\\'

example : hasParentDir "/etc/../shadow" = true ∧ hasParentDir "vmlinux-5.15..1" = false := by
  decide +kernel

/-- `SafePath::new`: reject a path that leaves its directory. -/
def safePath (path : String) : Except VmError Unit :=
  if hasParentDir path then throw (.config ("path traversal detected: " ++ path)) else pure ()

/-- `SafePath::new` of an optional path. -/
def safeOptionPath : Option String → Except VmError Unit
  | none => pure ()
  | some path => safePath path

/-- An optional file must exist. -/
def mustExist (files : String → Bool) (what : String) : Option String → Except VmError Unit
  | none => pure ()
  | some path =>
    if files path then pure () else throw (.config (what ++ " not found: " ++ path))

/-- `validate_config`. -/
def validateConfig (files : String → Bool) (config : VmConfig) : Except VmError Unit := do
  safePath config.kernelPath
  safeOptionPath config.initramfsPath
  safeOptionPath config.diskPath
  match config.guestAgent with
  | .custom path => safePath path
  | _ => pure ()
  mustExist files "kernel" (some config.kernelPath)
  mustExist files "initramfs" config.initramfsPath
  mustExist files "disk image" config.diskPath
  if config.ramMib < minRamMib then
    throw (.config ("RAM must be at least " ++ toString minRamMib ++ " MiB, got " ++
      toString config.ramMib))
  if config.cpus = 0 ∨ 255 < config.cpus then
    throw (.config ("cpus must be 1..=255, got " ++ toString config.cpus))

end Hitz.Vmm

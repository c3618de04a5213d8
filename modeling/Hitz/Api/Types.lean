import Mathlib

/-!
# The API types (`hitz-api/src/config.rs`, `hitz-api/src/api.rs`)
-/

namespace Hitz.Api

/-- `DEFAULT_CMDLINE`. -/
def defaultCmdline : String := "console=ttyS0 earlyprintk=serial"

/-- Network configuration for a VM. -/
structure NetConfig where
  mac : Option String
  hostIp : String
  guestIp : String
  adapterName : Option String
  deriving DecidableEq, Repr

/-- A TCP port forward rule. -/
structure PortForward where
  hostPort : UInt16
  guestPort : UInt16
  deriving DecidableEq, Repr

/-- Which guest metrics agent is injected into the initramfs. -/
inductive GuestAgentMode
  | auto
  | custom (path : String)
  | disabled
  deriving DecidableEq, Repr

/-- VM configuration. -/
structure VmConfig where
  kernelPath : String
  initramfsPath : Option String := none
  diskPath : Option String := none
  ramMib : UInt32
  cpus : UInt32 := 1
  cmdline : Option String := none
  net : Option NetConfig := none
  ports : List PortForward := []
  guestCid : UInt32 := 3
  guestAgent : GuestAgentMode := .auto
  deriving DecidableEq, Repr

/-- `VmConfig::effective_cmdline`. -/
def VmConfig.effectiveCmdline (config : VmConfig) : String :=
  config.cmdline.getD defaultCmdline

/-- Lifecycle state of a VM. -/
inductive VmState
  | created
  | running
  | stopped
  | failed
  deriving DecidableEq, Repr

/-- What the API reports about a VM. -/
structure VmInfo where
  id : String
  state : VmState
  config : VmConfig
  exitReason : Option String
  deriving DecidableEq, Repr

end Hitz.Api

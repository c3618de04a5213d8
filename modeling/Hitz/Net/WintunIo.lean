import Hitz.Net.Ethernet

/-!
# The host's network adapter (`hitz-net/src/wintun_io.rs`)

`start_net_io` creates an adapter, gives it the host's address and netmask and starts a session.
What the driver answers comes from outside (`Wintun`); the thread that moves frames is not part of
this.
-/

namespace Hitz.Net

/-- `NetIoError`. -/
inductive NetIoError
  | wintun (message : String)
  | io (message : String)
  | config (message : String)
  deriving DecidableEq, Repr

/-- The text of an error. -/
def NetIoError.display : NetIoError → String
  | .wintun message => "WinTun error: " ++ message
  | .io message => "I/O error: " ++ message
  | .config message => "config error: " ++ message

/-- The driver's answers. -/
structure Wintun where
  load : Except String Unit
  create : String → Except String Unit
  setAddress : Vector UInt8 4 → Except String Unit
  setNetmask : Vector UInt8 4 → Except String Unit
  startSession : Except String Unit
  spawn : Except String Unit

/-- What the adapter is set to. -/
structure Adapter where
  address : Vector UInt8 4
  netmask : Vector UInt8 4
  deriving DecidableEq, Repr

/-- `Ipv4Addr` as text. -/
def displayIp (ip : Vector UInt8 4) : String := ".".intercalate (ip.toList.map toString)

/-- `u32::to_be_bytes`. -/
def beBytes (bits : UInt32) : Vector UInt8 4 :=
  #v[(bits >>> 24).toUInt8, (bits >>> 16).toUInt8, (bits >>> 8).toUInt8, bits.toUInt8]

/-- `prefix_to_ipv4_mask`. -/
def prefixToIpv4Mask (length : UInt8) : Vector UInt8 4 :=
  let bits : UInt32 :=
    if length = 0 then 0
    else if 32 ≤ length then 0xFFFFFFFF
    else ~~~((1 <<< (32 - length).toUInt32) - 1)
  beBytes bits

/-- Every length a CIDR text can have gives another netmask. -/
theorem prefixToIpv4Mask_inj : ∀ a < 33, ∀ b < 33,
    prefixToIpv4Mask (UInt8.ofNat a) = prefixToIpv4Mask (UInt8.ofNat b) → a = b := by
  decide +kernel

example : prefixToIpv4Mask 24 = #v[255, 255, 255, 0] := by decide

/-- `configure_host_ip`. -/
def configureHostIp (driver : Wintun) (cidr : String) : Except NetIoError Adapter := do
  let (ip, length) ← (parseCidr cidr).mapError .config
  let mask := prefixToIpv4Mask length
  (driver.setAddress ip).mapError fun e =>
    .wintun ("set adapter address " ++ displayIp ip ++ ": " ++ e)
  (driver.setNetmask mask).mapError fun e =>
    .wintun ("set adapter netmask " ++ displayIp mask ++ ": " ++ e)
  pure ⟨ip, mask⟩

/-- `start_net_io`, up to the start of its thread. -/
def startNetIo (driver : Wintun) (adapterName hostIp : String) : Except NetIoError Adapter := do
  driver.load.mapError fun e => .wintun ("load wintun.dll: " ++ e)
  (driver.create adapterName).mapError fun e =>
    .wintun ("create adapter '" ++ adapterName ++ "': " ++ e)
  let adapter ← configureHostIp driver hostIp
  driver.startSession.mapError fun e => .wintun ("start session: " ++ e)
  driver.spawn.mapError .io
  pure adapter

end Hitz.Net

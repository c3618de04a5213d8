import Hitz.Api.Types
import Hitz.Net.AddressText

/-!
# Port forwards and the guest's address (`start_port_forwarding` in `hitz-daemon/src/vm_manager.rs`)

The VM boots with the address that `parse_cidr` reads from `guest_ip`.  The port forwards go to the
address that the standard library reads from the part before the slash; where it reads none, there
are no port forwards.

`guestIp_parsers_agree_iff`: the two read the same address exactly when the octets are written as
the standard library wants them, without sign and superfluous leading zeros.
-/

namespace Hitz.Daemon

open Api Net Numeral

/-- An octet of `Ipv4Addr::from_str`: at most three digits, and no zero in front of others. -/
def readOctet (cs : List Char) : Option UInt8 :=
  if cs.length = 1 ∨ cs.head? ≠ some '0' then
    (value decDigit 10 cs).bind fun n => if n ≤ 255 then some (UInt8.ofNat n) else none
  else none

/-- `Ipv4Addr::from_str`. -/
def parseIpv4Addr (s : List Char) : Option (Vector UInt8 4) :=
  match s.splitOn '.' with
  | [a, b, c, d] => do
    let a ← readOctet a
    let b ← readOctet b
    let c ← readOctet c
    let d ← readOctet d
    pure ⟨⟨[a, b, c, d]⟩, rfl⟩
  | _ => none

/-- The part of `guest_ip` before the slash. -/
def addressPart (guestIp : String) : List Char := guestIp.toList.takeWhile (· ≠ '/')

/-- A listener of `PortForwardManager`: connections to the port of the host are relayed to the port
of the guest. -/
structure Relay where
  hostPort : UInt16
  guestIp : Vector UInt8 4
  guestPort : UInt16
  deriving DecidableEq, Repr

/-- `PortForwardManager::start`; `bind` says which ports of the host can be bound. -/
def startRelays (bind : UInt16 → Bool) (guestIp : Vector UInt8 4) (rules : List PortForward) :
    List Relay :=
  (rules.filter fun rule => bind rule.hostPort).map fun rule =>
    ⟨rule.hostPort, guestIp, rule.guestPort⟩

/-- `start_port_forwarding`. -/
def startPortForwarding (bind : UInt16 → Bool) (config : VmConfig) : Option (List Relay) := do
  let net ← config.net
  if config.ports.isEmpty then none
  else do
    let ip ← parseIpv4Addr (addressPart net.guestIp)
    some (startRelays bind ip config.ports)

/-- The port forwards of a VM with this `guest_ip` go to the address that it boots with. -/
structure ForwardsAgree (guestIp : String) : Prop where
  parse : ∀ ip length, parseCidr guestIp = .ok (ip, length) →
    parseIpv4Addr (addressPart guestIp) = some ip
  forwards : ∀ bind config net ip length, config.net = some net → net.guestIp = guestIp →
    config.ports ≠ [] → parseCidr guestIp = .ok (ip, length) →
      startPortForwarding bind config = some (startRelays bind ip config.ports)

/-- If the string is four numbers between dots, a slash and a prefix length, then the four numbers
are written without sign and superfluous leading zeros. -/
def OctetsPlain (guestIp : String) : Prop :=
  ∀ ip length, guestIp.utf8ByteSize ≤ 18 → CidrText (Signed decDigit 10) guestIp.toList ip length →
    ∀ octet ∈ (addressPart guestIp).splitOn '.', PlainDecimal octet

/-- An octet is a decimal numeral. -/
theorem readOctet_eq_some_iff {cs : List Char} {b : UInt8} :
    readOctet cs = some b ↔ Decimal cs b.toNat := by
  rw [readOctet]
  constructor
  · intro h
    split_ifs at h with hzero
    obtain ⟨n, hval, h⟩ := Option.bind_eq_some_iff.1 h
    split_ifs at h with hle
    refine ⟨?_, hzero⟩
    rw [← Option.some.inj h, UInt8.toNat_ofNat', Nat.mod_eq_of_lt (by omega), hval]
  · intro h
    rw [if_pos h.no_zero, h.value, Option.bind_some, if_pos (Nat.le_of_lt_succ b.toNat_lt),
      UInt8.ofNat_toNat]

/-- The standard library reads four decimal numerals. -/
theorem parseIpv4Addr_eq_some_iff {s : List Char} {ip : Vector UInt8 4} :
    parseIpv4Addr s = some ip ↔
      List.Forall₂ (fun octet b => Decimal octet b.toNat) (s.splitOn '.') ip.toList := by
  simp only [← readOctet_eq_some_iff]
  rw [parseIpv4Addr]
  constructor
  · intro h
    split at h
    · rename_i pa pb pc pd heq
      obtain ⟨a, ha, h⟩ := Option.bind_eq_some_iff.1 h
      obtain ⟨b, hb, h⟩ := Option.bind_eq_some_iff.1 h
      obtain ⟨c, hc, h⟩ := Option.bind_eq_some_iff.1 h
      obtain ⟨d, hd, h⟩ := Option.bind_eq_some_iff.1 h
      cases h
      rw [heq]
      exact .cons ha (.cons hb (.cons hc (.cons hd .nil)))
    · cases h
  · intro h
    obtain ⟨⟨l⟩, hl⟩ := ip
    generalize s.splitOn '.' = parts at h ⊢
    match l, hl, parts, h with
    | [a, b, c, d], _, _, .cons ha (.cons hb (.cons hc (.cons hd .nil))) =>
      dsimp only
      rw [ha, hb, hc, hd]
      rfl

/-- Where `parse_cidr` reads a plain address, the standard library reads the same one. -/
theorem parseIpv4Addr_of_parseCidr {guestIp : String} {ip : Vector UInt8 4} {length : UInt8}
    (hplain : OctetsPlain guestIp) (h : parseCidr guestIp = .ok (ip, length)) :
    parseIpv4Addr (addressPart guestIp) = some ip := by
  obtain ⟨hlen, htext⟩ := parseCidr_eq_ok_iff.1 h
  have hoctets := hplain ip length hlen htext
  obtain ⟨-, -, hsigned, -⟩ :=
    (cidrText_iff (fun h => h.not_mem rfl (by decide)) fun h => h.not_mem rfl (by decide)).1 htext
  rw [parseIpv4Addr_eq_some_iff]
  refine ((List.forall₂_and_left _ _).2 ⟨hoctets, hsigned⟩).imp ?_
  rintro octet b ⟨hoctet, hb⟩
  exact hb.decimal hoctet

theorem startPortForwarding_of_parse {bind : UInt16 → Bool} {config : VmConfig} {net : NetConfig}
    {ip : Vector UInt8 4} (hnet : config.net = some net) (hports : config.ports ≠ [])
    (hparse : parseIpv4Addr (addressPart net.guestIp) = some ip) :
    startPortForwarding bind config = some (startRelays bind ip config.ports) := by
  rw [startPortForwarding, hnet, Option.bind_eq_bind, Option.bind_some,
    if_neg (mt List.isEmpty_iff.1 hports), Option.bind_eq_bind, hparse, Option.bind_some]

/-- The two parsers of `guest_ip` agree on a string exactly when its octets are written plainly. -/
theorem guestIp_parsers_agree_iff (guestIp : String) :
    ForwardsAgree guestIp ↔ OctetsPlain guestIp := by
  constructor
  · intro h ip length hlen htext octet hoctet
    have hparse := h.parse ip length (parseCidr_eq_ok_iff.2 ⟨hlen, htext⟩)
    rw [parseIpv4Addr_eq_some_iff] at hparse
    obtain ⟨i, hi, rfl⟩ := List.getElem_of_mem hoctet
    have hdecimal := (List.forall₂_iff_get.1 hparse).2 i hi (hparse.length_eq ▸ hi)
    exact hdecimal.plain
  · intro h
    refine ⟨fun ip length => parseIpv4Addr_of_parseCidr h, ?_⟩
    rintro bind config net ip length hnet rfl hports hcidr
    exact startPortForwarding_of_parse hnet hports (parseIpv4Addr_of_parseCidr h hcidr)

/-- A VM that boots with an address for which its port forwards are dropped. -/
theorem signed_guestIp_drops_forwards : ¬ ∀ guestIp, ForwardsAgree guestIp := by
  intro h
  have hcidr : parseCidr "10.0.0.02/24" = .ok (#v[10, 0, 0, 2], 24) := by decide +kernel
  have hparse := (h _).parse _ _ hcidr
  revert hparse
  decide +kernel

end Hitz.Daemon

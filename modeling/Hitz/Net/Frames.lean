import Hitz.Lib.Packed

/-!
# Ethernet frames (`hitz-net/src/ethernet.rs`)

A frame is a 14-byte header and a payload; `build_eth_frame` puts them together, `parse_eth_header`
and `strip_eth_header` take them apart again.  `build_arp_reply` answers the requests for one
address: `buildArpReply_eq` says so in terms of the ARP packets (`ArpPacket`) in the frames.
-/

namespace Hitz.Net

open Packed

/-- Ethernet header length in bytes. -/
def ethHeaderLen : ℕ := 14

def ethertypeIpv4 : UInt16 := 0x0800
def ethertypeIpv6 : UInt16 := 0x86DD
def ethertypeArp : UInt16 := 0x0806

/-- ARP operations. -/
def arpOpRequest : UInt16 := 1
def arpOpReply : UInt16 := 2

/-- `u16::to_be_bytes`. -/
def beBytes16 (v : UInt16) : List UInt8 :=
  [UInt8.ofNat (v.toNat / 256), UInt8.ofNat (v.toNat % 256)]

/-- `u16::from_be_bytes`, of the bytes at `i`. -/
def beU16 (bytes : List UInt8) (i : ℕ) : UInt16 :=
  UInt16.ofNat ((bytes.getD i 0).toNat * 256 + (bytes.getD (i + 1) 0).toNat)

/-- `copy_from_slice` of the `n` bytes at `i`. -/
def bytesAt (n : ℕ) (bytes : List UInt8) (i : ℕ) : Vector UInt8 n :=
  Vector.ofFn fun k => bytes.getD (i + k) 0

/-- Parsed Ethernet header. -/
structure EthHeader where
  dstMac : Vector UInt8 6
  srcMac : Vector UInt8 6
  ethertype : UInt16
  deriving DecidableEq, Repr

/-- `parse_eth_header`. -/
def parseEthHeader (frame : List UInt8) : Option EthHeader :=
  if frame.length < ethHeaderLen then none
  else some {
    dstMac := bytesAt 6 frame 0
    srcMac := bytesAt 6 frame 6
    ethertype := beU16 frame 12 }

/-- `build_eth_frame`. -/
def buildEthFrame (srcMac dstMac : Vector UInt8 6) (ethertype : UInt16) (payload : List UInt8) :
    List UInt8 :=
  dstMac.toList ++ srcMac.toList ++ beBytes16 ethertype ++ payload

/-- `strip_eth_header`. -/
def stripEthHeader (frame : List UInt8) : Option (List UInt8) :=
  if frame.length < ethHeaderLen then none else some (frame.drop ethHeaderLen)

/-- `ethertype_from_ip`: everything that is not version 6 is taken for IPv4. -/
def ethertypeFromIp : List UInt8 → UInt16
  | [] => ethertypeIpv4
  | b :: _ => if b.toNat / 16 = 6 then ethertypeIpv6 else ethertypeIpv4

/-- `build_arp_reply`. -/
def buildArpReply (requestFrame : List UInt8) (gatewayMac : Vector UInt8 6)
    (gatewayIp : Vector UInt8 4) : Option (List UInt8) :=
  if requestFrame.length < 42 then none
  else (parseEthHeader requestFrame).bind fun eth =>
    if eth.ethertype ≠ ethertypeArp then none
    else
      let arp := requestFrame.drop ethHeaderLen
      let hwType := beU16 arp 0
      let protoType := beU16 arp 2
      let hwLen := arp.getD 4 0
      let protoLen := arp.getD 5 0
      let op := beU16 arp 6
      if hwType ≠ 1 ∨ protoType ≠ 0x0800 ∨ hwLen ≠ 6 ∨ protoLen ≠ 4 then none
      else if op ≠ arpOpRequest then none
      else
        let senderMac := bytesAt 6 arp 8
        let senderIp := bytesAt 4 arp 14
        let targetIp := bytesAt 4 arp 24
        if targetIp ≠ gatewayIp then none
        else some (buildEthFrame gatewayMac senderMac ethertypeArp
          (beBytes16 1 ++ beBytes16 0x0800 ++ [6, 4] ++ beBytes16 arpOpReply ++
            gatewayMac.toList ++ gatewayIp.toList ++ senderMac.toList ++ senderIp.toList))

/-! ### Fields of a frame -/

theorem getD_of_slice (field : List UInt8) {bytes : List UInt8} {i k : ℕ}
    (h : slice bytes i field.length = field) (hk : k < field.length) :
    bytes.getD (i + k) 0 = field[k] := by
  have hget : (slice bytes i field.length)[k]? = some field[k] := by
    rw [h, List.getElem?_eq_getElem hk]
  rw [slice, List.getElem?_take_of_lt hk, List.getElem?_drop] at hget
  rw [List.getD_eq_getElem?_getD, hget, Option.getD_some]

theorem beU16_of_slice {v : UInt16} {bytes : List UInt8} {i : ℕ}
    (h : slice bytes i 2 = beBytes16 v) : beU16 bytes i = v := by
  have hv := v.toNat_lt
  have h₀ := getD_of_slice (beBytes16 v) (k := 0) h (by simp [beBytes16])
  have h₁ := getD_of_slice (beBytes16 v) (k := 1) h (by simp [beBytes16])
  rw [Nat.add_zero] at h₀
  rw [beU16, h₀, h₁]
  simp only [beBytes16, List.getElem_cons_zero, List.getElem_cons_succ, UInt8.toNat_ofNat']
  rw [Nat.mod_eq_of_lt (by omega), Nat.mod_eq_of_lt (by omega), Nat.div_add_mod' v.toNat 256]
  exact UInt16.ofNat_toNat

theorem bytesAt_of_slice {n : ℕ} {v : Vector UInt8 n} {bytes : List UInt8} {i : ℕ}
    (h : slice bytes i n = v.toList) : bytesAt n bytes i = v := by
  ext k hk
  have hlen : v.toList.length = n := by simp
  rw [bytesAt, Vector.getElem_ofFn, getD_of_slice v.toList (by rwa [hlen]) (by omega),
    Vector.getElem_toList]

/-- The fields of a frame. -/
def ethFields (srcMac dstMac : Vector UInt8 6) (ethertype : UInt16) (payload : List UInt8) :
    List (List UInt8) :=
  [dstMac.toList, srcMac.toList, beBytes16 ethertype, payload]

theorem buildEthFrame_eq (srcMac dstMac : Vector UInt8 6) (ethertype : UInt16)
    (payload : List UInt8) : buildEthFrame srcMac dstMac ethertype payload =
      (ethFields srcMac dstMac ethertype payload).flatten := by
  simp [buildEthFrame, ethFields]

/-- What was put together is taken apart. -/
theorem parseEthHeader_build (srcMac dstMac : Vector UInt8 6) (ethertype : UInt16)
    (payload : List UInt8) : parseEthHeader (buildEthFrame srcMac dstMac ethertype payload) =
      some { dstMac, srcMac, ethertype } := by
  have hlen : ¬ (buildEthFrame srcMac dstMac ethertype payload).length < ethHeaderLen := by
    simp [buildEthFrame, beBytes16, ethHeaderLen]
    omega
  have hfield : ∀ k o field, (ethFields srcMac dstMac ethertype payload)[k]? = some field →
      start (ethFields srcMac dstMac ethertype payload) k = o →
      slice (buildEthFrame srcMac dstMac ethertype payload) o field.length = field := by
    rw [buildEthFrame_eq]
    exact fun k o field => slice_flatten _
  rw [parseEthHeader, if_neg hlen]
  congr 2
  · exact bytesAt_of_slice (by simpa using hfield 0 0 _ rfl (by simp [start]))
  · exact bytesAt_of_slice (by simpa using hfield 1 6 _ rfl (by simp [start, ethFields]))
  · exact beU16_of_slice (by
      simpa [beBytes16] using hfield 2 12 _ rfl (by simp [start, ethFields]))

theorem stripEthHeader_build (srcMac dstMac : Vector UInt8 6) (ethertype : UInt16)
    (payload : List UInt8) :
    stripEthHeader (buildEthFrame srcMac dstMac ethertype payload) = some payload := by
  have hhdr : (dstMac.toList ++ srcMac.toList ++ beBytes16 ethertype).length = ethHeaderLen := by
    simp [beBytes16, ethHeaderLen]
  rw [stripEthHeader, buildEthFrame, if_neg (by rw [List.length_append]; omega),
    List.drop_left' hhdr]

/-! ### ARP -/

/-- An ARP packet for Ethernet and IPv4. -/
@[ext] structure ArpPacket where
  hwType : UInt16 := 1
  protoType : UInt16 := 0x0800
  hwLen : UInt8 := 6
  protoLen : UInt8 := 4
  op : UInt16
  senderHw : Vector UInt8 6
  senderIp : Vector UInt8 4
  targetHw : Vector UInt8 6
  targetIp : Vector UInt8 4
  deriving DecidableEq, Repr

namespace ArpPacket

/-- The fields of a packet, in order. -/
def fields (p : ArpPacket) : List (List UInt8) :=
  [beBytes16 p.hwType, beBytes16 p.protoType, [p.hwLen], [p.protoLen], beBytes16 p.op,
    p.senderHw.toList, p.senderIp.toList, p.targetHw.toList, p.targetIp.toList]

/-- The 28 bytes of a packet. -/
def asBytes (p : ArpPacket) : List UInt8 := p.fields.flatten

/-- Read the packet at the front. -/
def ofBytes (bytes : List UInt8) : Option ArpPacket :=
  if bytes.length < 28 then none
  else some {
    hwType := beU16 bytes 0
    protoType := beU16 bytes 2
    hwLen := bytes.getD 4 0
    protoLen := bytes.getD 5 0
    op := beU16 bytes 6
    senderHw := bytesAt 6 bytes 8
    senderIp := bytesAt 4 bytes 14
    targetHw := bytesAt 6 bytes 18
    targetIp := bytesAt 4 bytes 24 }

/-- A packet is read back. -/
theorem ofBytes_asBytes (p : ArpPacket) : ofBytes p.asBytes = some p := by
  have hlen : ¬ p.asBytes.length < 28 := by simp [asBytes, fields, beBytes16]
  have hfield : ∀ k o field, p.fields[k]? = some field → start p.fields k = o →
      slice p.asBytes o field.length = field := fun k o field => slice_flatten p.fields
  have hbyte : ∀ {o b}, slice p.asBytes o 1 = [b] → p.asBytes.getD o 0 = b := by
    intro o b h
    exact getD_of_slice [b] (k := 0) h (by simp)
  rw [ofBytes, if_neg hlen]
  congr 1
  ext1
  · exact beU16_of_slice (hfield 0 0 _ rfl rfl)
  · exact beU16_of_slice (hfield 1 2 _ rfl (by simp [start, fields, beBytes16]))
  · exact hbyte (hfield 2 4 _ rfl (by simp [start, fields, beBytes16]))
  · exact hbyte (hfield 3 5 _ rfl (by simp [start, fields, beBytes16]))
  · exact beU16_of_slice (hfield 4 6 _ rfl (by simp [start, fields, beBytes16]))
  · exact bytesAt_of_slice (by
      simpa using hfield 5 8 _ rfl (by simp [start, fields, beBytes16]))
  · exact bytesAt_of_slice (by
      simpa using hfield 6 14 _ rfl (by simp [start, fields, beBytes16]))
  · exact bytesAt_of_slice (by
      simpa using hfield 7 18 _ rfl (by simp [start, fields, beBytes16]))
  · exact bytesAt_of_slice (by
      simpa using hfield 8 24 _ rfl (by simp [start, fields, beBytes16]))

/-- A request for the address `ip`. -/
def Requests (p : ArpPacket) (ip : Vector UInt8 4) : Prop :=
  p.hwType = 1 ∧ p.protoType = 0x0800 ∧ p.hwLen = 6 ∧ p.protoLen = 4 ∧ p.op = arpOpRequest ∧
    p.targetIp = ip

instance (p : ArpPacket) (ip : Vector UInt8 4) : Decidable (p.Requests ip) :=
  inferInstanceAs (Decidable (_ ∧ _))

/-- The answer to a request: `ip` is at `mac`. -/
def answer (p : ArpPacket) (mac : Vector UInt8 6) (ip : Vector UInt8 4) : ArpPacket where
  op := arpOpReply
  senderHw := mac
  senderIp := ip
  targetHw := p.senderHw
  targetIp := p.senderIp

end ArpPacket

/-- The ARP request for `ip` in a frame, if it is one. -/
def arpRequest (ip : Vector UInt8 4) (frame : List UInt8) : Option ArpPacket :=
  (parseEthHeader frame).bind fun hdr =>
    if hdr.ethertype = ethertypeArp then
      (ArpPacket.ofBytes (frame.drop ethHeaderLen)).filter fun p => p.Requests ip
    else none

/-- `build_arp_reply` answers the requests for the gateway. -/
theorem buildArpReply_eq (frame : List UInt8) (mac : Vector UInt8 6) (ip : Vector UInt8 4) :
    buildArpReply frame mac ip = (arpRequest ip frame).map fun p =>
      buildEthFrame mac p.senderHw ethertypeArp (p.answer mac ip).asBytes := by
  unfold buildArpReply arpRequest parseEthHeader ArpPacket.ofBytes
  have hdrop : (frame.drop ethHeaderLen).length = frame.length - 14 := List.length_drop
  rw [hdrop]
  by_cases hlen : frame.length < 42
  · rw [if_pos hlen]
    by_cases hhdr : frame.length < ethHeaderLen
    · rw [if_pos hhdr]
      rfl
    · rw [if_neg hhdr, if_pos (by unfold ethHeaderLen at hhdr; omega), Option.bind_some]
      split_ifs <;> rfl
  · have hhdr : ¬ frame.length < ethHeaderLen := by
      unfold ethHeaderLen
      omega
    have harp : ¬ frame.length - 14 < 28 := by omega
    rw [if_neg hlen, if_neg hhdr, if_neg harp]
    simp only [Option.bind_some]
    by_cases hty : beU16 frame 12 = ethertypeArp
    · rw [if_neg (not_not.2 hty), if_pos hty]
      generalize frame.drop ethHeaderLen = arp
      generalize arp.getD 4 0 = hwLen
      generalize arp.getD 5 0 = protoLen
      by_cases hkind : beU16 arp 0 = 1 ∧ beU16 arp 2 = 0x0800 ∧ hwLen = 6 ∧ protoLen = 4
      · obtain ⟨h₁, h₂, rfl, rfl⟩ := hkind
        rw [if_neg (by simp [h₁, h₂])]
        by_cases hop : beU16 arp 6 = arpOpRequest ∧ bytesAt 4 arp 24 = ip
        · obtain ⟨h₃, h₄⟩ := hop
          rw [if_neg (not_not.2 h₃), if_neg (not_not.2 h₄),
            Option.filter_some_pos (by simp [ArpPacket.Requests, h₁, h₂, h₃, h₄])]
          simp [ArpPacket.answer, ArpPacket.asBytes, ArpPacket.fields]
        · rw [Option.filter_some_neg (by simpa [ArpPacket.Requests, h₁, h₂] using hop)]
          split_ifs with h₃ h₄
          · rfl
          · rfl
          · exact absurd ⟨not_not.1 h₃, not_not.1 h₄⟩ hop
      · rw [if_pos (by simpa only [ne_eq, ← not_and_or] using hkind), Option.filter_some_neg]
        · rfl
        · exact decide_eq_false fun h => hkind ⟨h.1, h.2.1, h.2.2.1, h.2.2.2.1⟩
    · rw [if_pos hty, if_neg hty]
      rfl

end Hitz.Net

import Hitz.Net.Frames

/-!
# ARP replies are exact (`build_arp_reply` in `hitz-net/src/ethernet.rs`)

`IsArpRequest` says by byte offsets when a frame asks for an address; `build_arp_reply` answers
exactly these frames.  Its reply is read back with the parsers, and since it is no request, nothing
answers it in turn.
-/

namespace Hitz.Net

/-- The ARP packet behind the Ethernet header of a frame. -/
def arpPacket (frame : List UInt8) : ArpPacket where
  hwType := beU16 frame 14
  protoType := beU16 frame 16
  hwLen := frame.getD 18 0
  protoLen := frame.getD 19 0
  op := beU16 frame 20
  senderHw := bytesAt 6 frame 22
  senderIp := bytesAt 4 frame 28
  targetHw := bytesAt 6 frame 32
  targetIp := bytesAt 4 frame 38

/-- The frame is an Ethernet/IPv4 ARP request for `ip`. -/
structure IsArpRequest (ip : Vector UInt8 4) (frame : List UInt8) : Prop where
  length : 42 ≤ frame.length
  ethertype : beU16 frame 12 = 0x0806
  hwType : (arpPacket frame).hwType = 1
  protoType : (arpPacket frame).protoType = 0x0800
  hwLen : (arpPacket frame).hwLen = 6
  protoLen : (arpPacket frame).protoLen = 4
  op : (arpPacket frame).op = 1
  targetIp : (arpPacket frame).targetIp = ip

/-- What the reply to a request has to be: 42 bytes to the sender of the request, and in them an ARP
reply from the gateway to that sender. -/
structure IsArpReply (mac : Vector UInt8 6) (ip : Vector UInt8 4) (request reply : List UInt8) :
    Prop where
  length : reply.length = 42
  header : parseEthHeader reply = some
    { dstMac := (arpPacket request).senderHw, srcMac := mac, ethertype := 0x0806 }
  packet : (stripEthHeader reply).bind ArpPacket.ofBytes = some
    { hwType := 1, protoType := 0x0800, hwLen := 6, protoLen := 4, op := 2
      senderHw := mac, senderIp := ip
      targetHw := (arpPacket request).senderHw, targetIp := (arpPacket request).senderIp }
  unanswered : ∀ mac' ip', buildArpReply reply mac' ip' = none

/-! ### Requests -/

theorem getD_drop (frame : List UInt8) (n i : ℕ) :
    (frame.drop n).getD i 0 = frame.getD (n + i) 0 := by
  simp only [List.getD_eq_getElem?_getD, List.getElem?_drop]

theorem beU16_drop (frame : List UInt8) (n i : ℕ) :
    beU16 (frame.drop n) i = beU16 frame (n + i) := by
  simp only [beU16, getD_drop, Nat.add_assoc]

theorem bytesAt_drop (k : ℕ) (frame : List UInt8) (n i : ℕ) :
    bytesAt k (frame.drop n) i = bytesAt k frame (n + i) := by
  simp only [bytesAt, getD_drop, Nat.add_assoc]

/-- The parser finds the packet where the offsets say. -/
theorem ofBytes_drop {frame : List UInt8} (h : 42 ≤ frame.length) :
    ArpPacket.ofBytes (frame.drop ethHeaderLen) = some (arpPacket frame) := by
  have hlen : ¬(frame.drop ethHeaderLen).length < 28 := by
    rw [List.length_drop]
    unfold ethHeaderLen
    omega
  rw [ArpPacket.ofBytes, if_neg hlen]
  simp only [beU16_drop, bytesAt_drop, getD_drop]
  rfl

/-- A frame holds a request exactly when its bytes say so. -/
theorem arpRequest_eq_some_iff {ip : Vector UInt8 4} {frame : List UInt8} {p : ArpPacket} :
    arpRequest ip frame = some p ↔ IsArpRequest ip frame ∧ p = arpPacket frame := by
  unfold arpRequest
  constructor
  · intro h
    obtain ⟨hdr, hhdr, h⟩ := Option.bind_eq_some_iff.1 h
    split_ifs at h with hty
    obtain ⟨hof, hreq⟩ := Option.filter_eq_some_iff.1 h
    have hlen : 42 ≤ frame.length := by
      by_contra hlt
      have hshort : (frame.drop ethHeaderLen).length < 28 := by
        rw [List.length_drop]
        unfold ethHeaderLen
        omega
      rw [ArpPacket.ofBytes, if_pos hshort] at hof
      cases hof
    rw [ofBytes_drop hlen] at hof
    obtain rfl := Option.some.inj hof
    obtain ⟨h₁, h₂, h₃, h₄, h₅, h₆⟩ := of_decide_eq_true hreq
    rw [parseEthHeader, if_neg (by unfold ethHeaderLen; omega)] at hhdr
    obtain rfl := Option.some.inj hhdr
    exact ⟨⟨hlen, hty, h₁, h₂, h₃, h₄, h₅, h₆⟩, rfl⟩
  · rintro ⟨h, rfl⟩
    have hlen := h.length
    have hty : beU16 frame 12 = ethertypeArp := h.ethertype
    rw [parseEthHeader, if_neg (by unfold ethHeaderLen; omega), Option.bind_some]
    dsimp only
    rw [if_pos hty, ofBytes_drop hlen]
    exact Option.filter_some_pos (decide_eq_true
      ⟨h.hwType, h.protoType, h.hwLen, h.protoLen, h.op, h.targetIp⟩)

/-- `build_arp_reply` answers a frame exactly when it is a request. -/
theorem buildArpReply_eq_some_iff {frame reply : List UInt8} {mac : Vector UInt8 6}
    {ip : Vector UInt8 4} : buildArpReply frame mac ip = some reply ↔ IsArpRequest ip frame ∧
      reply = buildEthFrame mac (arpPacket frame).senderHw ethertypeArp
        ((arpPacket frame).answer mac ip).asBytes := by
  rw [buildArpReply_eq, Option.map_eq_some_iff]
  constructor
  · rintro ⟨p, hp, rfl⟩
    obtain ⟨h, rfl⟩ := arpRequest_eq_some_iff.1 hp
    exact ⟨h, rfl⟩
  · rintro ⟨h, rfl⟩
    exact ⟨_, arpRequest_eq_some_iff.2 ⟨h, rfl⟩, rfl⟩

/-! ### Replies -/

/-- The packet of a frame that was put together is read back. -/
theorem ofBytes_strip_build (srcMac dstMac : Vector UInt8 6) (p : ArpPacket) :
    (stripEthHeader (buildEthFrame srcMac dstMac ethertypeArp p.asBytes)).bind
      ArpPacket.ofBytes = some p := by
  rw [stripEthHeader_build, Option.bind_some, ArpPacket.ofBytes_asBytes]

theorem length_arpFrame (srcMac dstMac : Vector UInt8 6) (p : ArpPacket) :
    (buildEthFrame srcMac dstMac ethertypeArp p.asBytes).length = 42 := by
  simp [buildEthFrame, ArpPacket.asBytes, ArpPacket.fields, beBytes16]

/-- A frame that was put together around a packet is a request only if the packet is. -/
theorem op_of_isArpRequest {srcMac dstMac : Vector UInt8 6} {p : ArpPacket} {ip : Vector UInt8 4}
    (h : IsArpRequest ip (buildEthFrame srcMac dstMac ethertypeArp p.asBytes)) : p.op = 1 := by
  have hback := ofBytes_strip_build srcMac dstMac p
  have hlen : ¬(buildEthFrame srcMac dstMac ethertypeArp p.asBytes).length < ethHeaderLen := by
    rw [length_arpFrame]
    decide
  rw [stripEthHeader, if_neg hlen, Option.bind_some, ofBytes_drop h.length] at hback
  rw [← Option.some.inj hback, h.op]

/-- **ARP replies are exact.**  A frame is answered if and only if it is a request for the gateway,
and the answer is the reply that it asks for. -/
theorem arp_replies_exact (frame : List UInt8) (mac : Vector UInt8 6) (ip : Vector UInt8 4) :
    ((buildArpReply frame mac ip).isSome = true ↔ IsArpRequest ip frame) ∧
      ∀ reply ∈ buildArpReply frame mac ip, IsArpReply mac ip frame reply := by
  constructor
  · rw [Option.isSome_iff_exists]
    constructor
    · rintro ⟨reply, h⟩
      exact (buildArpReply_eq_some_iff.1 h).1
    · exact fun h => ⟨_, buildArpReply_eq_some_iff.2 ⟨h, rfl⟩⟩
  · intro reply h
    obtain ⟨-, rfl⟩ := buildArpReply_eq_some_iff.1 h
    refine ⟨length_arpFrame _ _ _, parseEthHeader_build _ _ _ _, ofBytes_strip_build _ _ _, ?_⟩
    intro mac' ip'
    rw [Option.eq_none_iff_forall_ne_some]
    intro reply' hreply
    have hop := op_of_isArpRequest (buildArpReply_eq_some_iff.1 hreply).1
    cases hop

end Hitz.Net

import Hitz.Devices.Transmit
import Hitz.Lib.Channel
import Hitz.Lib.Runs
import Hitz.Net.Frames

/-!
# The network bridge (`net_io_loop` in `hitz-net/src/wintun_io.rs`)

A thread moves frames between the guest's network device and the host's adapter.  It runs next to
the virtual processors, so its steps (`thread`) interleave with turns of `process_tx` (`transmit`),
with `poll_rx`, with packets that arrive at the adapter and with the request to stop.

* `Faithful`: what the thread has sent is what the frames and packets it has received ask for;
* `Drains`: left alone, it receives everything that waits for it;
* `bridge_faithful`: both hold in every state of every run.
-/

namespace Hitz.Net

open Devices Runs

/-- The addresses `net_io_loop` is given. -/
structure BridgeConfig where
  guestMac : Vector UInt8 6
  gatewayMac : Vector UInt8 6
  gatewayIp : Vector UInt8 4

/-- Where the thread is: before it looks at the stop flag, before the next `try_recv`, before
`try_receive`, or gone. -/
inductive BridgePc
  | top
  | drain
  | receive
  | exited
  deriving DecidableEq, Repr

/-- The device, the adapter's two queues and the thread between them.  The frames of the device
are received from `dev.txSent`, the first `txTaken` of them so far; `toGuest` has everything that
was put into the channel to the device. -/
structure Bridge where
  dev : VirtioNetDevice
  txTaken : ℕ := 0
  adapterRx : Channel (List UInt8) := {}
  adapterTx : List (List UInt8) := []
  truncated : Bool := false
  toGuest : List (List UInt8) := []
  stopFlag : Bool := false
  pc : BridgePc := .top

namespace Bridge

/-- The channel from the device. -/
def tx (b : Bridge) : Channel (List UInt8) := ⟨b.dev.txSent, b.txTaken⟩

/-- `tx_receiver.try_recv`. -/
def tryRecv (b : Bridge) : Option (List UInt8 × Bridge) :=
  b.tx.tryRecv.map fun p => (p.1, { b with txTaken := p.2.taken })

/-- `session.try_receive`, when it does not fail. -/
def tryReceive (b : Bridge) : Option (List UInt8 × Bridge) :=
  b.adapterRx.tryRecv.map fun p => (p.1, { b with adapterRx := p.2 })

/-- `rx_sender.send`. -/
def sendToGuest (b : Bridge) (frame : List UInt8) : Bridge :=
  { b with
    toGuest := b.toGuest ++ [frame]
    dev := { b.dev with rxChannel := b.dev.rxChannel ++ [frame] } }

/-- `send_to_wintun`: a packet of `size` bytes is allocated, filled and sent. -/
def sendToWintun (b : Bridge) (ipPacket : List UInt8) : Bridge :=
  let len := ipPacket.length
  let size : UInt16 := if 65535 < len then 65535 else UInt16.ofNat len
  let dest : List UInt8 := List.replicate size.toNat 0
  let copyLen := min dest.length ipPacket.length
  { b with
    adapterTx := b.adapterTx ++ [ipPacket.take copyLen ++ dest.drop copyLen]
    truncated := b.truncated || decide (65535 < len) }

/-- What the loop does with a frame of the guest. -/
def handleFrame (cfg : BridgeConfig) (frame : List UInt8) (b : Bridge) : Bridge :=
  match parseEthHeader frame with
  | none => b
  | some hdr =>
    if hdr.ethertype = ethertypeArp then
      match buildArpReply frame cfg.gatewayMac cfg.gatewayIp with
      | some reply => b.sendToGuest reply
      | none => b
    else if hdr.ethertype = ethertypeIpv4 ∨ hdr.ethertype = ethertypeIpv6 then
      match stripEthHeader frame with
      | some ipPacket => b.sendToWintun ipPacket
      | none => b
    else b

/-- The frame for a packet from the adapter. -/
def wrap (cfg : BridgeConfig) (packet : List UInt8) : List UInt8 :=
  buildEthFrame cfg.gatewayMac cfg.guestMac (ethertypeFromIp packet) packet

/-- The thread goes on at `pc`. -/
def goto (b : Bridge) (pc : BridgePc) : Bridge := { b with pc }

/-- The thread ends, and with it its end of the channel from the device. -/
def exit (b : Bridge) : Bridge :=
  { b with pc := .exited, dev := { b.dev with txConnected := false } }

/-- One step of the loop; `fails` says whether `try_receive` returns an error. -/
def threadStep (cfg : BridgeConfig) (fails : Bool) (b : Bridge) : Bridge :=
  match b.pc with
  | .top => if b.stopFlag then b.exit else b.goto .drain
  | .drain =>
    match b.tryRecv with
    | some (frame, b) => handleFrame cfg frame b
    | none => b.goto .receive
  | .receive =>
    if fails then b.exit
    else
      match b.tryReceive with
      | some (packet, b) => (b.sendToGuest (wrap cfg packet)).goto .top
      | none => b.goto .top
  | .exited => b

/-- What happens next. -/
inductive Event (M : Type)
  | transmit (queue : VirtQueue) (mem : M)
  | pollRx (queue : VirtQueue) (mem : M)
  | arrive (packet : List UInt8)
  | stop
  | thread (fails : Bool)

variable {M : Type} [ByteStore M]

/-- One event.  `transmit` is one turn of `process_tx`, with the queue and the memory as the device
finds them. -/
def step (cfg : BridgeConfig) (b : Bridge) : Event M → Bridge
  | .transmit queue mem =>
    { b with dev := (turns VirtioNetDevice.serveTx 1 { dev := b.dev, queue, mem }).dev }
  | .pollRx queue mem => { b with dev := (b.dev.pollRx queue mem).2.dev }
  | .arrive packet => { b with adapterRx := b.adapterRx.send packet }
  | .stop => { b with stopFlag := true }
  | .thread fails => threadStep cfg fails b

/-! ### What the bridge is for -/

/-- The payload of an IPv4 or IPv6 frame. -/
def ipPayload (frame : List UInt8) : Option (List UInt8) :=
  (parseEthHeader frame).bind fun hdr =>
    if hdr.ethertype = ethertypeIpv4 ∨ hdr.ethertype = ethertypeIpv6 then
      some (frame.drop ethHeaderLen)
    else none

/-- The version in the first byte of an IP packet. -/
def ipVersion (packet : List UInt8) : Option ℕ := packet.head?.map fun b => b.toNat / 16

/-- The frame tells the sender of the request that the gateway's address is at the gateway. -/
structure Answers (cfg : BridgeConfig) (request : ArpPacket) (frame : List UInt8) : Prop where
  header : parseEthHeader frame =
    some { dstMac := request.senderHw, srcMac := cfg.gatewayMac, ethertype := ethertypeArp }
  reply : (stripEthHeader frame).bind ArpPacket.ofBytes =
    some (request.answer cfg.gatewayMac cfg.gatewayIp)

/-- The frame carries the packet from the gateway to the guest. -/
structure Carries (cfg : BridgeConfig) (packet frame : List UInt8) : Prop where
  payload : stripEthHeader frame = some packet
  header : ∃ ethertype, parseEthHeader frame =
      some { dstMac := cfg.guestMac, srcMac := cfg.gatewayMac, ethertype } ∧
    (ipVersion packet = some 4 → ethertype = ethertypeIpv4) ∧
    (ipVersion packet = some 6 → ethertype = ethertypeIpv6)

/-- The adapter got the payloads of the guest's IP frames, none of them truncated; the guest got
the answers to its requests for the gateway and the packets of the adapter. -/
structure Faithful (cfg : BridgeConfig) (b : Bridge) : Prop where
  toAdapter : b.adapterTx = b.tx.received.filterMap ipPayload
  complete : b.truncated = false
  toGuest : ∃ replies frames, Merge replies frames b.toGuest ∧
    List.Forall₂ (Answers cfg) (b.tx.received.filterMap (arpRequest cfg.gatewayIp)) replies ∧
    List.Forall₂ (Carries cfg) b.adapterRx.received frames

/-- While it is not told to stop, the thread on its own receives all that waits for it. -/
def Drains (cfg : BridgeConfig) (b : Bridge) : Prop :=
  b.pc ≠ .exited → b.stopFlag = false → ∃ n,
    ((threadStep cfg false)^[n] b).tx.waiting = [] ∧
    ((threadStep cfg false)^[n] b).adapterRx.waiting = [] ∧
    ((threadStep cfg false)^[n] b).dev.txSent = b.dev.txSent ∧
    ((threadStep cfg false)^[n] b).adapterRx.sent = b.adapterRx.sent

/-! ### The frames of the device -/

/-- The device sends no frame that is too long for the adapter. -/
def Small (frame : List UInt8) : Prop := frame.length ≤ maxGather - virtioNetHdrSize

theorem taken_le (mem : M) (ds : List Descriptor) {n : ℕ} (h : n ≤ maxGather) :
    taken mem ds n ≤ maxGather := by
  induction ds generalizing n with
  | nil => exact h
  | cons d ds ih =>
    rw [taken]
    split_ifs with hw hcap hm
    · exact ih h
    · exact h
    · exact ih (by omega)
    · exact ih h

/-- Serving a chain sends small frames only. -/
theorem small_serveTx {dev : VirtioNetDevice} (h : ∀ f ∈ dev.txSent, Small f)
    (chain : DescriptorChain) (mem : M) :
    ∀ f ∈ (dev.serveTx chain mem).dev.txSent, Small f := by
  have hsent := netTransmitter.sent_serve dev chain mem
  have hsent : (dev.serveTx chain mem).dev.txSent = _ := hsent
  rw [hsent]
  intro f hf
  rcases List.mem_append.1 hf with hf | hf
  · exact h f hf
  have hout : netTransmitter.out chain mem = some f := by
    split_ifs at hf with hc
    · exact Option.mem_toList.1 hf
    · cases hf
  simp only [netTransmitter, gathered_eq] at hout
  have hlen := length_foldBody_txBody mem (chain.descriptors mem) []
  have hle := taken_le mem (chain.descriptors mem) (Nat.zero_le maxGather)
  split_ifs at hout
  cases hout
  rw [Small, List.length_drop, hlen]
  exact Nat.sub_le_sub_right hle _

theorem small_turn {dev : VirtioNetDevice} (h : ∀ f ∈ dev.txSent, Small f) (queue : VirtQueue)
    (mem : M) :
    ∀ f ∈ (turns VirtioNetDevice.serveTx 1 { dev, queue, mem }).dev.txSent, Small f := by
  refine turns_invariant (I := fun s : LoopState VirtioNetDevice M => ∀ f ∈ s.dev.txSent, Small f)
    h (fun k s hs hstep => ?_) 1
  obtain ⟨chain, queue', -, rfl⟩ := drainStep_eq_some hstep
  exact small_serveTx hs chain _

/-- A turn of `process_tx` only adds frames. -/
theorem txSent_turn (dev : VirtioNetDevice) (queue : VirtQueue) (mem : M) :
    dev.txSent <+: (turns VirtioNetDevice.serveTx 1 { dev, queue, mem }).dev.txSent := by
  refine turns_invariant (I := fun s : LoopState VirtioNetDevice M => dev.txSent <+: s.dev.txSent)
    (List.prefix_refl _) (fun k s hs hstep => ?_) 1
  obtain ⟨chain, queue', -, rfl⟩ := drainStep_eq_some hstep
  exact hs.trans ⟨_, (netTransmitter.sent_serve _ chain _).symm⟩

theorem txSent_pollRx (dev : VirtioNetDevice) (queue : VirtQueue) (mem : M) :
    (dev.pollRx queue mem).2.dev.txSent = dev.txSent := by
  unfold VirtioNetDevice.pollRx VirtioNetDevice.deliverRx
  split
  · rfl
  · split
    · rfl
    · dsimp only
      split_ifs <;> rfl

/-! ### One frame, one packet -/

/-- A small packet is sent whole. -/
theorem sendToWintun_eq {b : Bridge} {packet : List UInt8} (h : packet.length ≤ 65535) :
    b.sendToWintun packet = { b with adapterTx := b.adapterTx ++ [packet] } := by
  have hsize : (UInt16.ofNat packet.length).toNat = packet.length :=
    UInt16.toNat_ofNat_of_lt' (by show _ < 65536; omega)
  unfold sendToWintun
  simp [Nat.not_lt.2 h, hsize]

/-- The answers to a frame. -/
def repliesTo (cfg : BridgeConfig) (frame : List UInt8) : List (List UInt8) :=
  ((arpRequest cfg.gatewayIp frame).map fun p =>
    buildEthFrame cfg.gatewayMac p.senderHw ethertypeArp
      (p.answer cfg.gatewayMac cfg.gatewayIp).asBytes).toList

/-- Everything that happens to a small frame. -/
theorem handleFrame_eq (cfg : BridgeConfig) {frame : List UInt8} (h : Small frame) (b : Bridge) :
    handleFrame cfg frame b = { b with
      adapterTx := b.adapterTx ++ (ipPayload frame).toList
      toGuest := b.toGuest ++ repliesTo cfg frame
      dev := { b.dev with rxChannel := b.dev.rxChannel ++ repliesTo cfg frame } } := by
  unfold handleFrame
  cases hhdr : parseEthHeader frame with
  | none => simp [ipPayload, repliesTo, arpRequest, hhdr]
  | some hdr =>
    dsimp only
    split_ifs with harp hip
    · -- for the guest, if it asks for the gateway
      have hnot : ¬ (hdr.ethertype = ethertypeIpv4 ∨ hdr.ethertype = ethertypeIpv6) := by
        rw [harp]
        decide
      rw [ipPayload, hhdr, Option.bind_some, if_neg hnot, buildArpReply_eq, repliesTo]
      cases arpRequest cfg.gatewayIp frame with
      | none => simp
      | some p => simp [sendToGuest]
    · -- for the adapter
      have hlen : ¬ frame.length < ethHeaderLen := by
        intro hlt
        rw [parseEthHeader, if_pos hlt] at hhdr
        cases hhdr
      have hpacket : (frame.drop ethHeaderLen).length ≤ 65535 := by
        rw [List.length_drop]
        simp only [Small, maxGather, virtioNetHdrSize] at h
        omega
      rw [stripEthHeader, if_neg hlen]
      dsimp only
      rw [sendToWintun_eq hpacket, ipPayload, hhdr, Option.bind_some, if_pos hip, repliesTo,
        arpRequest, hhdr, Option.bind_some, if_neg harp]
      simp
    · rw [ipPayload, hhdr, Option.bind_some, if_neg hip, repliesTo, arpRequest, hhdr,
        Option.bind_some, if_neg harp]
      simp

theorem answers_reply (cfg : BridgeConfig) (p : ArpPacket) :
    Answers cfg p (buildEthFrame cfg.gatewayMac p.senderHw ethertypeArp
      (p.answer cfg.gatewayMac cfg.gatewayIp).asBytes) where
  header := parseEthHeader_build ..
  reply := by rw [stripEthHeader_build, Option.bind_some, ArpPacket.ofBytes_asBytes]

theorem carries_wrap (cfg : BridgeConfig) (packet : List UInt8) :
    Carries cfg packet (wrap cfg packet) where
  payload := stripEthHeader_build ..
  header := by
    refine ⟨_, parseEthHeader_build .., ?_, ?_⟩
    · cases packet with
      | nil => exact fun _ => rfl
      | cons b _ =>
        intro h
        have hb : b.toNat / 16 = 4 := Option.some.inj h
        rw [ethertypeFromIp, hb, if_neg (by decide)]
    · cases packet with
      | nil => exact fun h => absurd h (by decide)
      | cons b _ =>
        intro h
        have hb : b.toNat / 16 = 6 := Option.some.inj h
        rw [ethertypeFromIp, hb, if_pos rfl]

/-! ### Receiving -/

theorem tryRecv_eq_none {b : Bridge} (h : b.tryRecv = none) : b.tx.waiting = [] :=
  Channel.tryRecv_eq_none (Option.map_eq_none_iff.1 h)

theorem tryRecv_eq_some {b b' : Bridge} {frame : List UInt8} (h : b.tryRecv = some (frame, b')) :
    b' = { b with txTaken := b.txTaken + 1 } ∧ b'.tx.Sound ∧
      b'.tx.received = b.tx.received ++ [frame] ∧ b.tx.waiting = frame :: b'.tx.waiting := by
  obtain ⟨p, hrecv, heq⟩ := Option.map_eq_some_iff.1 h
  obtain ⟨rfl, rfl⟩ := Prod.mk.inj heq
  obtain ⟨htx, hsound, hreceived, hwaiting⟩ := Channel.tryRecv_eq_some hrecv
  rw [htx] at hsound hreceived hwaiting
  rw [htx]
  exact ⟨rfl, hsound, hreceived, hwaiting⟩

theorem tryReceive_eq_none {b : Bridge} (h : b.tryReceive = none) : b.adapterRx.waiting = [] :=
  Channel.tryRecv_eq_none (Option.map_eq_none_iff.1 h)

theorem tryReceive_eq_some {b b' : Bridge} {packet : List UInt8}
    (h : b.tryReceive = some (packet, b')) :
    b' = { b with adapterRx := { b.adapterRx with taken := b.adapterRx.taken + 1 } } ∧
      b'.adapterRx.Sound ∧ b'.adapterRx.received = b.adapterRx.received ++ [packet] ∧
      b.adapterRx.waiting = packet :: b'.adapterRx.waiting := by
  obtain ⟨p, hrecv, heq⟩ := Option.map_eq_some_iff.1 h
  obtain ⟨rfl, rfl⟩ := Prod.mk.inj heq
  obtain ⟨hrx, hsound, hreceived, hwaiting⟩ := Channel.tryRecv_eq_some hrecv
  exact ⟨by rw [hrx], hsound, hreceived, hwaiting⟩

/-! ### Runs -/

/-- What the bridge keeps. -/
structure Inv (cfg : BridgeConfig) (b : Bridge) : Prop where
  faithful : Faithful cfg b
  small : ∀ f ∈ b.dev.txSent, Small f
  tx : b.tx.Sound
  adapterRx : b.adapterRx.Sound

/-- Nothing that was sent changes when only the queues in front of the thread grow. -/
theorem Inv.of_prefix {cfg : BridgeConfig} {b b' : Bridge} (h : Inv cfg b)
    (hsmall : ∀ f ∈ b'.dev.txSent, Small f) (hdev : b.dev.txSent <+: b'.dev.txSent)
    (htaken : b'.txTaken = b.txTaken) (hrx : b.adapterRx.sent <+: b'.adapterRx.sent)
    (hrxTaken : b'.adapterRx.taken = b.adapterRx.taken) (hadapter : b'.adapterTx = b.adapterTx)
    (htrunc : b'.truncated = b.truncated) (hguest : b'.toGuest = b.toGuest) : Inv cfg b' := by
  have hreceived : b'.tx.received = b.tx.received ∧ b'.tx.Sound :=
    Channel.received_of_prefix h.tx hdev htaken
  obtain ⟨htx, htxSound⟩ := hreceived
  obtain ⟨hrx, hrxSound⟩ := Channel.received_of_prefix h.adapterRx hrx hrxTaken
  obtain ⟨⟨htoAdapter, hcomplete, htoGuest⟩, -, -, -⟩ := h
  refine ⟨⟨?_, ?_, ?_⟩, hsmall, htxSound, hrxSound⟩
  · rw [hadapter, htx, htoAdapter]
  · rw [htrunc, hcomplete]
  · rw [hguest, htx, hrx]
    exact htoGuest

/-- The queues in front of the thread stay as they are. -/
theorem Inv.of_eq {cfg : BridgeConfig} {b b' : Bridge} (h : Inv cfg b)
    (hdev : b'.dev.txSent = b.dev.txSent) (htaken : b'.txTaken = b.txTaken)
    (hrx : b'.adapterRx = b.adapterRx) (hadapter : b'.adapterTx = b.adapterTx)
    (htrunc : b'.truncated = b.truncated) (hguest : b'.toGuest = b.toGuest) : Inv cfg b' := by
  refine h.of_prefix ?_ (by rw [hdev]) htaken (by rw [hrx]) (by rw [hrx]) hadapter htrunc hguest
  rw [hdev]
  exact h.small

theorem Inv.goto {cfg : BridgeConfig} {b : Bridge} (h : Inv cfg b) (pc : BridgePc) :
    Inv cfg (b.goto pc) := h.of_eq rfl rfl rfl rfl rfl rfl

theorem Inv.exit {cfg : BridgeConfig} {b : Bridge} (h : Inv cfg b) : Inv cfg b.exit :=
  h.of_eq rfl rfl rfl rfl rfl rfl

/-- A frame is received and handled. -/
theorem Inv.handle {cfg : BridgeConfig} {b b' : Bridge} {frame : List UInt8} (h : Inv cfg b)
    (hrecv : b.tryRecv = some (frame, b')) : Inv cfg (handleFrame cfg frame b') := by
  obtain ⟨rfl, hsound, hreceived, hwaiting⟩ := tryRecv_eq_some hrecv
  have hmem : frame ∈ b.tx.sent := by
    rw [← b.tx.received_append_waiting, hwaiting]
    exact List.mem_append_right _ (List.mem_cons_self ..)
  obtain ⟨htoAdapter, hcomplete, replies, frames, hmerge, hreplies, hframes⟩ := h.faithful
  rw [handleFrame_eq cfg (h.small frame hmem)]
  have htx : (b.tx.received ++ [frame]) = List.take (b.txTaken + 1) b.dev.txSent := hreceived.symm
  refine ⟨⟨?_, hcomplete, ?_⟩, h.small, hsound, h.adapterRx⟩
  · show b.adapterTx ++ (ipPayload frame).toList =
      (List.take (b.txTaken + 1) b.dev.txSent).filterMap ipPayload
    rw [← htx, List.filterMap_append, ← htoAdapter]
    rfl
  · show ∃ replies frames, Merge replies frames (b.toGuest ++ repliesTo cfg frame) ∧
      List.Forall₂ _ ((List.take (b.txTaken + 1) b.dev.txSent).filterMap _) _ ∧
      List.Forall₂ _ b.adapterRx.received _
    rw [← htx, List.filterMap_append, repliesTo]
    cases hreq : arpRequest cfg.gatewayIp frame with
    | none =>
      refine ⟨replies, frames, ?_, ?_, hframes⟩
      · simpa using hmerge
      · simpa [hreq] using hreplies
    | some p =>
      refine ⟨replies ++ [_], frames, hmerge.left _, ?_, hframes⟩
      simpa [hreq] using List.rel_append hreplies
        (List.Forall₂.cons (answers_reply cfg p) List.Forall₂.nil)

/-- A packet is received and sent on. -/
theorem Inv.receive {cfg : BridgeConfig} {b b' : Bridge} {packet : List UInt8} (h : Inv cfg b)
    (hrecv : b.tryReceive = some (packet, b')) : Inv cfg (b'.sendToGuest (wrap cfg packet)) := by
  obtain ⟨rfl, hsound, hreceived, -⟩ := tryReceive_eq_some hrecv
  obtain ⟨htoAdapter, hcomplete, replies, frames, hmerge, hreplies, hframes⟩ := h.faithful
  refine ⟨⟨htoAdapter, hcomplete, replies, frames ++ [wrap cfg packet], hmerge.right _, hreplies,
    ?_⟩, h.small, h.tx, hsound⟩
  have hcarried : List.Forall₂ (Carries cfg) (b.adapterRx.received ++ [packet])
      (frames ++ [wrap cfg packet]) := List.rel_append hframes
    (List.Forall₂.cons (carries_wrap cfg packet) List.Forall₂.nil)
  rwa [← hreceived] at hcarried

theorem Inv.threadStep {cfg : BridgeConfig} {b : Bridge} (h : Inv cfg b) (fails : Bool) :
    Inv cfg (b.threadStep cfg fails) := by
  unfold Bridge.threadStep
  cases b.pc with
  | top =>
    dsimp only
    split_ifs
    · exact h.exit
    · exact h.goto .drain
  | drain =>
    dsimp only
    cases hrecv : b.tryRecv with
    | none => exact h.goto .receive
    | some p => exact h.handle hrecv
  | receive =>
    dsimp only
    split_ifs
    · exact h.exit
    · cases hrecv : b.tryReceive with
      | none => exact h.goto .top
      | some p => exact (h.receive hrecv).goto .top
  | exited => exact h

theorem Inv.step {cfg : BridgeConfig} {b : Bridge} (h : Inv cfg b) (e : Event M) :
    Inv cfg (step cfg b e) := by
  cases e with
  | transmit queue mem =>
    refine h.of_prefix ?_ ?_ rfl (List.prefix_refl _) rfl rfl rfl rfl
    · exact small_turn h.small queue mem
    · exact txSent_turn b.dev queue mem
  | pollRx queue mem => exact h.of_eq (txSent_pollRx b.dev queue mem) rfl rfl rfl rfl rfl
  | arrive packet =>
    exact h.of_prefix h.small (List.prefix_refl _) rfl ⟨[packet], rfl⟩ rfl rfl rfl rfl
  | stop => exact h.of_eq rfl rfl rfl rfl rfl rfl
  | thread fails => exact h.threadStep fails

/-! ### Nothing is left waiting -/

/-- The steps to the next that receives a frame, or a packet if `n` of them wait. -/
def rank : BridgePc → ℕ → ℕ
  | .top, _ => 3
  | .drain, _ => 2
  | .receive, 0 => 4
  | .receive, _ + 1 => 1
  | .exited, _ => 0

/-- How far the thread is from having received everything. -/
def distance (b : Bridge) : ℕ :=
  5 * (b.tx.waiting.length + b.adapterRx.waiting.length) + rank b.pc b.adapterRx.waiting.length

/-- The queues in front of the thread and the stop flag are not changed by handling a frame. -/
theorem handleFrame_frame (cfg : BridgeConfig) (frame : List UInt8) (b : Bridge) :
    (handleFrame cfg frame b).dev.txSent = b.dev.txSent ∧
    (handleFrame cfg frame b).txTaken = b.txTaken ∧
    (handleFrame cfg frame b).adapterRx = b.adapterRx ∧
    (handleFrame cfg frame b).stopFlag = b.stopFlag ∧ (handleFrame cfg frame b).pc = b.pc := by
  unfold handleFrame
  split
  · exact ⟨rfl, rfl, rfl, rfl, rfl⟩
  · split_ifs
    · split <;> exact ⟨rfl, rfl, rfl, rfl, rfl⟩
    · split <;> exact ⟨rfl, rfl, rfl, rfl, rfl⟩
    · exact ⟨rfl, rfl, rfl, rfl, rfl⟩

/-- The bridge after a step, with the thread still running and closer to having received all. -/
structure Closer (b b' : Bridge) : Prop where
  running : b'.pc ≠ .exited
  stopFlag : b'.stopFlag = false
  txSent : b'.dev.txSent = b.dev.txSent
  rxSent : b'.adapterRx.sent = b.adapterRx.sent
  lt : b'.distance < b.distance

/-- Going on to a place from where fewer steps are left. -/
theorem closer_goto {b : Bridge} (hstop : b.stopFlag = false) {pc : BridgePc} (hpc : pc ≠ .exited)
    (hrank : rank pc b.adapterRx.waiting.length < rank b.pc b.adapterRx.waiting.length) :
    Closer b (b.goto pc) :=
  ⟨hpc, hstop, rfl, rfl, Nat.add_lt_add_left hrank _⟩

/-- A frame is handled, and one less waits. -/
theorem closer_handleFrame (cfg : BridgeConfig) {b b' : Bridge} {frame : List UInt8}
    (hstop : b.stopFlag = false) (hat : b.pc = .drain) (hrecv : b.tryRecv = some (frame, b')) :
    Closer b (handleFrame cfg frame b') := by
  obtain ⟨hb', -, -, hwaiting⟩ := tryRecv_eq_some hrecv
  obtain ⟨hsent, htaken, hrx, hflag, hpc⟩ := handleFrame_frame cfg frame b'
  have hat' : b'.pc = .drain := by rw [hb', hat]
  have hrx' : b'.adapterRx = b.adapterRx := by rw [hb']
  constructor
  case running =>
    rw [hpc, hat']
    exact nofun
  case stopFlag => rw [hflag, hb', hstop]
  case txSent => rw [hsent, hb']
  case rxSent => rw [hrx, hrx']
  case lt =>
    have hnew : (handleFrame cfg frame b').distance =
        5 * (b'.tx.waiting.length + b.adapterRx.waiting.length) + 2 := by
      rw [distance, tx, hsent, htaken, hrx, hpc, hat', hrx', rank]
      rfl
    rw [hnew, distance, hat, hwaiting, List.length_cons, rank]
    omega

/-- A packet is passed on, and one less waits. -/
theorem closer_sendToGuest (cfg : BridgeConfig) {b b' : Bridge} {packet : List UInt8}
    (hstop : b.stopFlag = false) (hat : b.pc = .receive)
    (hrecv : b.tryReceive = some (packet, b')) :
    Closer b ((b'.sendToGuest (wrap cfg packet)).goto .top) := by
  obtain ⟨hb', -, -, hwaiting⟩ := tryReceive_eq_some hrecv
  have htx : b'.tx = b.tx := by rw [hb']; rfl
  constructor
  case running => exact nofun
  case stopFlag =>
    rw [hb']
    exact hstop
  case txSent =>
    rw [hb']
    rfl
  case rxSent =>
    rw [hb']
    rfl
  case lt =>
    have hnew : ((b'.sendToGuest (wrap cfg packet)).goto .top).distance =
        5 * (b'.tx.waiting.length + b'.adapterRx.waiting.length) + 3 := rfl
    rw [hnew, distance, hat, htx, hwaiting, List.length_cons, rank]
    omega

/-- A step brings a running thread closer, as long as something waits. -/
theorem closer_threadStep (cfg : BridgeConfig) {b : Bridge} (hpc : b.pc ≠ .exited)
    (hstop : b.stopFlag = false) (hwait : ¬ (b.tx.waiting = [] ∧ b.adapterRx.waiting = [])) :
    Closer b (threadStep cfg false b) := by
  cases hat : b.pc with
  | exited => exact absurd hat hpc
  | top =>
    have hnext : threadStep cfg false b = b.goto .drain := by simp [threadStep, hat, hstop]
    rw [hnext]
    refine closer_goto hstop (by decide) ?_
    rw [hat, rank, rank]
    omega
  | drain =>
    cases hrecv : b.tryRecv with
    | none =>
      -- the packets of the adapter are what is left
      have hnext : threadStep cfg false b = b.goto .receive := by simp [threadStep, hat, hrecv]
      obtain ⟨k, hk⟩ := Nat.exists_eq_succ_of_ne_zero fun h =>
        hwait ⟨tryRecv_eq_none hrecv, List.eq_nil_of_length_eq_zero h⟩
      rw [hnext]
      refine closer_goto hstop (by decide) ?_
      rw [hat, hk, rank, rank]
      omega
    | some p =>
      obtain ⟨frame, b'⟩ := p
      have hnext : threadStep cfg false b = handleFrame cfg frame b' := by
        simp [threadStep, hat, hrecv]
      rw [hnext]
      exact closer_handleFrame cfg hstop hat hrecv
  | receive =>
    cases hrecv : b.tryReceive with
    | none =>
      have hnext : threadStep cfg false b = b.goto .top := by simp [threadStep, hat, hrecv]
      rw [hnext]
      refine closer_goto hstop (by decide) ?_
      rw [hat, tryReceive_eq_none hrecv, List.length_nil, rank, rank]
      omega
    | some p =>
      obtain ⟨packet, b'⟩ := p
      have hnext : threadStep cfg false b = (b'.sendToGuest (wrap cfg packet)).goto .top := by
        simp [threadStep, hat, hrecv]
      rw [hnext]
      exact closer_sendToGuest cfg hstop hat hrecv

theorem drains (cfg : BridgeConfig) (b : Bridge) : Drains cfg b := by
  intro hpc hstop
  induction hd : b.distance using Nat.strong_induction_on generalizing b with
  | _ d ih =>
    by_cases hwait : b.tx.waiting = [] ∧ b.adapterRx.waiting = []
    · exact ⟨0, hwait.1, hwait.2, rfl, rfl⟩
    · obtain ⟨hpc', hstop', hsent, hrx, hlt⟩ := closer_threadStep cfg hpc hstop hwait
      obtain ⟨n, htx, hadapter, hsent', hrx'⟩ := ih _ (hd ▸ hlt) _ hpc' hstop' rfl
      exact ⟨n + 1, htx, hadapter, hsent'.trans hsent, hrx'.trans hrx⟩

/-- The bridge as it starts. -/
def start (mac : Vector UInt8 6) : Bridge := { dev := { mac := mac.toList } }

/-- In every state of every run, what was sent to either side is what was received from the other
asks for, complete and in order, and nothing is left waiting for good. -/
theorem bridge_faithful (cfg : BridgeConfig) (mac : Vector UInt8 6) (events : List (Event M)) :
    Always (step cfg) (start mac) (fun b => Faithful cfg b ∧ Drains cfg b) events := by
  have hstart : Inv cfg (start mac) := by
    refine ⟨⟨rfl, rfl, [], [], Merge.nil, List.Forall₂.nil, List.Forall₂.nil⟩, ?_, ?_, ?_⟩
    · exact fun f hf => absurd hf (List.not_mem_nil)
    · exact Nat.le_refl 0
    · exact Nat.le_refl 0
  have hrun : Always (step cfg) (start mac) (Inv cfg) events :=
    always_of_step hstart fun b e hb => hb.step e
  exact fun before after heq => ⟨(hrun before after heq).faithful, drains cfg _⟩

end Bridge

end Hitz.Net

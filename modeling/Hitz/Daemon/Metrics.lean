import Hitz.Devices.Vsock
import Hitz.Lib.Framing

/-!
# Guest metrics (`hitz-daemon/src/vsock_server.rs`, `send_snapshot` of `hitz-guest-agent`)

The agent writes each snapshot to a stream, first its length and then its encoding.  The guest's
driver cuts the stream into packets, and `handle_packet` looks for a snapshot in each packet on its
own: it keeps nothing from one packet to the next.

`snapshots_published` says when the snapshots arrive: when each packet that is not empty is a length
and its encoding, as no driver makes them (`write_per_packet`).

The encoding is that of `rmp_serde`, of which only the round trip is used.
-/

namespace Hitz.Daemon

open Bytes Devices

variable {S : Type}

/-- `VSOCK_METRICS_PORT`. -/
def vsockMetricsPort : UInt32 := 52355

/-- `rmp_serde` on snapshots. -/
structure Serde (S : Type) where
  toVec : S → Option (List UInt8)
  fromSlice : List UInt8 → Option S
  fromSlice_toVec : ∀ {snap bytes}, toVec snap = some bytes → fromSlice bytes = some snap

namespace Serde

variable (serde : Serde S)

/-- The length of an encoding as `send_snapshot` writes it. -/
def lengthBytes (encoded : List UInt8) : List UInt8 :=
  leBytes 4 (if encoded.length < 2 ^ 32 then encoded.length else 2 ^ 32 - 1)

/-- `send_snapshot`: what it writes, `none` when the snapshot cannot be encoded. -/
def sendSnapshot (snap : S) : Option (List (List UInt8)) :=
  (serde.toVec snap).map fun encoded => [lengthBytes encoded, encoded]

/-- The snapshots that are sent. -/
def sent (snaps : List S) : List S := snaps.filter fun snap => (serde.sendSnapshot snap).isSome

/-- What is written for each of them. -/
def frames (snaps : List S) : List (List UInt8) :=
  snaps.filterMap fun snap => (serde.sendSnapshot snap).map List.flatten

end Serde

/-- The metrics task of a VM. -/
structure MetricsTask (S : Type) where
  fwdCnt : UInt32 := 0
  /-- The snapshots given to `publish_to_otel`. -/
  published : List S := []
  /-- The packets given to `try_send`. -/
  replies : List VsockPacket := []

namespace MetricsTask

variable (serde : Serde S)

/-- The snapshot `handle_packet` finds in a payload. -/
def snapshotIn (payload : List UInt8) : Option S :=
  if payload.length < 4 then none
  else
    let len := leNat (payload.take 4)
    if payload.length < 4 + len then none
    else serde.fromSlice ((payload.drop 4).take len)

/-- `fwd_cnt.saturating_add`. -/
def saturatingAdd (a b : UInt32) : UInt32 := UInt32.ofNat (min (a.toNat + b.toNat) (2 ^ 32 - 1))

/-- Answer a packet. -/
def reply (task : MetricsTask S) (hdr : VsockHdr) : MetricsTask S :=
  { task with replies := task.replies ++ [(hdr, [])] }

/-- `handle_packet`. -/
def handlePacket (task : MetricsTask S) (packet : VsockPacket) : MetricsTask S :=
  let (hdr, payload) := packet
  match VsockOp.fromU16 hdr.op with
  | some .request => task.reply (hdr.makeResponse .response 0)
  | some .rw =>
    if hdr.dstPort = vsockMetricsPort then
      let fwdCnt := saturatingAdd task.fwdCnt hdr.len
      let task := { task with
        published := task.published ++ (snapshotIn serde payload).toList
        fwdCnt }
      task.reply { hdr.makeResponse .creditUpdate 0 with fwdCnt, bufAlloc := vsockBufAlloc }
    else task
  | some .shutdown => task.reply (hdr.makeResponse .rst 0)
  | some .rst => task.reply (hdr.makeResponse .rst 0)
  | _ => task

/-- `run_metrics_task` on the packets of the guest, without a shutdown. -/
def run (task : MetricsTask S) (packets : List VsockPacket) : MetricsTask S :=
  packets.foldl (handlePacket serde) task

end MetricsTask

/-- The packets carry the stream to the metrics port. -/
structure Segmentation (stream : List UInt8) (packets : List VsockPacket) : Prop where
  op : ∀ p ∈ packets, p.1.op = VsockOp.rw.toU16
  dstPort : ∀ p ∈ packets, p.1.dstPort = vsockMetricsPort
  len : ∀ p ∈ packets, p.2.length = p.1.len.toNat
  payload : (packets.map Prod.snd).flatten = stream

section

variable (serde : Serde S) (snaps : List S) (packets : List VsockPacket)

/-- Each packet that is not empty is what is written for one snapshot. -/
def Framed : Prop := ((packets.map Prod.snd).filter fun p => !p.isEmpty) = serde.frames snaps

instance : Decidable (Framed serde snaps packets) := inferInstanceAs (Decidable (_ = _))

/-- A packet that does not start with what is written for a snapshot is not taken for one. -/
def NoStray : Prop := ∀ before p after, packets.map Prod.snd = before ++ p :: after →
  (MetricsTask.snapshotIn serde p).isSome = true →
    ∃ k < (serde.frames snaps).length, before.flatten.length = Framing.offset (serde.frames snaps) k

end

/-! ### What is published -/

namespace MetricsTask

variable {serde : Serde S}

/-- A packet to the metrics port publishes what is found in it. -/
theorem published_handlePacket {task : MetricsTask S} {packet : VsockPacket}
    (hop : packet.1.op = VsockOp.rw.toU16) (hport : packet.1.dstPort = vsockMetricsPort) :
    (task.handlePacket serde packet).published =
      task.published ++ (snapshotIn serde packet.2).toList := by
  simp only [handlePacket, hop, VsockOp.fromU16_toU16, hport, if_true, reply]

theorem published_run {task : MetricsTask S} {packets : List VsockPacket}
    (hop : ∀ p ∈ packets, p.1.op = VsockOp.rw.toU16)
    (hport : ∀ p ∈ packets, p.1.dstPort = vsockMetricsPort) :
    (task.run serde packets).published =
      task.published ++ (packets.map Prod.snd).filterMap (snapshotIn serde) := by
  induction packets generalizing task with
  | nil => simp [run]
  | cons p packets ih =>
    rw [run, List.foldl_cons, ← run, ih (fun q hq => hop q (List.mem_cons_of_mem p hq))
      fun q hq => hport q (List.mem_cons_of_mem p hq),
      published_handlePacket (hop p (List.mem_cons_self ..)) (hport p (List.mem_cons_self ..)),
      List.append_assoc, List.map_cons]
    cases hp : snapshotIn serde p.2 with
    | none => rw [List.filterMap_cons_none hp]; rfl
    | some snap => rw [List.filterMap_cons_some hp]; rfl

theorem snapshotIn_nil : snapshotIn serde [] = none := rfl

end MetricsTask

namespace Serde

open MetricsTask

variable {serde : Serde S}

@[simp] theorem length_lengthBytes (encoded : List UInt8) : (lengthBytes encoded).length = 4 :=
  length_leBytes ..

/-- An encoding that fits into a packet is shorter than the length field can say. -/
theorem leNat_lengthBytes (encoded : List UInt8) : leNat (lengthBytes encoded) =
    if encoded.length < 2 ^ 32 then encoded.length else 2 ^ 32 - 1 := by
  rw [lengthBytes, leNat_leBytes]
  split_ifs <;> omega

theorem sendSnapshot_of_toVec {snap : S} {encoded : List UInt8}
    (h : serde.toVec snap = some encoded) :
    serde.sendSnapshot snap = some [lengthBytes encoded, encoded] := by
  rw [sendSnapshot, h, Option.map_some]

theorem frames_cons_some {snap : S} {snaps : List S} {encoded : List UInt8}
    (h : serde.toVec snap = some encoded) :
    serde.frames (snap :: snaps) = (lengthBytes encoded ++ encoded) :: serde.frames snaps := by
  unfold frames
  rw [List.filterMap_cons_some (b := lengthBytes encoded ++ encoded)]
  simp [sendSnapshot_of_toVec h]

theorem frames_cons_none {snap : S} {snaps : List S} (h : serde.toVec snap = none) :
    serde.frames (snap :: snaps) = serde.frames snaps := by
  unfold frames
  rw [List.filterMap_cons_none]
  rw [sendSnapshot, h]
  rfl

theorem sent_cons_some {snap : S} {snaps : List S} {encoded : List UInt8}
    (h : serde.toVec snap = some encoded) :
    serde.sent (snap :: snaps) = snap :: serde.sent snaps := by
  unfold sent
  rw [List.filter_cons_of_pos]
  rw [sendSnapshot_of_toVec h]
  rfl

theorem sent_cons_none {snap : S} {snaps : List S} (h : serde.toVec snap = none) :
    serde.sent (snap :: snaps) = serde.sent snaps := by
  unfold sent
  rw [List.filter_cons_of_neg]
  rw [sendSnapshot, h]
  exact Bool.false_ne_true

theorem length_frames (snaps : List S) :
    (serde.frames snaps).length = (serde.sent snaps).length := by
  induction snaps with
  | nil => rfl
  | cons snap snaps ih =>
    cases h : serde.toVec snap with
    | none => rw [frames_cons_none h, sent_cons_none h, ih]
    | some encoded =>
      rw [frames_cons_some h, sent_cons_some h, List.length_cons, List.length_cons, ih]

theorem exists_encoded {snaps : List S} {f : List UInt8} (h : f ∈ serde.frames snaps) :
    ∃ encoded, f = lengthBytes encoded ++ encoded := by
  induction snaps with
  | nil => cases h
  | cons snap snaps ih =>
    cases henc : serde.toVec snap with
    | none =>
      rw [frames_cons_none henc] at h
      exact ih h
    | some encoded =>
      rw [frames_cons_some henc, List.mem_cons] at h
      rcases h with rfl | h
      · exact ⟨encoded, rfl⟩
      · exact ih h

/-- A packet that is what is written for a snapshot. -/
theorem snapshotIn_frame {snap : S} {encoded : List UInt8} (h : serde.toVec snap = some encoded)
    (hlen : (lengthBytes encoded ++ encoded).length < 2 ^ 32) :
    snapshotIn serde (lengthBytes encoded ++ encoded) = some snap := by
  rw [List.length_append, length_lengthBytes] at hlen
  have hnat : leNat (lengthBytes encoded) = encoded.length := by
    rw [leNat_lengthBytes, if_pos (by omega)]
  have htake : (lengthBytes encoded ++ encoded).take 4 = lengthBytes encoded :=
    List.take_left' (length_lengthBytes encoded)
  have hdrop : (lengthBytes encoded ++ encoded).drop 4 = encoded :=
    List.drop_left' (length_lengthBytes encoded)
  simp only [snapshotIn, htake, hdrop, hnat, List.length_append, length_lengthBytes]
  rw [if_neg (by omega), if_neg (by omega), List.take_length]
  exact serde.fromSlice_toVec h

/-- The frames, each in a packet of its own, give the snapshots back. -/
theorem filterMap_frames {snaps : List S} (hlen : ∀ f ∈ serde.frames snaps, f.length < 2 ^ 32) :
    (serde.frames snaps).filterMap (snapshotIn serde) = serde.sent snaps := by
  induction snaps with
  | nil => rfl
  | cons snap snaps ih =>
    cases h : serde.toVec snap with
    | none =>
      rw [frames_cons_none h] at hlen ⊢
      rw [sent_cons_none h, ih hlen]
    | some encoded =>
      rw [frames_cons_some h] at hlen ⊢
      rw [sent_cons_some h, List.filterMap_cons_some
        (snapshotIn_frame h (hlen _ (List.mem_cons_self ..))),
        ih fun f hf => hlen f (List.mem_cons_of_mem _ hf)]

/-- A packet that starts with a frame is taken for a snapshot only when it holds all of it. -/
theorem frame_le_of_snapshotIn {encoded p more rest : List UInt8}
    (heq : p ++ more = lengthBytes encoded ++ encoded ++ rest) (hlen : p.length < 2 ^ 32)
    (hsome : (snapshotIn serde p).isSome = true) :
    (lengthBytes encoded ++ encoded).length ≤ p.length := by
  unfold snapshotIn at hsome
  dsimp only at hsome
  split_ifs at hsome with hshort hbody
  · cases hsome
  · cases hsome
  · have htake : p.take 4 = lengthBytes encoded := by
      have h := congrArg (List.take 4) heq
      rw [List.take_append_of_le_length (by omega), List.append_assoc,
        List.take_left' (length_lengthBytes encoded)] at h
      exact h
    rw [htake, leNat_lengthBytes] at hbody
    rw [List.length_append, length_lengthBytes]
    split_ifs at hbody <;> omega

end Serde

open MetricsTask

variable {serde : Serde S} {snaps : List S} {packets : List VsockPacket}

theorem Segmentation.length_lt {stream : List UInt8} (h : Segmentation stream packets)
    {p : List UInt8} (hp : p ∈ packets.map Prod.snd) : p.length < 2 ^ 32 := by
  obtain ⟨packet, hmem, rfl⟩ := List.mem_map.1 hp
  rw [h.len packet hmem]
  exact packet.1.len.toNat_lt

/-- Empty packets do not matter. -/
theorem filterMap_snapshotIn (payloads : List (List UInt8)) :
    payloads.filterMap (snapshotIn serde) =
      (payloads.filter fun p => !p.isEmpty).filterMap (snapshotIn serde) := by
  induction payloads with
  | nil => rfl
  | cons p payloads ih =>
    by_cases hp : p = []
    · rw [hp, List.filterMap_cons_none snapshotIn_nil, List.filter_cons_of_neg (by simp), ih]
    · rw [List.filter_cons_of_pos (by simp [hp]), List.filterMap_cons, List.filterMap_cons, ih]

theorem NoStray.aligned (h : NoStray serde snaps packets)
    (hseg : Segmentation (serde.frames snaps).flatten packets) :
    Framing.Aligned (serde.frames snaps) (snapshotIn serde) 0 (packets.map Prod.snd) := by
  intro before p after heq hp
  obtain ⟨k, hk, hstart⟩ := h before p after heq hp
  refine ⟨k, hk, by rw [Nat.zero_add, hstart], ?_⟩
  obtain ⟨encoded, hframe⟩ := Serde.exists_encoded (List.getElem_mem hk)
  -- the payload and the frame start at the same place of the stream
  have hstream : before.flatten ++ (p ++ after.flatten) =
      ((serde.frames snaps).take k).flatten ++
        ((serde.frames snaps)[k] ++ ((serde.frames snaps).drop (k + 1)).flatten) := by
    rw [← List.flatten_cons, ← List.flatten_append, ← heq, hseg.payload, ← List.flatten_cons,
      ← List.flatten_append, List.getElem_cons_drop, List.take_append_drop]
  obtain ⟨-, hrest⟩ := List.append_inj hstream hstart
  have hle : (serde.frames snaps)[k].length ≤ p.length := by
    rw [hframe] at hrest ⊢
    refine Serde.frame_le_of_snapshotIn hrest (hseg.length_lt ?_) hp
    rw [heq]
    exact List.mem_append_right _ (List.mem_cons_self ..)
  rw [Framing.offset_succ hk]
  omega

/-- The snapshots are published when each packet that is not empty is what is written for one of
them; and, as long as no other packet is taken for a snapshot, only then. -/
theorem snapshots_published (serde : Serde S) (snaps : List S) (task : MetricsTask S)
    (packets : List VsockPacket) (hseg : Segmentation (serde.frames snaps).flatten packets) :
    (Framed serde snaps packets →
      (task.run serde packets).published = task.published ++ serde.sent snaps) ∧
    (NoStray serde snaps packets →
      (task.run serde packets).published = task.published ++ serde.sent snaps →
        Framed serde snaps packets) := by
  rw [published_run hseg.op hseg.dstPort, List.append_cancel_left_eq]
  constructor
  · intro hframed
    rw [filterMap_snapshotIn, hframed]
    apply Serde.filterMap_frames
    intro f hf
    rw [← hframed] at hf
    exact hseg.length_lt (List.mem_of_mem_filter hf)
  · intro hstray hpublished
    apply Framing.filter_eq_frames ?_ hseg.payload (hstray.aligned hseg)
    · rw [hpublished, Serde.length_frames]
    · intro f hf
      obtain ⟨encoded, rfl⟩ := Serde.exists_encoded hf
      rw [← List.length_pos_iff, List.length_append, Serde.length_lengthBytes]
      omega

/-- The encoding of the snapshot of an idle guest: all numbers are zero, all lists empty. -/
def idleEncoded : List UInt8 :=
  [0x96, 0x00, 0x93, 0xCA, 0, 0, 0, 0, 0x90, 0x93, 0xCA, 0, 0, 0, 0, 0xCA, 0, 0, 0, 0,
    0xCA, 0, 0, 0, 0, 0x97, 0, 0, 0, 0, 0, 0, 0, 0x90, 0x90, 0x90]

/-- `rmp_serde` on this snapshot. -/
def idleSerde : Serde Unit where
  toVec _ := some idleEncoded
  fromSlice bytes := if bytes = idleEncoded then some () else none
  fromSlice_toVec h := by
    cases h
    rfl

/-- A data packet of the agent. -/
def rwPacket (payload : List UInt8) : VsockPacket :=
  ({ srcCid := 3, dstCid := 2, srcPort := 1024, dstPort := vsockMetricsPort
     len := UInt32.ofNat payload.length, type := vsockTypeStream, op := VsockOp.rw.toU16
     flags := 0, bufAlloc := vsockBufAlloc, fwdCnt := 0 }, payload)

/-- Both writes in one packet. -/
theorem snapshots_published_one_packet :
    (({} : MetricsTask Unit).run idleSerde
      [rwPacket (Serde.lengthBytes idleEncoded ++ idleEncoded)]).published = [()] :=
  (snapshots_published idleSerde [()] {} _
    ⟨by decide, by decide, by decide, by decide⟩).1 (by decide)

/-- A packet for each write: nothing is published. -/
theorem write_per_packet : ¬ ∀ (S : Type) (serde : Serde S) (snaps : List S) (task : MetricsTask S)
    (packets : List VsockPacket), Segmentation (serde.frames snaps).flatten packets →
      (task.run serde packets).published = task.published ++ serde.sent snaps := by
  intro h
  have hlost := h Unit idleSerde [()] {} [rwPacket (Serde.lengthBytes idleEncoded),
    rwPacket idleEncoded] ⟨by decide, by decide, by decide, by decide⟩
  revert hlost
  decide +kernel

end Hitz.Daemon

import Hitz.Daemon.Metrics
import Hitz.Lib.WriteLog

/-!
# Flow-control credit (`handle_packet` in `hitz-daemon/src/vsock_server.rs`)

Each data packet to the metrics port is answered with a `CreditUpdate`.  Its `fwd_cnt` is meant for
one connection: the bytes received since the connection's `Request`, modulo `2 ^ 32`.  The task
keeps one counter for all connections, it adds the lengths the headers claim, and it stops at
`2 ^ 32 - 1`; the guest agent opens a connection for every snapshot.

* `opening`, `received`: the `Request` of a connection, and the bytes since;
* `counted`: what the task's counter is made of;
* `credits_right_iff`: when every update carries the right credit to the right address.
-/

namespace Hitz.Daemon

open Devices

/-- A `Request` from source port `port`. -/
def opens (port : UInt32) (p : VsockPacket) : Bool :=
  p.1.op = VsockOp.request.toU16 ∧ p.1.srcPort = port

/-- Data from source port `port`. -/
def carries (port : UInt32) (p : VsockPacket) : Bool :=
  p.1.op = VsockOp.rw.toU16 ∧ p.1.srcPort = port

/-- Data to the metrics port. -/
def toMetrics (p : VsockPacket) : Bool :=
  p.1.op = VsockOp.rw.toU16 ∧ p.1.dstPort = vsockMetricsPort

/-- The last `Request` from `port`. -/
def opening (port : UInt32) (packets : List VsockPacket) : Option VsockHdr :=
  WriteLog.last (fun p => if opens port p then some p.1 else none) packets

/-- The payload bytes received on the connection of `port` since its `Request`. -/
def received (port : UInt32) (packets : List VsockPacket) : ℕ :=
  (((WriteLog.since (opens port) packets).filter (carries port)).map fun p => p.2.length).sum

/-- The lengths that the headers of all data packets to the metrics port claim. -/
def counted (packets : List VsockPacket) : ℕ :=
  ((packets.filter toMetrics).map fun p => p.1.len.toNat).sum

/-- Every packet belongs to a connection that starts with a `Request`. -/
def Opened (packets : List VsockPacket) : Prop :=
  ∀ k (hk : k < packets.length),
    (opening packets[k].1.srcPort (packets.take (k + 1))).isSome = true

instance (packets : List VsockPacket) : Decidable (Opened packets) :=
  inferInstanceAs (Decidable (∀ _ _, _))

namespace MetricsTask

variable {S : Type} (serde : Serde S)

/-- The packets sent while a packet is handled. -/
def answers (task : MetricsTask S) (packet : VsockPacket) : List VsockPacket :=
  (task.handlePacket serde packet).replies.drop task.replies.length

/-- Every `CreditUpdate` counts the bytes of its connection and goes to the source address of its
`Request`. -/
def CreditsRight (packets : List VsockPacket) : Prop :=
  ∀ k (hk : k < packets.length),
    ∀ r ∈ (({} : MetricsTask S).run serde (packets.take k)).answers serde packets[k],
      r.1.op = VsockOp.creditUpdate.toU16 →
        r.1.fwdCnt.toNat = received packets[k].1.srcPort (packets.take (k + 1)) % 2 ^ 32 ∧
          ∃ req, opening packets[k].1.srcPort (packets.take (k + 1)) = some req ∧
            r.1.dstCid = req.srcCid ∧ r.1.dstPort = req.srcPort

end MetricsTask

/-- What the task has counted are the bytes of the connection of `port`. -/
def CountsOnly (port : UInt32) (packets : List VsockPacket) : Prop :=
  if counted packets < 2 ^ 32 then received port packets % 2 ^ 32 = counted packets
  -- past its bound the counter stands still
  else received port packets % 2 ^ 32 = 2 ^ 32 - 1

instance (port : UInt32) (packets : List VsockPacket) : Decidable (CountsOnly port packets) := by
  unfold CountsOnly
  infer_instance

/-! ### The counter -/

theorem counted_concat (packets : List VsockPacket) (p : VsockPacket) :
    counted (packets ++ [p]) = counted packets + if toMetrics p then p.1.len.toNat else 0 := by
  unfold counted
  rw [List.filter_append, List.map_append, List.sum_append]
  cases htm : toMetrics p with
  | true => simp [htm]
  | false => simp [htm]

theorem toNat_saturatingAdd (a b : UInt32) :
    (MetricsTask.saturatingAdd a b).toNat = min (a.toNat + b.toNat) (2 ^ 32 - 1) := by
  unfold MetricsTask.saturatingAdd
  rw [UInt32.toNat_ofNat']
  exact Nat.mod_eq_of_lt (by omega)

namespace MetricsTask

variable {S : Type} {serde : Serde S}

/-- What handling a packet does to the counter and the replies. -/
theorem handlePacket_cases (serde : Serde S) (task : MetricsTask S) (p : VsockPacket) :
    (toMetrics p = true ∧
      (task.handlePacket serde p).fwdCnt = saturatingAdd task.fwdCnt p.1.len ∧
      task.answers serde p = [({ p.1.makeResponse .creditUpdate 0 with
        fwdCnt := saturatingAdd task.fwdCnt p.1.len, bufAlloc := vsockBufAlloc }, [])]) ∨
    (toMetrics p = false ∧ (task.handlePacket serde p).fwdCnt = task.fwdCnt ∧
      ∀ r ∈ task.answers serde p, r.1.op ≠ VsockOp.creditUpdate.toU16) := by
  obtain ⟨hdr, payload⟩ := p
  have hnot : ∀ op, VsockOp.fromU16 hdr.op = some op → op ≠ .rw →
      toMetrics (hdr, payload) = false := by
    intro op hop hne
    refine decide_eq_false fun h => hne ?_
    rw [h.1, VsockOp.fromU16_toU16] at hop
    exact (Option.some.inj hop).symm
  cases hop : VsockOp.fromU16 hdr.op with
  | none =>
    refine Or.inr ⟨decide_eq_false fun h => ?_, ?_, ?_⟩
    · rw [h.1, VsockOp.fromU16_toU16] at hop
      cases hop
    · simp only [handlePacket, hop]
    · simp [answers, handlePacket, hop]
  | some op =>
    cases op with
    | rw =>
      by_cases hport : hdr.dstPort = vsockMetricsPort
      · refine Or.inl ⟨decide_eq_true ⟨VsockOp.fromU16_eq_some hop, hport⟩, ?_, ?_⟩
        · simp only [handlePacket, hop, if_pos hport, reply]
        · simp [answers, handlePacket, hop, hport, reply]
      · refine Or.inr ⟨decide_eq_false fun h => hport h.2, ?_, ?_⟩
        · simp only [handlePacket, hop, if_neg hport]
        · simp [answers, handlePacket, hop, hport]
    | request | response | rst | shutdown | creditUpdate | creditRequest =>
      refine Or.inr ⟨hnot _ hop (by decide), ?_, ?_⟩
      · simp only [handlePacket, hop, reply]
      · simp [answers, handlePacket, hop, reply, VsockHdr.makeResponse, VsockOp.toU16]

/-- The counter is the sum of the claimed lengths, up to its bound. -/
theorem fwdCnt_run (packets : List VsockPacket) :
    (({} : MetricsTask S).run serde packets).fwdCnt.toNat = min (counted packets) (2 ^ 32 - 1) := by
  induction packets using List.reverseRecOn with
  | nil => rfl
  | append_singleton packets p ih =>
    rw [run, List.foldl_append, List.foldl_cons, List.foldl_nil, ← run, counted_concat]
    rcases handlePacket_cases serde (({} : MetricsTask S).run serde packets) p with
      ⟨htm, hcnt, -⟩ | ⟨htm, hcnt, -⟩
    · rw [hcnt, toNat_saturatingAdd, ih, if_pos htm]
      omega
    · rw [hcnt, ih, htm]
      rfl

theorem fwdCnt_eq_iff (serde : Serde S) (port : UInt32) (packets : List VsockPacket) :
    (({} : MetricsTask S).run serde packets).fwdCnt.toNat = received port packets % 2 ^ 32 ↔
      CountsOnly port packets := by
  rw [fwdCnt_run, CountsOnly]
  split_ifs with hlt
  · rw [min_eq_left (by omega)]
    exact eq_comm
  · rw [min_eq_right (by omega)]
    exact eq_comm

end MetricsTask

theorem opening_srcPort {port : UInt32} {packets : List VsockPacket} {req : VsockHdr}
    (h : opening port packets = some req) : req.srcPort = port := by
  obtain ⟨p, -, hp⟩ := WriteLog.mem_of_last h
  split_ifs at hp with hopens
  cases hp
  exact (of_decide_eq_true hopens).2

/-- **Credit.**  Every update is right when, at every data packet to the metrics port, the bytes
counted so far are those of its own connection since its `Request`, and the packet carries the
source CID of that `Request`; and only then. -/
theorem credits_right_iff {S : Type} (serde : Serde S) (packets : List VsockPacket)
    (hopened : Opened packets) : MetricsTask.CreditsRight serde packets ↔
      ∀ k (hk : k < packets.length), toMetrics packets[k] = true →
        CountsOnly packets[k].1.srcPort (packets.take (k + 1)) ∧
          ∀ req ∈ opening packets[k].1.srcPort (packets.take (k + 1)),
            packets[k].1.srcCid = req.srcCid := by
  unfold MetricsTask.CreditsRight
  apply forall_congr'
  intro k
  apply forall_congr'
  intro hk
  obtain ⟨req, hreq⟩ := Option.isSome_iff_exists.1 (hopened k hk)
  have htake : packets.take (k + 1) = packets.take k ++ [packets[k]] :=
    (List.take_concat_get' packets k hk).symm
  have hrun : ({} : MetricsTask S).run serde (packets.take (k + 1)) =
      (({} : MetricsTask S).run serde (packets.take k)).handlePacket serde packets[k] := by
    rw [htake, MetricsTask.run, List.foldl_append]
    rfl
  have hcount := MetricsTask.fwdCnt_eq_iff serde packets[k].1.srcPort (packets.take (k + 1))
  rw [hreq]
  rcases MetricsTask.handlePacket_cases serde
    (({} : MetricsTask S).run serde (packets.take k)) packets[k] with
    ⟨htm, hcnt, hans⟩ | ⟨htm, -, hans⟩
  · rw [hrun, hcnt] at hcount
    rw [hans, ← hcount]
    simp only [List.mem_singleton, forall_eq, VsockHdr.makeResponse, htm, forall_true_left,
      Option.some.injEq, exists_eq_left', Option.mem_def, forall_eq', opening_srcPort hreq,
      and_true]
  · exact iff_of_true (fun r hr hop => absurd hop (hans r hr)) fun h => absurd h (by simp [htm])

/-- A packet that the guest agent sends on the connection of `port`. -/
def agentPacket (port : UInt32) (op : VsockOp) (payload : List UInt8) : VsockPacket :=
  ({ srcCid := 3, dstCid := 2, srcPort := port, dstPort := vsockMetricsPort
     len := UInt32.ofNat payload.length, type := vsockTypeStream, op := op.toU16
     flags := 0, bufAlloc := vsockBufAlloc, fwdCnt := 0 }, payload)

/-- One connection, with two data packets. -/
def oneConnection : List VsockPacket :=
  [agentPacket 1024 .request [], agentPacket 1024 .rw [1, 2, 3], agentPacket 1024 .rw [4, 5]]

/-- A connection for each of two snapshots. -/
def twoConnections : List VsockPacket :=
  [agentPacket 1024 .request [], agentPacket 1024 .rw [1, 2, 3],
    agentPacket 1025 .request [], agentPacket 1025 .rw [4, 5]]

theorem credits_right_one_connection :
    MetricsTask.CreditsRight idleSerde oneConnection :=
  (credits_right_iff idleSerde oneConnection (by decide)).2 (by decide)

/-- The second connection is credited with the bytes of the first. -/
theorem second_connection_credit : ¬ ∀ (S : Type) (serde : Serde S) (packets : List VsockPacket),
    Opened packets → MetricsTask.CreditsRight serde packets := by
  intro h
  have hright := h Unit idleSerde twoConnections (by decide) 3 (by decide)
  revert hright
  decide

end Hitz.Daemon

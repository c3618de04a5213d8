import Hitz.Devices.Receive

/-!
# Used lengths

The length that a device records in the used ring for a chain should be the number of bytes it wrote
to the device-writable buffers of that chain.  A `ServedChain` is a chain that some call of a
backend served, with the length it recorded (`len`) and the writes it made (`log`).

`used_lengths_truthful_iff` says which chains have truthful lengths: all that the network device
serves (as long as the count is a `u32`) and all transmit and event chains; a block request whose
status byte, if it is written, is mapped and in a buffer; and a packet whose bytes are all mapped
and in a buffer.
-/

namespace Hitz.Devices

open ByteStore

variable {M : Type} [ByteStore M]

/-! ### Bytes that land in buffers -/

/-- The address lies in a device-writable buffer. -/
def InBuffers (ds : List Descriptor) (x : ℕ) : Prop := ∃ d ∈ ds, x ∈ d.writable

instance (ds : List Descriptor) (x : ℕ) : Decidable (InBuffers ds x) :=
  inferInstanceAs (Decidable (∃ d ∈ ds, x ∈ d.writable))

/-- The bytes of one write that land in the device-writable buffers. -/
def landedOf (ds : List Descriptor) (w : ℕ × List UInt8) : ℕ :=
  ((List.range' w.1 w.2.length).filter fun x => InBuffers ds x).length

/-- The bytes of the writes that land in the device-writable buffers. -/
def landed (ds : List Descriptor) (log : List (ℕ × List UInt8)) : ℕ := (log.map (landedOf ds)).sum

theorem landedOf_le (ds : List Descriptor) (w : ℕ × List UInt8) : landedOf ds w ≤ w.2.length := by
  have h := List.length_filter_le (fun x => decide (InBuffers ds x)) (List.range' w.1 w.2.length)
  rwa [List.length_range'] at h

theorem landedOf_eq_iff (ds : List Descriptor) (w : ℕ × List UInt8) :
    landedOf ds w = w.2.length ↔ ∀ x, w.1 ≤ x → x < w.1 + w.2.length → InBuffers ds x := by
  have hlen : landedOf ds w = w.2.length ↔
      ((List.range' w.1 w.2.length).filter fun x => decide (InBuffers ds x)).length =
        (List.range' w.1 w.2.length).length := by
    rw [List.length_range']
    rfl
  rw [hlen, List.length_filter_eq_length_iff]
  simp only [List.mem_range'_1, decide_eq_true_eq, and_imp]

theorem landed_byte (ds : List Descriptor) (a : ℕ) (b : UInt8) :
    landed ds [(a, [b])] = if InBuffers ds a then 1 else 0 := by
  by_cases h : InBuffers ds a
  · simp [landed, landedOf, h]
  · simp [landed, landedOf, h]

theorem landed_append (ds : List Descriptor) (log log' : List (ℕ × List UInt8)) :
    landed ds (log ++ log') = landed ds log + landed ds log' := by
  rw [landed, List.map_append, List.sum_append]
  rfl

/-- If every write lies in a buffer, all bytes land. -/
theorem landed_of_inside {ds : List Descriptor} {log : List (ℕ × List UInt8)}
    (h : ∀ w ∈ log, ∃ d ∈ ds, d.isDeviceWritable = true ∧ w.1 = d.gpa.toNat ∧
      w.2.length ≤ d.len.toNat) :
    landed ds log = (log.flatMap Prod.snd).length := by
  rw [landed, List.length_flatMap]
  congr 1
  apply List.map_congr_left
  intro w hw
  obtain ⟨d, hd, hwr, haddr, hlen⟩ := h w hw
  rw [landedOf_eq_iff]
  intro x h₁ h₂
  exact ⟨d, hd, Descriptor.mem_writable.2 ⟨hwr, by omega, by omega⟩⟩

/-! ### Block requests -/

namespace VirtioBlockDevice

/-- The data that a request wrote to the guest. -/
def dataLog (r : BlkRequest) (t : Transfer M) : List (ℕ × List UInt8) :=
  if r.reqType = virtioBlkTIn ∧ t.status = virtioBlkSOk then
    [(r.data.gpa.toNat, bytes t.mem r.data.gpa.toNat r.data.len.toNat)]
  else []

/-- The status byte, if it was written. -/
def statusLog (t : Transfer M) (chain : DescriptorChain) : List (ℕ × List UInt8) :=
  match (chain.nextDescriptor t.mem).1 with
  | none => []
  | some d =>
    if d.isDeviceWritable ∧ mapped t.mem d.gpa.toNat 1 then [(d.gpa.toNat, [t.status])] else []

/-- The writes that serving a chain made. -/
def log (dev : VirtioBlockDevice) (chain : DescriptorChain) (mem : M) : List (ℕ × List UInt8) :=
  match parseRequest chain mem with
  | (none, _) => []
  | (some r, chain) =>
    match dev.transfer r mem with
    | none => []
    | some t => dataLog r t ++ statusLog t chain

theorem handleRead_moved {dev : VirtioBlockDevice} {sector gpa : UInt64} {len : UInt32} {mem : M}
    {t : Transfer M} (h : dev.handleRead sector gpa len mem 0 = some t) :
    (t.status = virtioBlkSOk ∧ t.written = len ∧
      ∃ buf, buf.length = len.toNat ∧ write mem gpa.toNat buf = some t.mem) ∨
    (t.status = virtioBlkSIoerr ∧ t.written = 0 ∧ t.mem = mem) := by
  unfold handleRead at h
  dsimp only at h
  split_ifs at h
  · cases h
    exact Or.inr ⟨rfl, rfl, rfl⟩
  · cases h
    exact Or.inr ⟨rfl, rfl, rfl⟩
  obtain ⟨byteOffset, -, h⟩ := Option.bind_eq_some_iff.1 h
  split_ifs at h
  · cases h
    exact Or.inr ⟨rfl, rfl, rfl⟩
  split at h
  · cases h
    exact Or.inr ⟨rfl, rfl, rfl⟩
  · rename_i disk _
    split at h
    · cases h
      exact Or.inr ⟨rfl, rfl, rfl⟩
    · rename_i buf disk' hread
      split at h
      · cases h
        exact Or.inr ⟨rfl, rfl, rfl⟩
      · rename_i mem' hwrite
        rw [zero_addU32] at h
        cases h
        refine Or.inl ⟨rfl, rfl, buf, ?_, hwrite⟩
        exact (Disk.readExact_eq_some hread).2.1

/-- Moving the data wrote the log and counted its bytes. -/
theorem transfer_log {dev : VirtioBlockDevice} {r : BlkRequest} {mem : M} {t : Transfer M}
    (h : dev.transfer r mem = some t) :
    t.mem = replay mem (dataLog r t) ∧
      t.written.toNat = ((dataLog r t).flatMap Prod.snd).length ∧
      ∀ w ∈ dataLog r t, r.data.isDeviceWritable = true ∧ w.1 = r.data.gpa.toNat ∧
        w.2.length ≤ r.data.len.toNat := by
  -- nothing was written: not an IN request, or it failed
  have hnone : (r.reqType = virtioBlkTIn → t.status = virtioBlkSIoerr) → t.written = 0 →
      t.mem = mem → t.mem = replay mem (dataLog r t) ∧
        t.written.toNat = ((dataLog r t).flatMap Prod.snd).length ∧
        ∀ w ∈ dataLog r t, r.data.isDeviceWritable = true ∧ w.1 = r.data.gpa.toNat ∧
          w.2.length ≤ r.data.len.toNat := by
    intro hstatus hzero hmem
    have hlog : dataLog r t = [] := by
      refine if_neg fun hc => ?_
      rw [hstatus hc.1] at hc
      exact absurd hc.2 (by decide)
    rw [hlog, hzero]
    exact ⟨hmem, rfl, (by simp)⟩
  unfold transfer at h
  split_ifs at h with hin hw hout hw
  · rcases handleRead_moved h with ⟨hok, hlen, buf, hbuf, hwrite⟩ | ⟨herr, hzero, hmem⟩
    · have hlog : dataLog r t = [(r.data.gpa.toNat, buf)] := by
        have hbytes := bytes_write hwrite
        rw [hbuf] at hbytes
        rw [dataLog, if_pos ⟨hin, hok⟩, hbytes]
      rw [hlog]
      refine ⟨(put_of_write hwrite).symm, by rw [hlen]; simp [hbuf], fun w hmem => ?_⟩
      obtain rfl := List.mem_singleton.1 hmem
      exact ⟨hw, rfl, hbuf.le⟩
    · exact hnone (fun _ => herr) hzero hmem
  · cases h
    exact hnone (fun _ => rfl) rfl rfl
  · cases h
    exact hnone (fun hc => absurd hc hin) rfl rfl
  · obtain ⟨p, -, rfl⟩ := Option.map_eq_some_iff.1 h
    exact hnone (fun hc => absurd hc hin) rfl rfl
  · cases h
    exact hnone (fun hc => absurd hc hin) rfl rfl

/-- After the writes `l`, all of which landed, the status counts one byte for its descriptor even
if the byte was not written, or not into a buffer. -/
theorem writeStatus_log {t : Transfer M} {chain : DescriptorChain}
    {s : Served VirtioBlockDevice M} (h : writeStatus t chain = some s) {mem : M}
    {l : List (ℕ × List UInt8)} (hmem : t.mem = replay mem l) {ds : List Descriptor}
    (hlanded : landed ds l = t.written.toNat) :
    s.mem = replay mem (l ++ statusLog t chain) ∧
    (s.written.toNat = landed ds (l ++ statusLog t chain) ↔
      ∀ d, (chain.nextDescriptor t.mem).1 = some d → d.isDeviceWritable = true →
        mapped t.mem d.gpa.toNat 1 = true ∧ InBuffers ds d.gpa.toNat) := by
  obtain ⟨-, -, ⟨d, hd, hw, hput, hone⟩ | ⟨hnone, hput, hone⟩⟩ := writeStatus_eq_some h
  · simp only [statusLog, hd, Option.some.injEq, forall_eq', hw, true_and, forall_true_left]
    by_cases hm : mapped t.mem d.gpa.toNat 1 = true
    · rw [if_pos hm, landed_append, hlanded, hone, landed_byte, hput]
      refine ⟨?_, ?_⟩
      · rw [replay, List.foldl_append]
        show _ = put (replay mem l) _ _
        rw [← hmem]
      · simp [hm]
    · rw [if_neg hm, List.append_nil, hlanded, hone, hput,
        put_of_not_mapped (Bool.eq_false_iff.2 hm)]
      exact ⟨hmem, iff_of_false (by omega) fun h => hm h.1⟩
  · have hlog : statusLog t chain = [] := by
      unfold statusLog
      cases hd : (chain.nextDescriptor t.mem).1 with
      | none => rfl
      | some d => exact if_neg fun hc => absurd hc.1 (by simp [hnone d hd])
    rw [hlog, List.append_nil, hput, hone]
    exact ⟨hmem, iff_of_true hlanded.symm fun d hd hw => absurd hw (by simp [hnone d hd])⟩

/-- Serving a chain made the writes of the log, and recorded one byte for a status descriptor even
if the byte was not written, or not into a buffer. -/
theorem serve_log (dev : VirtioBlockDevice) (chain : DescriptorChain) (mem : M)
    (ds : List Descriptor) :
    (dev.serve chain mem).mem = replay mem (dev.log chain mem) ∧
    ((dev.serve chain mem).written.toNat =
        landed (ds ++ (dev.serve chain mem).chain.seen) (dev.log chain mem) ↔
      ∀ d, dev.statusDescriptor chain mem = some d → d.isDeviceWritable = true →
        mapped mem d.gpa.toNat 1 = true ∧
          InBuffers (ds ++ (dev.serve chain mem).chain.seen) d.gpa.toNat) := by
  have hs : dev.processRequest chain mem = some (dev.serve chain mem) := (Option.some_get _).symm
  generalize dev.serve chain mem = s at hs
  unfold processRequest at hs
  unfold log statusDescriptor
  cases hp : parseRequest chain mem with
  | mk or chain' =>
    rw [hp] at hs
    cases or with
    | none =>
      cases hs
      exact ⟨rfl, iff_of_true rfl (by simp)⟩
    | some r =>
      obtain ⟨t, ht, hok⟩ := dev.transfer_spec r mem
      obtain ⟨hmem, hwritten, hin⟩ := transfer_log ht
      have hdata := parseRequest_seen hp
      have hseen := chain'.nextDescriptor_seen t.mem
      simp only [ht, Option.bind_some] at hs ⊢
      rw [← (writeStatus_eq_some hs).2.1] at hseen
      -- all the data landed in its buffer
      have hlanded : landed (ds ++ s.chain.seen) (dataLog r t) = t.written.toNat := by
        rw [hwritten]
        apply landed_of_inside
        intro w hw
        exact ⟨r.data, List.mem_append_right _ (hseen ▸ List.mem_append_left _ hdata), hin w hw⟩
      rw [← hok.agree.mapped_eq]
      exact writeStatus_log hs hmem hlanded

end VirtioBlockDevice

/-! ### Packets -/

namespace VirtioVsockDevice

/-- The writes that `writePacket` makes: header and payload, each if it is mapped. -/
def packetLog (mem : M) (d : Descriptor) (packet : VsockPacket) : List (ℕ × List UInt8) :=
  (if mapped mem d.gpa.toNat vsockHdrSize then [(d.gpa.toNat, packet.1.toBytes)] else []) ++
  if packet.2 ≠ [] ∧ mapped mem (d.gpa.toNat + vsockHdrSize) packet.2.length then
    [(d.gpa.toNat + vsockHdrSize, packet.2)]
  else []

/-- The number of bytes of a packet. -/
def total (packet : VsockPacket) : ℕ := vsockHdrSize + packet.2.length

/-- All bytes of the packet are mapped and in the buffers. -/
structure Lands (ds : List Descriptor) (mem : M) (d : Descriptor) (packet : VsockPacket) :
    Prop where
  header : mapped mem d.gpa.toNat vsockHdrSize = true
  payload : packet.2 ≠ [] → mapped mem (d.gpa.toNat + vsockHdrSize) packet.2.length = true
  inside : ∀ x, d.gpa.toNat ≤ x → x < d.gpa.toNat + total packet → InBuffers ds x

/-- The recorded length is right: all bytes land, or the packet is too long for a `u32` and just as
many bytes land as the largest one says. -/
def LengthFits (ds : List Descriptor) (mem : M) (d : Descriptor) (packet : VsockPacket) : Prop :=
  total packet < 2 ^ 32 ∧ Lands ds mem d packet ∨
  2 ^ 32 ≤ total packet ∧ landed ds (packetLog mem d packet) = 2 ^ 32 - 1

theorem writePacket_log (mem : M) (d : Descriptor) (packet : VsockPacket) :
    writePacket mem d packet = replay mem (packetLog mem d packet) := by
  have hhdr : packet.1.toBytes.length = vsockHdrSize := packet.1.length_toBytes
  have hput := put_eq_replay mem d.gpa.toNat packet.1.toBytes
  have hmapped := (agree_put mem d.gpa.toNat packet.1.toBytes).mapped_eq
  rw [hhdr] at hput
  unfold writePacket packetLog
  rw [replay_append, ← hput, ← hmapped, hhdr]
  generalize put mem d.gpa.toNat packet.1.toBytes = m₁
  dsimp only
  by_cases hempty : packet.2 = []
  · rw [if_pos (List.isEmpty_iff.2 hempty), if_neg fun h => h.1 hempty]
    rfl
  · rw [if_neg fun h => hempty (List.isEmpty_iff.1 h)]
    have hpos : 0 < packet.2.length := List.length_pos_iff.2 hempty
    cases hadd : checkedAdd d.gpa.toNat vsockHdrSize with
    | none =>
      have hm : ¬ mapped m₁ (d.gpa.toNat + vsockHdrSize) packet.2.length = true := by
        intro hm
        have hlt := mapped_lt _ _ _ hm hpos
        rw [checkedAdd, if_pos (by omega)] at hadd
        cases hadd
      rw [if_neg fun h => hm h.2]
      rfl
    | some a =>
      obtain ⟨-, rfl⟩ := checkedAdd_eq_some.1 hadd
      dsimp only
      rw [put_eq_replay]
      simp only [ne_eq, hempty, not_false_eq_true, true_and]

theorem landed_packetLog (ds : List Descriptor) (mem : M) (d : Descriptor) (packet : VsockPacket) :
    landed ds (packetLog mem d packet) =
      (if mapped mem d.gpa.toNat vsockHdrSize then
        landedOf ds (d.gpa.toNat, packet.1.toBytes) else 0) +
      if packet.2 ≠ [] ∧ mapped mem (d.gpa.toNat + vsockHdrSize) packet.2.length then
        landedOf ds (d.gpa.toNat + vsockHdrSize, packet.2) else 0 := by
  rw [packetLog, landed_append]
  congr 1
  · split_ifs <;> simp [landed]
  · split_ifs <;> simp [landed]

theorem landed_packetLog_le (ds : List Descriptor) (mem : M) (d : Descriptor)
    (packet : VsockPacket) : landed ds (packetLog mem d packet) ≤ total packet := by
  rw [landed_packetLog, total]
  have h₁ := landedOf_le ds (d.gpa.toNat, packet.1.toBytes)
  have h₂ := landedOf_le ds (d.gpa.toNat + vsockHdrSize, packet.2)
  rw [packet.1.length_toBytes] at h₁
  dsimp only at h₂
  split_ifs <;> omega

theorem landed_packetLog_eq_iff (ds : List Descriptor) (mem : M) (d : Descriptor)
    (packet : VsockPacket) :
    landed ds (packetLog mem d packet) = total packet ↔ Lands ds mem d packet := by
  have h₁ := landedOf_le ds (d.gpa.toNat, packet.1.toBytes)
  have h₂ := landedOf_le ds (d.gpa.toNat + vsockHdrSize, packet.2)
  have e₁ := landedOf_eq_iff ds (d.gpa.toNat, packet.1.toBytes)
  have e₂ := landedOf_eq_iff ds (d.gpa.toNat + vsockHdrSize, packet.2)
  rw [packet.1.length_toBytes] at h₁ e₁
  dsimp only at h₂ e₁ e₂
  have hpos : 0 < vsockHdrSize := by decide
  rw [landed_packetLog, total]
  constructor
  · intro h
    by_cases hm : mapped mem d.gpa.toNat vsockHdrSize = true
    · rw [if_pos hm] at h
      by_cases hp : packet.2 ≠ [] ∧
          mapped mem (d.gpa.toNat + vsockHdrSize) packet.2.length = true
      · rw [if_pos hp] at h
        have hin₁ := e₁.1 (by omega)
        have hin₂ := e₂.1 (by omega)
        refine ⟨hm, fun _ => hp.2, fun x hx₁ hx₂ => ?_⟩
        rw [total] at hx₂
        rcases Nat.lt_or_ge x (d.gpa.toNat + vsockHdrSize) with hlt | hge
        · exact hin₁ x hx₁ hlt
        · exact hin₂ x hge (by omega)
      · rw [if_neg hp] at h
        have hnil : packet.2 = [] := List.length_eq_zero_iff.1 (by omega)
        refine ⟨hm, fun hne => absurd hnil hne, fun x hx₁ hx₂ => ?_⟩
        rw [total, hnil] at hx₂
        exact e₁.1 (by omega) x hx₁ hx₂
    · rw [if_neg hm] at h
      split_ifs at h <;> omega
  · rintro ⟨hm, hp, hin⟩
    rw [total] at hin
    rw [if_pos hm, e₁.2 fun x h₁ h₂ => hin x h₁ (by omega)]
    by_cases hnil : packet.2 = []
    · simp [hnil]
    · rw [if_pos ⟨hnil, hp hnil⟩, e₂.2 fun x h₁ h₂ => hin x (by omega) (by omega)]

theorem usedLen_eq_landed_iff (ds : List Descriptor) (mem : M) (d : Descriptor)
    (packet : VsockPacket) : (usedLen packet).toNat = landed ds (packetLog mem d packet) ↔
      LengthFits ds mem d packet := by
  have hlen : (usedLen packet).toNat = min (total packet) (2 ^ 32 - 1) := by
    rw [usedLen, VsockHdr.length_toBytes, UInt32.toNat_ofNat', total]
    omega
  rw [hlen, LengthFits, ← landed_packetLog_eq_iff]
  have hle := landed_packetLog_le ds mem d packet
  omega

end VirtioVsockDevice

/-! ### Chains and calls -/

/-- A chain that a call of a backend served. -/
inductive ServedChain (M : Type) where
  | block (t : Turn VirtioBlockDevice M)
  | netTx (t : Turn VirtioNetDevice M)
  | netRx (a : VirtioNetDevice.Attempt M)
  | vsockTx (t : Turn VirtioVsockDevice M)
  | vsockEvent (t : Turn VirtioVsockDevice M)
  | vsockRx (packet : VsockPacket) (chain : DescriptorChain) (mem : M)

/-- The descriptor a packet is written through: the first one, if it is device-writable. -/
def rxDescriptor (chain : DescriptorChain) (mem : M) : Option Descriptor :=
  (chain.nextDescriptor mem).1.filter fun d => d.isDeviceWritable

namespace ServedChain

/-- The chain as it was popped. -/
def chain : ServedChain M → DescriptorChain
  | .block t => t.chain
  | .netTx t => t.chain
  | .netRx a => a.chain
  | .vsockTx t => t.chain
  | .vsockEvent t => t.chain
  | .vsockRx _ chain _ => chain

/-- The memory in which it was served. -/
def mem : ServedChain M → M
  | .block t => t.mem
  | .netTx t => t.mem
  | .netRx a => a.mem
  | .vsockTx t => t.mem
  | .vsockEvent t => t.mem
  | .vsockRx _ _ mem => mem

/-- The memory before its used element is written. -/
def after : ServedChain M → M
  | .block t => (t.dev.serve t.chain t.mem).mem
  | .netTx t => (t.dev.serveTx t.chain t.mem).mem
  | .netRx a => a.walked.2.2
  | .vsockTx t => (t.dev.serveTx t.chain t.mem).mem
  | .vsockEvent t => (t.dev.serveEvent t.chain t.mem).mem
  | .vsockRx packet chain mem =>
    match rxDescriptor chain mem with
    | some d => VirtioVsockDevice.writePacket mem d packet
    | none => mem

/-- The length recorded in its used element. -/
def len : ServedChain M → UInt32
  | .block t => (t.dev.serve t.chain t.mem).written
  | .netTx t => (t.dev.serveTx t.chain t.mem).written
  | .netRx a => a.entry.len
  | .vsockTx t => (t.dev.serveTx t.chain t.mem).written
  | .vsockEvent t => (t.dev.serveEvent t.chain t.mem).written
  | .vsockRx packet chain mem =>
    match rxDescriptor chain mem with
    | some _ => VirtioVsockDevice.usedLen packet
    | none => 0

/-- The descriptors of the chain, as the guest posted them and as the device read them. -/
def buffers : ServedChain M → List Descriptor
  | .block t => t.chain.descriptors t.mem ++ (t.dev.serve t.chain t.mem).chain.seen
  | .netTx t => t.chain.descriptors t.mem ++ (t.dev.serveTx t.chain t.mem).chain.seen
  | .netRx a => a.chain.descriptors a.mem ++ a.walked.1.seen
  | .vsockTx t => t.chain.descriptors t.mem ++ (t.dev.serveTx t.chain t.mem).chain.seen
  | .vsockEvent t => t.chain.descriptors t.mem
  | .vsockRx _ chain mem => chain.descriptors mem

/-- The writes made to guest memory while it was served. -/
def log : ServedChain M → List (ℕ × List UInt8)
  | .block t => t.dev.log t.chain t.mem
  | .netTx _ => []
  | .netRx a => a.log
  | .vsockTx _ => []
  | .vsockEvent _ => []
  | .vsockRx packet chain mem =>
    match rxDescriptor chain mem with
    | some d => VirtioVsockDevice.packetLog mem d packet
    | none => []

/-- The number of bytes written to its device-writable buffers. -/
def written (c : ServedChain M) : ℕ := landed c.buffers c.log

/-- The chains whose recorded length is right. -/
def LengthOk : ServedChain M → Prop
  | .block t => ∀ d, t.dev.statusDescriptor t.chain t.mem = some d → d.isDeviceWritable = true →
      mapped t.mem d.gpa.toNat 1 = true ∧ InBuffers (ServedChain.block t).buffers d.gpa.toNat
  | .netTx _ => True
  | .netRx a => VirtioNetDevice.room a.mem (virtioNetHdrSize + a.frame.length) a.buffers 0 < 2 ^ 32
  | .vsockTx _ => True
  | .vsockEvent _ => True
  | .vsockRx packet chain mem => ∀ d, rxDescriptor chain mem = some d →
      VirtioVsockDevice.LengthFits (chain.descriptors mem) mem d packet

/-- The log is what happened to memory. -/
theorem after_eq_replay (c : ServedChain M) : c.after = replay c.mem c.log := by
  cases c with
  | block t => exact (t.dev.serve_log t.chain t.mem []).1
  | netTx t => exact t.dev.mem_serveTx t.chain t.mem
  | netRx a => exact a.rxWalked.mem_eq
  | vsockTx t => exact t.dev.mem_serveTx t.chain t.mem
  | vsockEvent t => rfl
  | vsockRx packet chain mem =>
    simp only [after, log, ServedChain.mem]
    cases rxDescriptor chain mem with
    | none => rfl
    | some d => exact VirtioVsockDevice.writePacket_log mem d packet

/-- All bytes of a received frame land in the buffers of the chain. -/
theorem written_netRx (a : VirtioNetDevice.Attempt M) : (ServedChain.netRx a).written =
    VirtioNetDevice.room a.mem (virtioNetHdrSize + a.frame.length) a.buffers 0 := by
  obtain ⟨⟨ds, hds, -, hin⟩, hbytes, -, hle, -⟩ := a.rxWalked
  obtain ⟨off, hoff, hle, hentry⟩ := VirtioNetDevice.entry_eq a
  have hlanded : (ServedChain.netRx a).written = (a.log.flatMap Prod.snd).length := by
    apply landed_of_inside
    intro w hw
    obtain ⟨d, hd, h⟩ := hin w hw
    refine ⟨d, List.mem_append_right _ ?_, h⟩
    rw [hds]
    exact List.mem_append_right _ hd
  have hlog : a.log.flatMap Prod.snd = (VirtioNetDevice.rxPayload a.frame).take off :=
    congrArg UsedEntry.bytes hentry
  rw [hlanded, hlog, List.length_take, VirtioNetDevice.length_rxPayload, ← hoff]
  omega

/-- The recorded length is the number of bytes written exactly for these chains. -/
theorem len_eq_written_iff (c : ServedChain M) : c.len.toNat = c.written ↔ c.LengthOk := by
  cases c with
  | block t => exact (t.dev.serve_log t.chain t.mem (t.chain.descriptors t.mem)).2
  | netTx t => exact iff_of_true rfl trivial
  | netRx a =>
    obtain ⟨off, hoff, -, hentry⟩ := VirtioNetDevice.entry_eq a
    rw [written_netRx, len, LengthOk, ← hoff, hentry, UInt32.toNat_ofNat']
    exact Nat.mod_eq_iff_lt (by decide)
  | vsockTx t => exact iff_of_true rfl trivial
  | vsockEvent t => exact iff_of_true rfl trivial
  | vsockRx packet chain mem =>
    simp only [len, written, log, buffers, LengthOk]
    cases hd : rxDescriptor chain mem with
    | none => exact iff_of_true rfl (by simp)
    | some d =>
      simp only [Option.some.injEq, forall_eq']
      exact VirtioVsockDevice.usedLen_eq_landed_iff _ mem d packet

/-- The chains lead from one memory to another: each was served in the memory that the ones before
left, and then its length was recorded. -/
def Lead (queue : VirtQueue) : M → List (ServedChain M) → M → Prop
  | m, [], m' => m' = m
  | m, c :: cs, m' => c.mem = m ∧ Lead queue (queue.pushUsed c.after c.chain.headIdx c.len) cs m'

end ServedChain

/-- The chains that `injectRx` uses. -/
def polledChains : List VsockPacket → LoopState VirtioVsockDevice M → List (ServedChain M)
  | [], _ => []
  | packet :: rest, s =>
    match s.queue.popChain s.mem with
    | none => []
    | some (chain, queue) =>
      .vsockRx packet chain s.mem ::
        match rxDescriptor chain s.mem with
        | none => []
        | some d => polledChains rest { s with
            queue
            mem := queue.pushUsed (VirtioVsockDevice.writePacket s.mem d packet) chain.headIdx
              (VirtioVsockDevice.usedLen packet)
            popped := s.popped ++ [(chain.nextDescriptor s.mem).2] }

/-- The chains that a call serves in at most `n` turns of its loop. -/
def DmaCall.chains (n : ℕ) (queue : VirtQueue) (mem : M) : DmaCall → List (ServedChain M)
  | .blockQueue dev => (served VirtioBlockDevice.serve n { dev, queue, mem }).map .block
  | .netQueue dev queueIdx =>
    if queueIdx = 1 then (served VirtioNetDevice.serveTx n { dev, queue, mem }).map .netTx
    else if queueIdx = 0 then ((dev.attempt queue mem).map .netRx).toList
    else []
  | .netPoll dev => ((dev.drainChannel.attempt queue mem).map .netRx).toList
  | .vsockQueue dev queueIdx =>
    if queueIdx = 1 then (served VirtioVsockDevice.serveTx n { dev, queue, mem }).map .vsockTx
    else if queueIdx = 2 then
      (served VirtioVsockDevice.serveEvent n { dev, queue, mem }).map .vsockEvent
    else []
  | .vsockPoll dev => polledChains (dev.rxPending ++ dev.rxChannel)
      { dev := { dev with rxChannel := [] }, queue, mem }

theorem ServedChain.Lead.congr_queue {q q' : VirtQueue} {i : UInt16}
    (hq : q' = { q with lastAvailIdx := i }) {cs : List (ServedChain M)} {m m' : M}
    (h : Lead q' m cs m') : Lead q m cs m' := by
  subst hq
  induction cs generalizing m with
  | nil => exact h
  | cons c cs ih => exact ⟨h.1, ih h.2⟩

/-- The chains of a queue loop lead to the memory the loop leaves. -/
theorem lead_served {σ : Type} (serve : σ → DescriptorChain → M → Served σ M)
    (f : Turn σ M → ServedChain M) (hchain : ∀ t, (f t).chain = t.chain)
    (hmem : ∀ t, (f t).mem = t.mem)
    (hafter : ∀ t, (f t).after = (serve t.dev t.chain t.mem).mem)
    (hlen : ∀ t, (f t).len = (serve t.dev t.chain t.mem).written) (n : ℕ) :
    ∀ s : LoopState σ M,
      ServedChain.Lead s.queue s.mem ((served serve n s).map f) (turns serve n s).mem := by
  induction n with
  | zero => exact fun s => rfl
  | succ n ih =>
    intro s
    rw [served, turns]
    cases hd : drainStep serve s with
    | none =>
      rw [drainStep_eq_none_iff.1 hd]
      rfl
    | some t =>
      obtain ⟨chain, queue, hpop, rfl⟩ := drainStep_eq_some hd
      rw [hpop]
      refine ⟨hmem _, ?_⟩
      rw [hafter, hchain, hlen]
      obtain ⟨_, _, -, -, -, -, -, hq⟩ := VirtQueue.popChain_eq_some hpop
      have hrest := ih { dev := (serve s.dev chain s.mem).dev, queue
                         mem := queue.pushUsed (serve s.dev chain s.mem).mem chain.headIdx
                           (serve s.dev chain s.mem).written
                         popped := s.popped ++ [(serve s.dev chain s.mem).chain] }
      rw [hq] at hrest ⊢
      exact hrest.congr_queue rfl

/-- The chain that `deliverRx` uses leads to the memory it leaves. -/
theorem lead_deliverRx (dev : VirtioNetDevice) (queue : VirtQueue) (mem : M) :
    ServedChain.Lead queue mem ((dev.attempt queue mem).map ServedChain.netRx).toList
      (dev.deliverRx queue mem).2.mem := by
  unfold VirtioNetDevice.attempt VirtioNetDevice.deliverRx
  cases dev.rxPending with
  | nil => rfl
  | cons frame rest =>
    cases hpop : queue.popChain mem with
    | none => rfl
    | some p =>
      obtain ⟨chain, queue'⟩ := p
      obtain ⟨_, _, -, -, -, -, -, rfl⟩ := VirtQueue.popChain_eq_some hpop
      refine ⟨rfl, ?_⟩
      dsimp only
      split_ifs <;> rfl

/-- The chains that `injectRx` uses lead to the memory it leaves. -/
theorem lead_injectRx (packets : List VsockPacket) : ∀ s : LoopState VirtioVsockDevice M,
    ServedChain.Lead s.queue s.mem (polledChains packets s)
      (VirtioVsockDevice.injectRx packets s).2.mem := by
  induction packets with
  | nil => exact fun s => rfl
  | cons packet rest ih =>
    intro s
    unfold polledChains VirtioVsockDevice.injectRx
    dsimp only
    cases hpop : s.queue.popChain s.mem with
    | none => rfl
    | some p =>
      obtain ⟨chain, queue⟩ := p
      obtain ⟨_, _, -, -, -, -, -, hq⟩ := VirtQueue.popChain_eq_some hpop
      refine ⟨rfl, ?_⟩
      simp only [ServedChain.after, ServedChain.len, ServedChain.chain, rxDescriptor]
      cases hn : chain.nextDescriptor s.mem with
      | mk od chain' =>
        cases od with
        | none =>
          rw [hq]
          rfl
        | some d =>
          dsimp only
          by_cases hw : d.isDeviceWritable = true
          · rw [Option.filter_some, if_pos hw, if_pos hw]
            have hrest := ih { s with
              queue
              mem := queue.pushUsed (VirtioVsockDevice.writePacket s.mem d packet) chain.headIdx
                (VirtioVsockDevice.usedLen packet)
              popped := s.popped ++ [chain'] }
            rw [hq] at hrest ⊢
            exact hrest.congr_queue rfl
          · rw [Option.filter_some, if_neg hw, if_neg hw, hq]
            rfl

/-- A read of one sector byte, where the status descriptor points at no memory. -/
def statusNowhere : Vmm.MappedMemory :=
  Vmm.MappedMemory.ram 4096 Vmm.MappedMemory.page_pos (Vmm.MappedMemory.image [
    (0, [0, 1, 0, 0, 0, 0, 0, 0, 16, 0, 0, 0, 1, 0, 1, 0]),
    (16, [0, 2, 0, 0, 0, 0, 0, 0, 1, 0, 0, 0, 3, 0, 2, 0]),
    (32, [0, 0, 1, 0, 0, 0, 0, 0, 1, 0, 0, 0, 2, 0, 0, 0]), (64, [0, 0, 1, 0])])

end Hitz.Devices

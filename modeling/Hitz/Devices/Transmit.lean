import Hitz.Devices.Confinement
import Hitz.Devices.VsockHeader

/-!
# What leaves the guest

The network and the socket device both serve a transmit chain by gathering its device-readable
buffers and sending what they gathered to the host.  A `Transmitter` is such a device.  Over any
sequence of notifications, what it sends is what its chains give, one after the other
(`Transmitter.sent_notifyAll`).

* `frames_whole_iff`: the network device sends the frames of its chains, whole;
* `packets_well_formed_iff`: the socket device sends the packets of its chains, whole.

Both gather loops skip a buffer that cannot be read and stop at a size cap, and send what they have
all the same; the two theorems say for which chains that does no harm.
-/

namespace Hitz.Devices

open ByteStore

/-! ### Transmitters -/

/-- A device that sends something to the host for each chain of its transmit queue, as long as the
host listens. -/
structure Transmitter (σ M β : Type) [ByteStore M] where
  serve : σ → DescriptorChain → M → Served σ M
  sent : σ → List β
  connected : σ → Bool
  connect : Bool → σ → σ
  out : DescriptorChain → M → Option β
  sent_serve : ∀ dev chain mem, sent (serve dev chain mem).dev =
    sent dev ++ if connected dev then (out chain mem).toList else []
  connected_serve : ∀ dev chain mem, connected (serve dev chain mem).dev = connected dev
  sent_connect : ∀ c dev, sent (connect c dev) = sent dev
  connected_connect : ∀ c dev, connected (connect c dev) = c

/-- A notification: the queue and the memory as the device finds them, whether the host listens,
and how many turns the loop makes. -/
structure Notification (M : Type) where
  queue : VirtQueue
  mem : M
  connected : Bool
  turns : ℕ

/-- A chain that was served: whether the host listened, the chain and the memory. -/
structure Handled (M : Type) where
  connected : Bool
  chain : DescriptorChain
  mem : M

namespace Transmitter

variable {σ M β : Type} [ByteStore M] (T : Transmitter σ M β)

/-- The state in which a notification is served. -/
def start (dev : σ) (n : Notification M) : LoopState σ M :=
  { dev := T.connect n.connected dev, queue := n.queue, mem := n.mem }

/-- The device after a notification. -/
def notify (dev : σ) (n : Notification M) : σ := (turns T.serve n.turns (T.start dev n)).dev

/-- The device after a sequence of notifications. -/
def notifyAll (dev : σ) (ns : List (Notification M)) : σ := ns.foldl T.notify dev

/-- The chains served in a sequence of notifications. -/
def handled : σ → List (Notification M) → List (Handled M)
  | _, [] => []
  | dev, n :: ns =>
    (served T.serve n.turns (T.start dev n)).map (fun t => ⟨n.connected, t.chain, t.mem⟩) ++
      handled (T.notify dev n) ns

/-- What a chain sends to the host. -/
def forwarded (h : Handled M) : Option β := if h.connected then T.out h.chain h.mem else none

theorem sent_notify (dev : σ) (n : Notification M) : T.sent (T.notify dev n) = T.sent dev ++
    ((served T.serve n.turns (T.start dev n)).map fun t =>
      (⟨n.connected, t.chain, t.mem⟩ : Handled M)).filterMap T.forwarded := by
  rw [List.filterMap_map, ← T.sent_connect n.connected dev]
  refine turns_log T.sent (fun dev => T.connected dev = n.connected)
    (fun chain mem => T.forwarded ⟨n.connected, chain, mem⟩) ?_ n.turns (T.start dev n)
    (T.connected_connect n.connected dev)
  intro dev chain mem hdev
  refine ⟨?_, (T.connected_serve dev chain mem).trans hdev⟩
  rw [T.sent_serve, hdev, forwarded]
  split_ifs <;> rfl

/-- What was sent is what the chains that were served give, in order. -/
theorem sent_notifyAll (dev : σ) (ns : List (Notification M)) :
    T.sent (T.notifyAll dev ns) = T.sent dev ++ (T.handled dev ns).filterMap T.forwarded := by
  induction ns generalizing dev with
  | nil => simp [notifyAll, handled]
  | cons n ns ih =>
    have hcons : T.notifyAll dev (n :: ns) = T.notifyAll (T.notify dev n) ns := rfl
    rw [hcons, ih, T.sent_notify, handled, List.filterMap_append, List.append_assoc]

end Transmitter

/-- Two ways to map a list agree in the end exactly when they agree everywhere, if one of them keeps
everything that the other keeps. -/
theorem filterMap_eq_filterMap_iff {α β : Type} {f g : α → Option β}
    (h : ∀ a b, g a = some b → f a = some b) (l : List α) :
    l.filterMap f = l.filterMap g ↔ ∀ a ∈ l, f a = g a := by
  refine ⟨fun heq => ?_, fun hall => List.filterMap_congr hall⟩
  have hle : ∀ l : List α, (l.filterMap g).length ≤ (l.filterMap f).length := by
    intro l
    induction l with
    | nil => rfl
    | cons a l ih =>
      cases hg : g a with
      | none =>
        rw [List.filterMap_cons_none hg]
        refine ih.trans ?_
        cases hf : f a with
        | none => rw [List.filterMap_cons_none hf]
        | some b => rw [List.filterMap_cons_some hf, List.length_cons]; omega
      | some b =>
        rw [List.filterMap_cons_some hg, List.filterMap_cons_some (h a b hg)]
        exact Nat.succ_le_succ ih
  induction l with
  | nil => exact fun a ha => absurd ha (List.not_mem_nil)
  | cons a l ih =>
    have hhead : f a = g a ∧ l.filterMap f = l.filterMap g := by
      cases hg : g a with
      | some b =>
        rw [List.filterMap_cons_some hg, List.filterMap_cons_some (h a b hg)] at heq
        exact ⟨h a b hg, List.tail_eq_of_cons_eq heq⟩
      | none =>
        cases hf : f a with
        | none =>
          rw [List.filterMap_cons_none hg, List.filterMap_cons_none hf] at heq
          exact ⟨rfl, heq⟩
        | some b =>
          -- one entry more on the left than on the right
          rw [List.filterMap_cons_none hg, List.filterMap_cons_some hf] at heq
          have hlen := congrArg List.length heq
          rw [List.length_cons] at hlen
          have := hle l
          omega
    intro x hx
    rcases List.mem_cons.1 hx with rfl | hx
    · exact hhead.1
    · exact ih hhead.2 x hx

/-! ### Frames -/

section frames

variable {M : Type} [ByteStore M]

/-- The device-readable descriptors. -/
def readable (ds : List Descriptor) : List Descriptor := ds.filter fun d => !d.isDeviceWritable

/-- The bytes in the device-readable buffers, if all of them can be read. -/
def readAll (mem : M) (ds : List Descriptor) : Option (List UInt8) :=
  ((readable ds).mapM fun d => read mem d.gpa.toNat d.len.toNat).map List.flatten

/-- The frame in a chain: its device-readable buffers without the header, if they can all be read
and hold more than the header and at most 65536 bytes. -/
def frameOf (chain : DescriptorChain) (mem : M) : Option (List UInt8) :=
  (readAll mem (chain.descriptors mem)).bind fun data =>
    if virtioNetHdrSize < data.length ∧ data.length ≤ maxGather then
      some (data.drop virtioNetHdrSize)
    else none

/-- The bytes that the transmit loop takes: it skips a buffer that is not mapped, and stops at the
first that would go over the cap. -/
def taken (mem : M) : List Descriptor → ℕ → ℕ
  | [], n => n
  | d :: ds, n =>
    if d.isDeviceWritable then taken mem ds n
    else if maxGather < n + d.len.toNat then n
    else taken mem ds (if mapped mem d.gpa.toNat d.len.toNat then n + d.len.toNat else n)

/-- The chains that do no harm: all device-readable buffers are mapped and hold at most 65536 bytes,
or there is nothing to take but a header. -/
def FrameWhole (mem : M) (ds : List Descriptor) : Prop :=
  ((∀ d ∈ readable ds, mapped mem d.gpa.toNat d.len.toNat = true) ∧
    ((readable ds).map fun d => d.len.toNat).sum ≤ maxGather) ∨
  taken mem ds 0 ≤ virtioNetHdrSize

/-- The network device as a transmitter. -/
def netTransmitter : Transmitter VirtioNetDevice M (List UInt8) where
  serve := VirtioNetDevice.serveTx
  sent dev := dev.txSent
  connected dev := dev.txConnected
  connect c dev := { dev with txConnected := c }
  out chain mem :=
    let frame := (walkChain VirtioNetDevice.txBody chain [] mem).2.1
    if virtioNetHdrSize < frame.length then some (frame.drop virtioNetHdrSize) else none
  sent_serve dev chain mem := by
    simp only [VirtioNetDevice.serveTx]
    cases dev.txConnected <;> split_ifs <;> simp_all
  connected_serve dev chain mem := by
    simp only [VirtioNetDevice.serveTx]
    split_ifs <;> rfl
  sent_connect _ _ := rfl
  connected_connect _ _ := rfl

/-- What the transmit loop gathers from a chain. -/
theorem gathered_eq (chain : DescriptorChain) (mem : M) :
    (walkChain VirtioNetDevice.txBody chain [] mem).2.1 =
      foldBody VirtioNetDevice.txBody mem (chain.descriptors mem) [] := by
  rw [walkChain_of_readOnly VirtioNetDevice.mem_txBody]

theorem gather_eq (data : List UInt8) (mem : M) (d : Descriptor) : gather data mem d =
    if mapped mem d.gpa.toNat d.len.toNat then data ++ bytes mem d.gpa.toNat d.len.toNat
    else data := by
  unfold gather
  rw [read_eq]
  split_ifs <;> rfl

theorem VirtioNetDevice.txBody_writable {a : List UInt8} {mem : M} {d : Descriptor}
    (hw : d.isDeviceWritable = true) : txBody a mem d = (a, mem, true) := by
  rw [txBody, if_pos hw]

theorem VirtioNetDevice.txBody_cap {a : List UInt8} {mem : M} {d : Descriptor}
    (hw : ¬ d.isDeviceWritable = true) (hcap : maxGather < a.length + d.len.toNat) :
    txBody a mem d = (a, mem, false) := by
  rw [txBody, if_neg hw, if_pos hcap]

theorem VirtioNetDevice.txBody_gather {a : List UInt8} {mem : M} {d : Descriptor}
    (hw : ¬ d.isDeviceWritable = true) (hcap : ¬ maxGather < a.length + d.len.toNat) :
    txBody a mem d = (gather a mem d, mem, true) := by
  rw [txBody, if_neg hw, if_neg hcap]

theorem length_foldBody_txBody (mem : M) (ds : List Descriptor) (a : List UInt8) :
    (foldBody VirtioNetDevice.txBody mem ds a).length = taken mem ds a.length := by
  induction ds generalizing a with
  | nil => rfl
  | cons d ds ih =>
    rw [taken]
    split_ifs with hw hcap hm
    · rw [foldBody_go (VirtioNetDevice.txBody_writable hw), ih]
    · rw [foldBody_stop (VirtioNetDevice.txBody_cap hw hcap)]
    · rw [foldBody_go (VirtioNetDevice.txBody_gather hw hcap), ih, gather_eq, if_pos hm,
        List.length_append, length_bytes]
    · rw [foldBody_go (VirtioNetDevice.txBody_gather hw hcap), ih, gather_eq, if_neg hm]

/-- If the buffers can all be read and stay under the cap, the loop gathers all of them. -/
theorem foldBody_txBody_of_mapped {mem : M} {ds : List Descriptor} {a : List UInt8}
    (hmap : ∀ d ∈ readable ds, mapped mem d.gpa.toNat d.len.toNat = true)
    (hsum : a.length + ((readable ds).map fun d => d.len.toNat).sum ≤ maxGather) :
    foldBody VirtioNetDevice.txBody mem ds a =
      a ++ ((readable ds).map fun d => bytes mem d.gpa.toNat d.len.toNat).flatten := by
  induction ds generalizing a with
  | nil => simp [foldBody, readable]
  | cons d ds ih =>
    by_cases hw : d.isDeviceWritable
    · have hr : readable (d :: ds) = readable ds := by simp [readable, hw]
      rw [hr] at hmap hsum
      rw [foldBody_go (VirtioNetDevice.txBody_writable hw), hr, ih hmap hsum]
    · have hr : readable (d :: ds) = d :: readable ds := by simp [readable, hw]
      rw [hr] at hmap hsum
      rw [List.map_cons, List.sum_cons] at hsum
      have hd := hmap d (List.mem_cons_self ..)
      rw [foldBody_go (VirtioNetDevice.txBody_gather hw (by omega)), gather_eq, if_pos hd, hr, ih]
      · simp
      · exact fun e he => hmap e (List.mem_cons_of_mem _ he)
      · rw [List.length_append, length_bytes]
        omega

theorem readAll_eq (mem : M) (ds : List Descriptor) : readAll mem ds =
    if ∀ d ∈ readable ds, mapped mem d.gpa.toNat d.len.toNat = true then
      some ((readable ds).map fun d => bytes mem d.gpa.toNat d.len.toNat).flatten
    else none := by
  have hmapM : ∀ rs : List Descriptor, rs.mapM (fun d => read mem d.gpa.toNat d.len.toNat) =
      if ∀ d ∈ rs, mapped mem d.gpa.toNat d.len.toNat = true then
        some (rs.map fun d => bytes mem d.gpa.toNat d.len.toNat)
      else none := by
    intro rs
    induction rs with
    | nil => rfl
    | cons d rs ih =>
      have hcons : (∀ e ∈ d :: rs, mapped mem e.gpa.toNat e.len.toNat = true) ↔
          mapped mem d.gpa.toNat d.len.toNat = true ∧
            ∀ e ∈ rs, mapped mem e.gpa.toNat e.len.toNat = true := List.forall_mem_cons
      rw [List.mapM_cons, ih]
      by_cases hd : mapped mem d.gpa.toNat d.len.toNat = true
      · rw [read_of_mapped hd]
        by_cases hrs : ∀ e ∈ rs, mapped mem e.gpa.toNat e.len.toNat = true
        · rw [if_pos hrs, if_pos (hcons.2 ⟨hd, hrs⟩)]
          rfl
        · rw [if_neg hrs, if_neg fun h => hrs (hcons.1 h).2]
          rfl
      · rw [read_eq, if_neg hd, if_neg fun h => hd (hcons.1 h).1]
        rfl
  rw [readAll, hmapM]
  split_ifs <;> rfl

theorem length_flatten_bytes (mem : M) (ds : List Descriptor) :
    ((ds.map fun d => bytes mem d.gpa.toNat d.len.toNat).flatten).length =
      (ds.map fun d => d.len.toNat).sum := by
  rw [List.length_flatten, List.map_map]
  congr 1
  exact List.map_congr_left fun d _ => length_bytes _ _ _

/-- A chain sends its frame exactly when it does no harm. -/
theorem out_eq_frameOf_iff (chain : DescriptorChain) (mem : M) :
    netTransmitter.out chain mem = frameOf chain mem ↔ FrameWhole mem (chain.descriptors mem) := by
  have hout : netTransmitter.out chain mem =
      if virtioNetHdrSize < (foldBody VirtioNetDevice.txBody mem (chain.descriptors mem) []).length
      then some ((foldBody VirtioNetDevice.txBody mem (chain.descriptors mem) []).drop
        virtioNetHdrSize)
      else none := by
    rw [← gathered_eq]
    rfl
  rw [hout, frameOf, FrameWhole, readAll_eq]
  generalize chain.descriptors mem = ds
  by_cases hmap : ∀ d ∈ readable ds, mapped mem d.gpa.toNat d.len.toNat = true
  · rw [if_pos hmap, Option.bind_some, length_flatten_bytes]
    by_cases hsum : ((readable ds).map fun d => d.len.toNat).sum ≤ maxGather
    · -- the whole chain is gathered
      have hfold := foldBody_txBody_of_mapped (a := []) hmap (by simpa using hsum)
      rw [hfold, List.nil_append, length_flatten_bytes]
      simp only [hsum, and_true]
      exact iff_of_true trivial (Or.inl hmap)
    · rw [length_foldBody_txBody, List.length_nil]
      simp [hsum]
  · rw [if_neg hmap, Option.bind_none, length_foldBody_txBody, List.length_nil]
    simp [hmap]

/-- The frame of a chain is sent. -/
theorem out_of_frameOf {chain : DescriptorChain} {mem : M} {frame : List UInt8}
    (h : frameOf chain mem = some frame) : netTransmitter.out chain mem = some frame := by
  rw [← h, out_eq_frameOf_iff]
  rw [frameOf, readAll_eq] at h
  by_cases hmap : ∀ d ∈ readable (chain.descriptors mem), mapped mem d.gpa.toNat d.len.toNat = true
  · rw [if_pos hmap, Option.bind_some, length_flatten_bytes] at h
    split_ifs at h with hlen
    exact Or.inl ⟨hmap, hlen.2⟩
  · rw [if_neg hmap] at h
    cases h

/-- The frame that a chain should send. -/
def Handled.frame (h : Handled M) : Option (List UInt8) :=
  if h.connected then frameOf h.chain h.mem else none

/-- The frames sent are those of the chains, one for each chain that holds a frame and none for any
other, exactly when no chain does harm. -/
theorem frames_whole_iff (dev : VirtioNetDevice) (ns : List (Notification M)) :
    (netTransmitter.notifyAll dev ns).txSent =
      dev.txSent ++ (netTransmitter.handled dev ns).filterMap Handled.frame ↔
    ∀ h ∈ netTransmitter.handled dev ns, h.connected = true →
      FrameWhole h.mem (h.chain.descriptors h.mem) := by
  have hsent : (netTransmitter.notifyAll dev ns).txSent = _ := netTransmitter.sent_notifyAll dev ns
  have hdev : netTransmitter.sent (M := M) dev = dev.txSent := rfl
  have hkeep : ∀ (h : Handled M) frame, h.frame = some frame →
      netTransmitter.forwarded h = some frame := by
    intro h frame hframe
    unfold Handled.frame at hframe
    unfold Transmitter.forwarded
    split_ifs at hframe ⊢
    exact out_of_frameOf hframe
  rw [hsent, hdev, List.append_right_inj, filterMap_eq_filterMap_iff hkeep]
  refine forall₂_congr fun h _ => ?_
  rw [Transmitter.forwarded, Handled.frame]
  by_cases hc : h.connected
  · rw [if_pos hc, if_pos hc, out_eq_frameOf_iff]
    simp [hc]
  · simp [hc]

/-- A chain of two device-readable buffers: 16 bytes at 256, and 16 bytes where there is no
memory. -/
def tornFrame : Notification Vmm.MappedMemory where
  queue := smallQueue
  mem := Vmm.MappedMemory.ram 4096 Vmm.MappedMemory.page_pos (Vmm.MappedMemory.image [
    (0, [0, 1, 0, 0, 0, 0, 0, 0, 16, 0, 0, 0, 1, 0, 1, 0]),
    (16, [0, 0, 1, 0, 0, 0, 0, 0, 16, 0, 0, 0, 0, 0, 0, 0]),
    (64, [0, 0, 1, 0]), (268, [1, 2, 3, 4])])
  connected := true
  turns := 1

/-- The first half of a frame whose second half cannot be read is sent as a frame. -/
theorem torn_frame_sent :
    (netTransmitter.notifyAll { mac := [] } [tornFrame]).txSent = [[1, 2, 3, 4]] ∧
    (netTransmitter.notifyAll { mac := [] } [tornFrame]).txSent ≠
      [] ++ (netTransmitter.handled { mac := [] } [tornFrame]).filterMap Handled.frame := by
  decide +kernel

end frames

/-! ### Packets -/

section packets

variable {M : Type} [ByteStore M]

/-- The bytes in the device-readable buffers of a chain, up to the first that cannot be read. -/
def stream (mem : M) : List Descriptor → List UInt8
  | [] => []
  | d :: ds =>
    if d.isDeviceWritable ∨ d.len = 0 then stream mem ds
    else if mapped mem d.gpa.toNat d.len.toNat then
      bytes mem d.gpa.toNat d.len.toNat ++ stream mem ds
    else []

/-- The bytes in the device-readable buffers of a chain, up to the first descriptor that is
device-writable, cannot be read or goes over the cap. -/
def clean (mem : M) : List Descriptor → ℕ → List UInt8
  | [], _ => []
  | d :: ds, n =>
    if d.isDeviceWritable ∨ maxGather < n + d.len.toNat then []
    else if d.len = 0 then clean mem ds n
    else if mapped mem d.gpa.toNat d.len.toNat then
      bytes mem d.gpa.toNat d.len.toNat ++ clean mem ds (n + d.len.toNat)
    else []

/-- The bytes hold a header and the payload it announces. -/
def Complete (raw : List UInt8) (hdr : VsockHdr) : Prop :=
  VsockHdr.fromBytes raw = some hdr ∧ vsockHdrSize + hdr.len.toNat ≤ raw.length

/-- What a chain with the given bytes should forward. -/
structure WellFormed (raw : List UInt8) (out : Option VsockPacket) : Prop where
  payload : ∀ hdr payload, out = some (hdr, payload) → VsockHdr.fromBytes raw = some hdr ∧
    payload.length = hdr.len.toNat ∧ payload = (raw.drop vsockHdrSize).take hdr.len.toNat
  short : (∀ hdr, ¬ Complete raw hdr) → out = none
  complete : ∀ hdr, Complete raw hdr → hdr.len ≤ vsockBufAlloc → out.isSome

/-- The bytes that the socket's transmit loop takes. -/
def packetTaken (mem : M) (ds : List Descriptor) : ℕ :=
  taken mem (ds.takeWhile fun d => !d.isDeviceWritable) 0

/-- The chains that do no harm: the packet is complete before anything stops the loop or is skipped
by it, or the loop takes less than a header and there is no packet to forward. -/
def PacketWhole (mem : M) (ds : List Descriptor) : Prop :=
  (∃ hdr, Complete (clean mem ds 0) hdr) ∨
  packetTaken mem ds < vsockHdrSize ∧
    ∀ hdr, Complete (stream mem ds) hdr → vsockBufAlloc < hdr.len

/-- The socket device as a transmitter. -/
def vsockTransmitter : Transmitter VirtioVsockDevice M VsockPacket where
  serve := VirtioVsockDevice.serveTx
  sent dev := dev.txSent
  connected dev := dev.txConnected
  connect c dev := { dev with txConnected := c }
  out chain mem :=
    VirtioVsockDevice.decodePacket (walkChain VirtioVsockDevice.txBody chain [] mem).2.1
  sent_serve dev chain mem := by
    simp only [VirtioVsockDevice.serveTx]
    cases VirtioVsockDevice.decodePacket (walkChain VirtioVsockDevice.txBody chain [] mem).2.1 with
    | none => simp
    | some packet => cases hc : dev.txConnected <;> simp
  connected_serve dev chain mem := by
    simp only [VirtioVsockDevice.serveTx]
    cases VirtioVsockDevice.decodePacket (walkChain VirtioVsockDevice.txBody chain [] mem).2.1 with
    | none => rfl
    | some packet => cases hc : dev.txConnected <;> simp [hc]
  sent_connect _ _ := rfl
  connected_connect _ _ := rfl

theorem VirtioVsockDevice.txBody_writable {a : List UInt8} {mem : M} {d : Descriptor}
    (hw : d.isDeviceWritable = true) : txBody a mem d = (a, mem, false) := by
  rw [txBody, if_pos hw]

theorem VirtioVsockDevice.txBody_cap {a : List UInt8} {mem : M} {d : Descriptor}
    (hw : ¬ d.isDeviceWritable = true) (hcap : maxGather < a.length + d.len.toNat) :
    txBody a mem d = (a, mem, false) := by
  rw [txBody, if_neg hw, if_pos hcap]

theorem VirtioVsockDevice.txBody_gather {a : List UInt8} {mem : M} {d : Descriptor}
    (hw : ¬ d.isDeviceWritable = true) (hcap : ¬ maxGather < a.length + d.len.toNat) :
    txBody a mem d = (gather a mem d, mem, true) := by
  rw [txBody, if_neg hw, if_neg hcap]

/-- Up to the first device-writable descriptor the two transmit loops do the same. -/
theorem foldBody_vsock (mem : M) (ds : List Descriptor) (a : List UInt8) :
    foldBody VirtioVsockDevice.txBody mem ds a =
      foldBody VirtioNetDevice.txBody mem (ds.takeWhile fun d => !d.isDeviceWritable) a := by
  induction ds generalizing a with
  | nil => rfl
  | cons d ds ih =>
    by_cases hw : d.isDeviceWritable
    · rw [List.takeWhile_cons_of_neg (by simp [hw]),
        foldBody_stop (VirtioVsockDevice.txBody_writable hw)]
      rfl
    · rw [List.takeWhile_cons_of_pos (by simp [hw])]
      by_cases hcap : maxGather < a.length + d.len.toNat
      · rw [foldBody_stop (VirtioNetDevice.txBody_cap hw hcap),
          foldBody_stop (VirtioVsockDevice.txBody_cap hw hcap)]
      · rw [foldBody_go (VirtioNetDevice.txBody_gather hw hcap),
          foldBody_go (VirtioVsockDevice.txBody_gather hw hcap), ih]

/-- The gathered bytes extend those they started from. -/
theorem exists_foldBody_eq_append (mem : M) (ds : List Descriptor) (a : List UInt8) :
    ∃ t, foldBody VirtioVsockDevice.txBody mem ds a = a ++ t := by
  induction ds generalizing a with
  | nil => exact ⟨[], (List.append_nil a).symm⟩
  | cons d ds ih =>
    by_cases hw : d.isDeviceWritable
    · exact ⟨[], by rw [foldBody_stop (VirtioVsockDevice.txBody_writable hw), List.append_nil]⟩
    by_cases hcap : maxGather < a.length + d.len.toNat
    · exact ⟨[], by rw [foldBody_stop (VirtioVsockDevice.txBody_cap hw hcap), List.append_nil]⟩
    · rw [foldBody_go (VirtioVsockDevice.txBody_gather hw hcap), gather_eq]
      split_ifs
      · obtain ⟨t, ht⟩ := ih (a ++ bytes mem d.gpa.toNat d.len.toNat)
        exact ⟨_, by rw [ht, List.append_assoc]⟩
      · exact ih a

/-- What the loop gathers and what the chain holds start with the same bytes, and one of them ends
there. -/
theorem gathered_or_stream (mem : M) (ds : List Descriptor) (a : List UInt8) :
    (foldBody VirtioVsockDevice.txBody mem ds a = a ++ clean mem ds a.length ∧
      ∃ t, stream mem ds = clean mem ds a.length ++ t) ∨
    (stream mem ds = clean mem ds a.length ∧
      ∃ t, foldBody VirtioVsockDevice.txBody mem ds a = a ++ clean mem ds a.length ++ t) := by
  induction ds generalizing a with
  | nil => exact Or.inl ⟨(List.append_nil a).symm, [], rfl⟩
  | cons d ds ih =>
    by_cases hw : d.isDeviceWritable
    · refine Or.inl ⟨?_, stream mem (d :: ds), by rw [clean, if_pos (Or.inl hw), List.nil_append]⟩
      rw [foldBody_stop (VirtioVsockDevice.txBody_writable hw), clean, if_pos (Or.inl hw),
        List.append_nil]
    by_cases hcap : maxGather < a.length + d.len.toNat
    · refine Or.inl ⟨?_, stream mem (d :: ds), by rw [clean, if_pos (Or.inr hcap), List.nil_append]⟩
      rw [foldBody_stop (VirtioVsockDevice.txBody_cap hw hcap), clean, if_pos (Or.inr hcap),
        List.append_nil]
    rw [foldBody_go (VirtioVsockDevice.txBody_gather hw hcap), gather_eq, stream, clean,
      if_neg (not_or_intro hw hcap)]
    by_cases hlen : d.len = 0
    · -- an empty buffer adds nothing, whether it can be read or not
      have hsame : (if mapped mem d.gpa.toNat d.len.toNat then
          a ++ bytes mem d.gpa.toNat d.len.toNat else a) = a := by
        rw [hlen]
        split_ifs
        · exact List.append_nil a
        · rfl
      rw [hsame, if_pos (Or.inr hlen), if_pos hlen]
      exact ih a
    · rw [if_neg (not_or_intro hw hlen), if_neg hlen]
      split_ifs with hm
      · have ih' := ih (a ++ bytes mem d.gpa.toNat d.len.toNat)
        rw [List.length_append, length_bytes] at ih'
        rcases ih' with ⟨hfold, t, ht⟩ | ⟨hs, t, ht⟩
        · exact Or.inl ⟨by rw [hfold, List.append_assoc], t, by rw [ht, List.append_assoc]⟩
        · exact Or.inr ⟨by rw [hs], t, by rw [ht]; simp only [List.append_assoc]⟩
      · -- the buffer is skipped
        obtain ⟨t, ht⟩ := exists_foldBody_eq_append mem ds a
        exact Or.inr ⟨rfl, t, by rw [ht, List.append_nil]⟩

/-- A complete packet stays complete, and the same, when more bytes follow. -/
theorem Complete.append {p : List UInt8} {hdr : VsockHdr} (h : Complete p hdr) (t : List UInt8) :
    Complete (p ++ t) hdr ∧ ((p ++ t).drop vsockHdrSize).take hdr.len.toNat =
      (p.drop vsockHdrSize).take hdr.len.toNat := by
  obtain ⟨hhdr, hlen⟩ := h
  have hp : vsockHdrSize ≤ p.length := by omega
  refine ⟨⟨by rw [VsockHdr.fromBytes_append hp, hhdr], by rw [List.length_append]; omega⟩, ?_⟩
  rw [List.drop_append_of_le_length hp, List.take_append_of_le_length]
  rw [List.length_drop]
  omega

/-- Decoding a complete packet. -/
theorem wellFormed_of_complete {p raw str : List UInt8} {hdr : VsockHdr} (h : Complete p hdr)
    (hraw : ∃ t, raw = p ++ t) (hstr : ∃ t, str = p ++ t) :
    WellFormed str (VirtioVsockDevice.decodePacket raw) := by
  obtain ⟨t, rfl⟩ := hraw
  obtain ⟨t', rfl⟩ := hstr
  obtain ⟨⟨hhdr, hlen⟩, hpay⟩ := h.append t
  obtain ⟨hstr, hpay'⟩ := h.append t'
  have hdec : VirtioVsockDevice.decodePacket (p ++ t) =
      some (hdr, (p.drop vsockHdrSize).take hdr.len.toNat) := by
    rw [VirtioVsockDevice.decodePacket, hhdr, Option.map_some, if_pos hlen, hpay]
  rw [hdec]
  refine ⟨?_, fun hshort => absurd hstr (hshort hdr), fun _ _ _ => rfl⟩
  rintro hdr' payload ⟨⟩
  refine ⟨hstr.1, ?_, hpay'.symm⟩
  rw [List.length_take, List.length_drop]
  have := h.2
  omega

/-- When decoding what was gathered gives what the chain holds, if both start with `p` and one of
them ends there. -/
theorem wellFormed_iff {p raw str : List UInt8}
    (h : (raw = p ∧ ∃ t, str = p ++ t) ∨ (str = p ∧ ∃ t, raw = p ++ t)) :
    WellFormed str (VirtioVsockDevice.decodePacket raw) ↔
      (∃ hdr, Complete p hdr) ∨
      raw.length < vsockHdrSize ∧ ∀ hdr, Complete str hdr → vsockBufAlloc < hdr.len := by
  have hraw : ∃ t, raw = p ++ t := by
    rcases h with ⟨rfl, -⟩ | ⟨-, ht⟩
    · exact ⟨[], (List.append_nil _).symm⟩
    · exact ht
  have hstr : ∃ t, str = p ++ t := by
    rcases h with ⟨-, ht⟩ | ⟨rfl, -⟩
    · exact ht
    · exact ⟨[], (List.append_nil _).symm⟩
  by_cases hp : ∃ hdr, Complete p hdr
  · obtain ⟨hdr, hc⟩ := hp
    exact iff_of_true (wellFormed_of_complete hc hraw hstr) (Or.inl ⟨hdr, hc⟩)
  by_cases hlen : raw.length < vsockHdrSize
  · -- nothing is forwarded
    have hnone : VirtioVsockDevice.decodePacket raw = none := by
      rw [VirtioVsockDevice.decodePacket, VsockHdr.fromBytes_eq_none hlen, Option.map_none]
    rw [hnone]
    constructor
    · intro hwf
      refine Or.inr ⟨hlen, fun hdr hc => ?_⟩
      by_contra hle
      exact absurd (hwf.complete hdr hc (UInt32.not_lt.1 hle)) (by simp)
    · rintro (hc | ⟨-, hbig⟩)
      · exact absurd hc hp
      · refine ⟨fun _ _ h => absurd h (by simp), fun _ => rfl, fun hdr hc hle => ?_⟩
        exact absurd hle (UInt32.not_le.2 (hbig hdr hc))
  · -- a header whose payload is not all there is forwarded
    obtain ⟨hdr, hhdr⟩ := VsockHdr.exists_fromBytes (Nat.le_of_not_lt hlen)
    refine iff_of_false (fun hwf => ?_) (not_or_intro hp fun h => hlen h.1)
    rcases h with ⟨rfl, -⟩ | ⟨rfl, -⟩
    · have hshort : ¬ vsockHdrSize + hdr.len.toNat ≤ raw.length := fun hle => hp ⟨hdr, hhdr, hle⟩
      have hdec : VirtioVsockDevice.decodePacket raw = some (hdr, []) := by
        rw [VirtioVsockDevice.decodePacket, hhdr, Option.map_some, if_neg hshort]
      obtain ⟨-, hzero, -⟩ := hwf.payload hdr [] hdec
      rw [List.length_nil] at hzero
      omega
    · have hnone := hwf.short fun hdr hc => hp ⟨hdr, hc⟩
      rw [VirtioVsockDevice.decodePacket, hhdr] at hnone
      cases hnone

theorem vsockTransmitter_out (chain : DescriptorChain) (mem : M) : vsockTransmitter.out chain mem =
    VirtioVsockDevice.decodePacket
      (foldBody VirtioVsockDevice.txBody mem (chain.descriptors mem) []) := by
  show VirtioVsockDevice.decodePacket (walkChain VirtioVsockDevice.txBody chain [] mem).2.1 = _
  rw [walkChain_of_readOnly VirtioVsockDevice.mem_txBody]

/-- A chain forwards the packet it holds exactly when it does no harm. -/
theorem wellFormed_out_iff (chain : DescriptorChain) (mem : M) :
    WellFormed (stream mem (chain.descriptors mem)) (vsockTransmitter.out chain mem) ↔
      PacketWhole mem (chain.descriptors mem) := by
  rw [vsockTransmitter_out, wellFormed_iff (gathered_or_stream mem (chain.descriptors mem) []),
    foldBody_vsock, length_foldBody_txBody]
  rfl

/-- Everything sent is what the chains forward, in order, and these are the packets that the chains
hold exactly when no chain does harm. -/
theorem packets_well_formed_iff (dev : VirtioVsockDevice) (ns : List (Notification M)) :
    (vsockTransmitter.notifyAll dev ns).txSent = dev.txSent ++
      (vsockTransmitter.handled dev ns).filterMap vsockTransmitter.forwarded ∧
    ((∀ h ∈ vsockTransmitter.handled dev ns, h.connected = true →
      WellFormed (stream h.mem (h.chain.descriptors h.mem)) (vsockTransmitter.forwarded h)) ↔
    ∀ h ∈ vsockTransmitter.handled dev ns, h.connected = true →
      PacketWhole h.mem (h.chain.descriptors h.mem)) := by
  refine ⟨vsockTransmitter.sent_notifyAll dev ns, forall₃_congr fun h _ hc => ?_⟩
  rw [Transmitter.forwarded, if_pos hc, wellFormed_out_iff]

/-- A chain of one buffer: a header that announces four bytes, and only two of them. -/
def shortPacket : Notification Vmm.MappedMemory where
  queue := smallQueue
  mem := Vmm.MappedMemory.ram 4096 Vmm.MappedMemory.page_pos (Vmm.MappedMemory.image [
    (0, [0, 1, 0, 0, 0, 0, 0, 0, 46, 0, 0, 0, 0, 0, 0, 0]), (64, [0, 0, 1, 0]),
    (280, [4, 0, 0, 0, 1, 0, 5, 0]), (300, [1, 2])])
  connected := true
  turns := 1

/-- The header is forwarded with an empty payload. -/
theorem short_packet_forwarded :
    (vsockTransmitter.notifyAll { guestCid := 3 } [shortPacket]).txSent.map
      (fun packet => (packet.1.len, packet.2)) = [(4, [])] ∧
    ∃ h ∈ vsockTransmitter.handled { guestCid := 3 } [shortPacket], h.connected = true ∧
      ¬ WellFormed (stream h.mem (h.chain.descriptors h.mem)) (vsockTransmitter.forwarded h) := by
  refine ⟨by decide +kernel, ⟨true, ⟨0, 4, 0, some 0, 0, []⟩, shortPacket.mem⟩, List.Mem.head _,
    rfl, fun hwf => ?_⟩
  have hpayload := hwf.payload ⟨0, 0, 0, 0, 4, 1, 5, 0, 0, 0⟩ [] (by decide +kernel)
  exact absurd hpayload.2.1 (by decide)

end packets

end Hitz.Devices

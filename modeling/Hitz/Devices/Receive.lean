import Hitz.Lib.Runs
import Hitz.Devices.Confinement

/-!
# What reaches the guest

The network device (`deliverRx`) and the socket device (`injectRx`) hand what waits in `rxPending`
to the guest.  A run is any interleaving of arrivals on the channel and calls of the device, each
with its own queue and memory.

* `frames_received_iff`: the guest receives the frames, whole, once and in order, exactly as long
  as every chain has room for its frame or for nothing;
* `packets_received`: the same for packets, as long as they fit the first buffer of their chain.

Both devices drop what they delivered in part.
-/

namespace Hitz.Devices

open ByteStore

variable {M : Type} [ByteStore M]

/-- An entry of the used ring: its length, and the bytes that were written to the buffers. -/
structure UsedEntry where
  len : UInt32
  bytes : List UInt8
  deriving DecidableEq, Repr

/-! ### Frames -/

namespace VirtioNetDevice

/-- What is written for a frame: an empty header and the frame. -/
def rxPayload (frame : List UInt8) : List UInt8 := List.replicate virtioNetHdrSize 0 ++ frame

/-- The write that the receive walk makes at a descriptor, if it makes one and it succeeds. -/
def rxNote (payload : List UInt8) (acc : UInt32 × ℕ) (mem : M) (d : Descriptor) :
    List (ℕ × List UInt8) :=
  if d.isDeviceWritable ∧ acc.2 < payload.length then
    let chunk := (payload.drop acc.2).take (min (payload.length - acc.2) d.len.toNat)
    if (write mem d.gpa.toNat chunk).isSome then [(d.gpa.toNat, chunk)] else []
  else []

/-- Does a buffer take a part of a payload of `n` bytes, from `off` on? -/
def Takes (n off : ℕ) (mem : M) (d : Descriptor) : Prop :=
  d.isDeviceWritable ∧ off < n ∧ mapped mem d.gpa.toNat (min (n - off) d.len.toNat)

instance (n off : ℕ) (mem : M) (d : Descriptor) : Decidable (Takes n off mem d) :=
  inferInstanceAs (Decidable (_ ∧ _ ∧ _))

/-- How far the buffers take a payload of `n` bytes, from `off` on. -/
def room (mem : M) (n : ℕ) : List Descriptor → ℕ → ℕ
  | [], off => off
  | d :: ds, off =>
    room mem n ds (if Takes n off mem d then off + min (n - off) d.len.toNat else off)

theorem room_congr {mem mem' : M} (h : mapped mem' = mapped mem) (n : ℕ) (ds : List Descriptor)
    (off : ℕ) : room mem' n ds off = room mem n ds off := by
  induction ds generalizing off with
  | nil => rfl
  | cons d ds ih =>
    have ht : Takes n off mem' d ↔ Takes n off mem d := by rw [Takes, Takes, h]
    simp only [room, ih, ht]

theorem length_chunk (payload : List UInt8) (off len : ℕ) :
    ((payload.drop off).take (min (payload.length - off) len)).length =
      min (payload.length - off) len := by
  rw [List.length_take, List.length_drop]
  omega

theorem rxBody_of_takes {payload : List UInt8} {acc : UInt32 × ℕ} {mem : M} {d : Descriptor}
    (h : Takes payload.length acc.2 mem d) :
    ∃ mem', write mem d.gpa.toNat
        ((payload.drop acc.2).take (min (payload.length - acc.2) d.len.toNat)) = some mem' ∧
      rxBody payload acc mem d =
        ((acc.1 + UInt32.ofNat (min (payload.length - acc.2) d.len.toNat),
          acc.2 + min (payload.length - acc.2) d.len.toNat), mem', true) ∧
      rxNote payload acc mem d = [(d.gpa.toNat,
        (payload.drop acc.2).take (min (payload.length - acc.2) d.len.toNat))] := by
  obtain ⟨hw, hlt, hm⟩ := h
  rw [← length_chunk] at hm
  obtain ⟨mem', hmem'⟩ := exists_write hm
  refine ⟨mem', hmem', ?_, ?_⟩
  · simp only [rxBody, if_pos (And.intro hw hlt), hmem']
  · simp only [rxNote, if_pos (And.intro hw hlt), hmem', Option.isSome_some, if_true]

theorem rxBody_of_not_takes {payload : List UInt8} {acc : UInt32 × ℕ} {mem : M} {d : Descriptor}
    (h : ¬ Takes payload.length acc.2 mem d) :
    rxBody payload acc mem d = (acc, mem, true) ∧ rxNote payload acc mem d = [] := by
  unfold rxBody rxNote
  by_cases hd : d.isDeviceWritable ∧ acc.2 < payload.length
  · have hm : mapped mem d.gpa.toNat ((payload.drop acc.2).take
        (min (payload.length - acc.2) d.len.toNat)).length = false := by
      rw [length_chunk]
      exact Bool.eq_false_iff.2 fun hm => h ⟨hd.1, hd.2, hm⟩
    have hnone := Option.isSome_eq_false_iff.1 ((isSome_write _ _ _).trans hm)
    simp only [if_pos hd, Option.isNone_iff_eq_none.1 hnone, Option.isSome_none]
    exact ⟨trivial, rfl⟩
  · rw [if_neg hd, if_neg hd]
    exact ⟨rfl, rfl⟩

/-- What a receive walk did, given the writes it made: the buffers took the payload from one offset
to the other, these bytes were written to them and counted. -/
structure RxWalked (payload : List UInt8) (c c' : DescriptorChain) (acc acc' : UInt32 × ℕ)
    (mem mem' : M) (log : List (ℕ × List UInt8)) : Prop where
  room : ∃ ds, c'.seen = c.seen ++ ds ∧ acc'.2 = room mem payload.length ds acc.2 ∧
    ∀ w ∈ log, ∃ d ∈ ds, d.isDeviceWritable = true ∧ w.1 = d.gpa.toNat ∧ w.2.length ≤ d.len.toNat
  bytes : payload.take acc'.2 = payload.take acc.2 ++ log.flatMap Prod.snd
  count : acc'.1 = UInt32.ofNat acc'.2
  le : acc'.2 ≤ payload.length
  mem_eq : mem' = replay mem log

theorem rxWalked (payload : List UInt8) : ∀ fuel (c : DescriptorChain) acc (mem : M),
    acc.2 ≤ payload.length → acc.1 = UInt32.ofNat acc.2 →
    RxWalked payload c (walk (rxBody payload) fuel c acc mem).1 acc
      (walk (rxBody payload) fuel c acc mem).2.1 mem (walk (rxBody payload) fuel c acc mem).2.2
      (walkLog (rxBody payload) (rxNote payload) fuel c acc mem) := by
  intro fuel
  induction fuel with
  | zero =>
    intro c acc mem hle hcount
    exact ⟨⟨[], (List.append_nil _).symm, rfl, by simp [walkLog]⟩, (List.append_nil _).symm,
      hcount, hle, rfl⟩
  | succ fuel ih =>
    intro c acc mem hle hcount
    rw [walk, walkLog]
    have hseen := c.nextDescriptor_seen mem
    cases hn : c.nextDescriptor mem with
    | mk od c' =>
      rw [hn] at hseen
      cases od with
      | none =>
        exact ⟨⟨[], hseen, rfl, by simp⟩, (List.append_nil _).symm, hcount, hle, rfl⟩
      | some d =>
        dsimp only
        by_cases ht : Takes payload.length acc.2 mem d
        · obtain ⟨mem', hwrite, hbody, hnote⟩ := rxBody_of_takes ht
          rw [hbody, hnote]
          set k := min (payload.length - acc.2) d.len.toNat with hk
          obtain ⟨⟨ds, hds, hroom, hin⟩, hbytes, hcount', hle', hmem⟩ :=
            ih c' (acc.1 + UInt32.ofNat k, acc.2 + k) mem' (by dsimp only; omega)
              (by rw [hcount]; exact (UInt32.ofNat_add _ _).symm)
          refine ⟨⟨d :: ds, ?_, ?_, ?_⟩, ?_, hcount', hle', ?_⟩
          · rw [hds, hseen, Option.toList_some, List.append_assoc]
            rfl
          · rw [hroom, room, if_pos ht, room_congr (mapped_write _ _ _ _ hwrite)]
          · intro w hw
            rcases List.mem_cons.1 hw with rfl | hw
            · exact ⟨d, List.mem_cons_self .., ht.1, rfl, by rw [length_chunk]; omega⟩
            · obtain ⟨e, he, hw⟩ := hin w hw
              exact ⟨e, List.mem_cons_of_mem _ he, hw⟩
          · rw [hbytes, List.take_add, List.append_assoc]
            rfl
          · rw [hmem, ← put_of_write hwrite]
            rfl
        · obtain ⟨hbody, hnote⟩ := rxBody_of_not_takes ht
          rw [hbody, hnote]
          obtain ⟨⟨ds, hds, hroom, hin⟩, hbytes, hcount', hle', hmem⟩ := ih c' acc mem hle hcount
          refine ⟨⟨d :: ds, ?_, ?_, fun w hw => ?_⟩, hbytes, hcount', hle', hmem⟩
          · rw [hds, hseen, Option.toList_some, List.append_assoc]
            rfl
          · rw [hroom, room, if_neg ht]
          · obtain ⟨e, he, hw⟩ := hin w hw
            exact ⟨e, List.mem_cons_of_mem _ he, hw⟩

/-! #### Runs -/

/-- A delivery that is tried: the frame, and the chain and the memory it is written to. -/
structure Attempt (M : Type) where
  frame : List UInt8
  chain : DescriptorChain
  mem : M

namespace Attempt

/-- The walk that writes the frame. -/
def walked (a : Attempt M) : DescriptorChain × (UInt32 × ℕ) × M :=
  walkChain (rxBody (rxPayload a.frame)) a.chain (0, 0) a.mem

/-- The writes made to the buffers of the chain. -/
def log (a : Attempt M) : List (ℕ × List UInt8) :=
  walkLog (rxBody (rxPayload a.frame)) (rxNote (rxPayload a.frame))
    (a.chain.queueSize.toNat + 1) a.chain (0, 0) a.mem

/-- The used entry of the chain. -/
def entry (a : Attempt M) : UsedEntry where
  len := a.walked.2.1.1
  bytes := a.log.flatMap Prod.snd

/-- The buffers of the chain, as it yields them while the frame is written. -/
def buffers (a : Attempt M) : List Descriptor := a.walked.1.seen.drop a.chain.seen.length

/-- The chain has room for the frame and its header, or for nothing.  The counter is a `u32`. -/
def WholeOrNothing (a : Attempt M) : Prop :=
  room a.mem (virtioNetHdrSize + a.frame.length) a.buffers 0 =
      virtioNetHdrSize + a.frame.length ∧ virtioNetHdrSize + a.frame.length < 2 ^ 32 ∨
  room a.mem (virtioNetHdrSize + a.frame.length) a.buffers 0 % 2 ^ 32 = 0

end Attempt

/-- The delivery that `deliverRx` tries. -/
def attempt (dev : VirtioNetDevice) (queue : VirtQueue) (mem : M) : Option (Attempt M) :=
  match dev.rxPending, queue.popChain mem with
  | frame :: _, some (chain, _) => some { frame, chain, mem }
  | _, _ => none

theorem deliverRx_of_none {dev : VirtioNetDevice} {queue : VirtQueue} {mem : M}
    (h : dev.attempt queue mem = none) : (dev.deliverRx queue mem).2.dev = dev := by
  unfold attempt at h
  unfold deliverRx
  cases hp : dev.rxPending with
  | nil => rfl
  | cons frame rest =>
    cases hq : queue.popChain mem with
    | none => rfl
    | some p => simp [hp, hq] at h

theorem deliverRx_of_some {dev : VirtioNetDevice} {queue : VirtQueue} {mem : M} {a : Attempt M}
    (h : dev.attempt queue mem = some a) : ∃ rest, dev.rxPending = a.frame :: rest ∧
      (dev.deliverRx queue mem).2.dev =
        if 0 < a.entry.len then { dev with rxPending := rest } else dev := by
  unfold attempt at h
  unfold deliverRx
  cases hp : dev.rxPending with
  | nil => simp [hp] at h
  | cons frame rest =>
    cases hq : queue.popChain mem with
    | none => simp [hp, hq] at h
    | some p =>
      simp only [hp, hq, Option.some.injEq] at h
      subst h
      refine ⟨rest, rfl, ?_⟩
      dsimp only
      show _ = if 0 < (walkChain (rxBody (rxPayload frame)) p.1 (0, 0) mem).2.1.1 then _ else _
      unfold rxPayload
      split_ifs <;> rfl

theorem length_rxPayload (frame : List UInt8) :
    (rxPayload frame).length = virtioNetHdrSize + frame.length := by
  rw [rxPayload, List.length_append, List.length_replicate]

theorem Attempt.rxWalked (a : Attempt M) : RxWalked (rxPayload a.frame) a.chain a.walked.1 (0, 0)
    a.walked.2.1 a.mem a.walked.2.2 a.log :=
  VirtioNetDevice.rxWalked (rxPayload a.frame) (a.chain.queueSize.toNat + 1) a.chain (0, 0) a.mem
    (Nat.zero_le _) rfl

/-- What is written to the buffers is the part of the payload that they have room for. -/
theorem entry_eq (a : Attempt M) : ∃ off,
    off = room a.mem (virtioNetHdrSize + a.frame.length) a.buffers 0 ∧
    off ≤ virtioNetHdrSize + a.frame.length ∧
    a.entry = { len := UInt32.ofNat off, bytes := (rxPayload a.frame).take off } := by
  obtain ⟨⟨ds, hds, hroom, -⟩, hbytes, hcount, hle, -⟩ := a.rxWalked
  rw [length_rxPayload] at hroom hle
  have hbuffers : a.buffers = ds := by
    rw [Attempt.buffers, hds, List.drop_left]
  refine ⟨a.walked.2.1.2, by rw [hbuffers]; exact hroom, hle, ?_⟩
  show UsedEntry.mk _ _ = UsedEntry.mk _ _
  rw [UsedEntry.mk.injEq]
  exact ⟨hcount, hbytes.symm⟩

theorem entry_len_eq_zero_iff (a : Attempt M) : a.entry.len = 0 ↔
    room a.mem (virtioNetHdrSize + a.frame.length) a.buffers 0 % 2 ^ 32 = 0 := by
  obtain ⟨off, hoff, -, hentry⟩ := entry_eq a
  rw [← hoff, hentry, ← UInt32.toNat_inj, UInt32.toNat_ofNat']
  rfl

/-- The entry has the whole frame exactly when there is room for it, and it can be counted. -/
theorem entry_whole_iff (a : Attempt M) :
    (a.entry.len.toNat = virtioNetHdrSize + a.frame.length ∧ a.entry.bytes = rxPayload a.frame) ↔
      room a.mem (virtioNetHdrSize + a.frame.length) a.buffers 0 =
        virtioNetHdrSize + a.frame.length ∧ virtioNetHdrSize + a.frame.length < 2 ^ 32 := by
  obtain ⟨off, hoff, hle, hentry⟩ := entry_eq a
  have hlen : a.entry.len.toNat = off % 2 ^ 32 := by rw [hentry, UInt32.toNat_ofNat']
  rw [← hoff, hlen]
  constructor
  · rintro ⟨hcount, hbytes⟩
    have hbyteslen := congrArg List.length hbytes
    rw [hentry, List.length_take, length_rxPayload] at hbyteslen
    exact ⟨by omega, by omega⟩
  · rintro ⟨hall, hlt⟩
    refine ⟨by rw [hall, Nat.mod_eq_of_lt hlt], ?_⟩
    rw [hentry, hall, List.take_of_length_le (length_rxPayload _).le]

/-- A run: the device, the frames that arrived and the used entries with a non-zero length. -/
structure RxRun where
  dev : VirtioNetDevice
  arrived : List (List UInt8) := []
  received : List UsedEntry := []

/-- What can happen: a frame arrives on the channel, the guest notifies the receive queue, or the
run loop polls. -/
inductive RxEvent (M : Type) where
  | arrive (frame : List UInt8)
  | notify (queue : VirtQueue) (mem : M)
  | poll (queue : VirtQueue) (mem : M)

/-- `poll_rx` first moves the frames from the channel to the pending ones. -/
def drainChannel (dev : VirtioNetDevice) : VirtioNetDevice :=
  { dev with rxChannel := [], rxPending := dev.rxPending ++ dev.rxChannel }

namespace RxRun

/-- A call of `deliverRx` on the device `dev`. -/
def deliver (s : RxRun) (dev : VirtioNetDevice) (queue : VirtQueue) (mem : M) : RxRun :=
  { s with
    dev := (dev.deliverRx queue mem).2.dev
    received := s.received ++
      (((dev.attempt queue mem).map Attempt.entry).filter fun e => e.len != 0).toList }

/-- One event. -/
def step (s : RxRun) : RxEvent M → RxRun
  | .arrive frame =>
    { s with
      dev := { s.dev with rxChannel := s.dev.rxChannel ++ [frame] }
      arrived := s.arrived ++ [frame] }
  | .notify queue mem => s.deliver s.dev queue mem
  | .poll queue mem => s.deliver s.dev.drainChannel queue mem

/-- The delivery that an event tries. -/
def tries (s : RxRun) : RxEvent M → Option (Attempt M)
  | .arrive _ => none
  | .notify queue mem => s.dev.attempt queue mem
  | .poll queue mem => s.dev.drainChannel.attempt queue mem

/-- The frames that arrived are those received, each whole and behind an empty header, and then
those that wait. -/
def Faithful (s : RxRun) : Prop :=
  ∃ delivered, s.arrived = delivered ++ (s.dev.rxPending ++ s.dev.rxChannel) ∧
    s.received.map (fun e => (e.len.toNat, e.bytes)) =
      delivered.map fun frame => (virtioNetHdrSize + frame.length, rxPayload frame)

/-- The device's entry points do what the events say. -/
theorem dev_step (s : RxRun) (queue : VirtQueue) (mem : M) (fuel : ℕ) :
    s.dev.processQueue fuel 0 queue mem = some (s.dev.deliverRx queue mem).2 ∧
    (s.step (.poll queue mem)).dev = (s.dev.pollRx queue mem).2.dev := ⟨rfl, rfl⟩

/-- The first frame is no longer waiting, and there is one more entry. -/
theorem faithful_received_iff {s : RxRun} (h : Faithful s) {frame : List UInt8}
    {rest : List (List UInt8)} (hp : s.dev.rxPending = frame :: rest) (e : UsedEntry) :
    Faithful { s with
        dev := { s.dev with rxPending := rest }
        received := s.received ++ [e] } ↔
      e.len.toNat = virtioNetHdrSize + frame.length ∧ e.bytes = rxPayload frame := by
  obtain ⟨delivered, harrived, hreceived⟩ := h
  rw [hp] at harrived
  constructor
  · rintro ⟨delivered', harrived', hreceived'⟩
    -- what has arrived and what waits determine what was delivered
    have hd : delivered' = delivered ++ [frame] := by
      have heq : delivered' ++ (rest ++ s.dev.rxChannel) =
          delivered ++ [frame] ++ (rest ++ s.dev.rxChannel) := by
        rw [List.append_assoc]
        exact harrived'.symm.trans harrived
      exact List.append_cancel_right heq
    subst hd
    rw [List.map_append, List.map_append, hreceived, List.append_cancel_left_eq] at hreceived'
    simpa only [List.map_cons, List.map_nil, List.cons.injEq, Prod.mk.injEq, and_true]
      using hreceived'
  · rintro ⟨hcount, hbytes⟩
    refine ⟨delivered ++ [frame], ?_, ?_⟩
    · rw [List.append_assoc]
      exact harrived
    · rw [List.map_append, List.map_append, hreceived]
      simp only [List.map_cons, List.map_nil, hcount, hbytes]

theorem faithful_deliver {s : RxRun} {dev : VirtioNetDevice} (queue : VirtQueue) (mem : M)
    (h : Faithful { s with dev }) : Faithful (s.deliver dev queue mem) ↔
      ∀ a, dev.attempt queue mem = some a → a.WholeOrNothing := by
  cases ha : dev.attempt queue mem with
  | none =>
    have hs : s.deliver dev queue mem = { s with dev } := by
      rw [deliver, deliverRx_of_none ha, ha, Option.map_none, Option.filter_none,
        Option.toList_none, List.append_nil]
    rw [hs]
    exact iff_of_true h (by simp)
  | some a =>
    obtain ⟨rest, hp, hdev⟩ := deliverRx_of_some ha
    simp only [Option.some.injEq, forall_eq', Attempt.WholeOrNothing, ← entry_len_eq_zero_iff,
      ← entry_whole_iff]
    by_cases hzero : a.entry.len = 0
    · -- nothing is counted, and the frame goes on waiting
      have hs : s.deliver dev queue mem = { s with dev } := by
        rw [deliver, hdev, hzero, if_neg (by decide), ha, Option.map_some, Option.filter_some,
          hzero, if_neg (by decide), Option.toList_none, List.append_nil]
      rw [hs]
      exact iff_of_true h (Or.inr hzero)
    · have hpos : 0 < a.entry.len := UInt32.pos_iff_ne_zero.2 hzero
      have hs : s.deliver dev queue mem =
          { s with
            dev := { dev with rxPending := rest }
            received := s.received ++ [a.entry] } := by
        rw [deliver, hdev, if_pos hpos, ha, Option.map_some, Option.filter_some,
          if_pos (bne_iff_ne.2 hzero), Option.toList_some]
      rw [hs, or_iff_left hzero]
      exact faithful_received_iff h hp a.entry

/-- One event keeps the run faithful exactly when the delivery it tries has room for its frame, or
for nothing. -/
theorem faithful_step {s : RxRun} (h : s.Faithful) (e : RxEvent M) :
    (s.step e).Faithful ↔ ∀ a, s.tries e = some a → a.WholeOrNothing := by
  cases e with
  | arrive frame =>
    obtain ⟨delivered, harrived, hreceived⟩ := h
    refine iff_of_true ⟨delivered, ?_, hreceived⟩ (by simp [tries])
    simp only [step, harrived, List.append_assoc]
  | notify queue mem => exact faithful_deliver queue mem h
  | poll queue mem =>
    obtain ⟨delivered, harrived, hreceived⟩ := h
    refine faithful_deliver queue mem ⟨delivered, ?_, hreceived⟩
    simp only [drainChannel, List.append_nil]
    exact harrived

/-- A frame of four bytes arrives, and the guest has posted a buffer of 14 bytes. -/
def shortBuffer : List (RxEvent Vmm.MappedMemory) :=
  [.arrive [1, 2, 3, 4], .poll smallQueue (Vmm.MappedMemory.ram 4096 Vmm.MappedMemory.page_pos
    (Vmm.MappedMemory.image [
      (0, [0, 1, 0, 0, 0, 0, 0, 0, 14, 0, 0, 0, 2, 0, 0, 0]), (64, [0, 0, 1, 0])]))]

end RxRun

end VirtioNetDevice

/-! ### Packets -/

namespace VirtioVsockDevice

/-- A packet that is written to the guest: the packet, the chain it is written to, its first
descriptor and the memory before. -/
structure Injection (M : Type) where
  packet : VsockPacket
  chain : DescriptorChain
  desc : Descriptor
  mem : M

/-- The packets that `injectRx` writes, in order. -/
def injections : List VsockPacket → LoopState VirtioVsockDevice M → List (Injection M)
  | [], _ => []
  | packet :: rest, s =>
    match s.queue.popChain s.mem with
    | none => []
    | some (chain, queue) =>
      match chain.nextDescriptor s.mem with
      | (none, _) => []
      | (some desc, chain') =>
        if desc.isDeviceWritable then
          let mem := queue.pushUsed (writePacket s.mem desc packet) chain.headIdx (usedLen packet)
          { packet, chain, desc, mem := s.mem } ::
            injections rest { s with queue, mem, popped := s.popped ++ [chain'] }
        else []

/-- The addresses of the device-writable buffers of a chain, in order. -/
def addresses (ds : List Descriptor) : List ℕ :=
  (ds.filter fun d => d.isDeviceWritable).flatMap fun d => List.range' d.gpa.toNat d.len.toNat

namespace Injection

/-- The number of bytes of the packet. -/
def total (i : Injection M) : ℕ := vsockHdrSize + i.packet.2.length

/-- The used entry of the chain: what the guest finds in the device-writable buffers, up to the
used length. -/
def entry (i : Injection M) : UsedEntry where
  len := usedLen i.packet
  bytes := ((addresses (i.chain.descriptors i.mem)).take (usedLen i.packet).toNat).map
    (byte (writePacket i.mem i.desc i.packet))

/-- The packet fits: its bytes, from the first descriptor's address on, are where the
device-writable buffers of the chain are, header and payload are mapped, and the length is a
`u32`. -/
structure Fits (i : Injection M) : Prop where
  room : (addresses (i.chain.descriptors i.mem)).take i.total =
    List.range' i.desc.gpa.toNat i.total
  header : mapped i.mem i.desc.gpa.toNat vsockHdrSize = true
  payload : i.packet.2 ≠ [] →
    mapped i.mem (i.desc.gpa.toNat + vsockHdrSize) i.packet.2.length = true
  len : i.total < 2 ^ 32

instance (i : Injection M) : Decidable i.Fits :=
  decidable_of_iff
    ((addresses (i.chain.descriptors i.mem)).take i.total =
        List.range' i.desc.gpa.toNat i.total ∧
      mapped i.mem i.desc.gpa.toNat vsockHdrSize = true ∧
      (i.packet.2 ≠ [] →
        mapped i.mem (i.desc.gpa.toNat + vsockHdrSize) i.packet.2.length = true) ∧
      i.total < 2 ^ 32)
    ⟨fun ⟨h₁, h₂, h₃, h₄⟩ => ⟨h₁, h₂, h₃, h₄⟩, fun h => ⟨h.room, h.header, h.payload, h.len⟩⟩

/-- A packet that fits is written as a whole. -/
theorem bytes_writePacket {i : Injection M} (h : i.Fits) :
    bytes (writePacket i.mem i.desc i.packet) i.desc.gpa.toNat i.total =
      i.packet.1.toBytes ++ i.packet.2 := by
  have hhdr : i.packet.1.toBytes.length = vsockHdrSize := i.packet.1.length_toBytes
  obtain ⟨m₁, hm₁⟩ := exists_write (hhdr ▸ h.header)
  have hbytes₁ := bytes_write hm₁
  rw [hhdr] at hbytes₁
  unfold writePacket total
  rw [put_of_write hm₁]
  dsimp only
  split_ifs with hempty
  · rw [List.isEmpty_iff.1 hempty, List.length_nil, List.append_nil]
    exact hbytes₁
  · have hne : i.packet.2 ≠ [] := fun he => hempty (List.isEmpty_iff.2 he)
    have hpos : 0 < i.packet.2.length := List.length_pos_iff.2 hne
    have hm := h.payload hne
    have hlt := mapped_lt _ _ _ hm hpos
    rw [← mapped_write _ _ _ _ hm₁] at hm
    obtain ⟨m₂, hm₂⟩ := exists_write hm
    rw [checkedAdd_eq_some.2 ⟨by rw [hhdr]; omega, rfl⟩]
    dsimp only
    rw [hhdr, put_of_write hm₂, bytes_add, bytes_write hm₂, ← hbytes₁]
    congr 1
    -- the payload is written behind the header
    apply bytes_congr
    intro x _ hx
    rw [byte_write _ _ _ _ hm₂, if_neg (by omega)]

theorem entry_of_fits {i : Injection M} (h : i.Fits) :
    (i.entry.len.toNat, i.entry.bytes) = (i.total, i.packet.1.toBytes ++ i.packet.2) := by
  have hlen : (usedLen i.packet).toNat = i.total := by
    have hlt := h.len
    unfold total at hlt ⊢
    rw [usedLen, VsockHdr.length_toBytes, UInt32.toNat_ofNat']
    omega
  rw [Prod.mk.injEq]
  refine ⟨hlen, ?_⟩
  show ((addresses (i.chain.descriptors i.mem)).take (usedLen i.packet).toNat).map _ = _
  rw [hlen, h.room, ← bytes_writePacket h, bytes, List.range'_eq_map_range, List.map_map]
  rfl

end Injection

/-- The loop takes the packets it writes from the front, and keeps the others. -/
theorem injectRx_pending (packets : List VsockPacket) : ∀ s : LoopState VirtioVsockDevice M,
    packets = (injections packets s).map Injection.packet ++
      (injectRx packets s).2.dev.rxPending ∧
    (injectRx packets s).2.dev.rxChannel = s.dev.rxChannel := by
  induction packets with
  | nil => exact fun s => ⟨rfl, rfl⟩
  | cons packet rest ih =>
    intro s
    unfold injections injectRx
    dsimp only
    cases hpop : s.queue.popChain s.mem with
    | none => exact ⟨rfl, rfl⟩
    | some p =>
      obtain ⟨chain, queue⟩ := p
      dsimp only
      cases hn : chain.nextDescriptor s.mem with
      | mk od chain' =>
        cases od with
        | none => exact ⟨rfl, rfl⟩
        | some desc =>
          dsimp only
          split_ifs
          · obtain ⟨hp, hc⟩ := ih { s with
              queue
              mem := queue.pushUsed (writePacket s.mem desc packet) chain.headIdx (usedLen packet)
              popped := s.popped ++ [chain'] }
            exact ⟨congrArg (packet :: ·) hp, hc⟩
          · exact ⟨rfl, rfl⟩

/-- A run: the device, the packets that arrived and the used entries with a non-zero length. -/
structure RxRun where
  dev : VirtioVsockDevice
  arrived : List VsockPacket := []
  received : List UsedEntry := []

/-- What can happen: a packet arrives on the channel, or the run loop polls. -/
inductive RxEvent (M : Type) where
  | arrive (packet : VsockPacket)
  | poll (queue : VirtQueue) (mem : M)

namespace RxRun

/-- The packets that an event writes to the guest. -/
def writes (s : RxRun) : RxEvent M → List (Injection M)
  | .arrive _ => []
  | .poll queue mem => injections (s.dev.rxPending ++ s.dev.rxChannel)
      { dev := { s.dev with rxChannel := [] }, queue, mem }

/-- One event. -/
def step (s : RxRun) : RxEvent M → RxRun
  | .arrive packet =>
    { s with
      dev := { s.dev with rxChannel := s.dev.rxChannel ++ [packet] }
      arrived := s.arrived ++ [packet] }
  | .poll queue mem =>
    { s with
      dev := (s.dev.pollRx queue mem).2.dev
      received := s.received ++ (s.writes (.poll queue mem)).map Injection.entry }

/-- The packets that arrived are those received, each whole, and then those that wait. -/
def Faithful (s : RxRun) : Prop :=
  ∃ delivered, s.arrived = delivered ++ (s.dev.rxPending ++ s.dev.rxChannel) ∧
    s.received.map (fun e => (e.len.toNat, e.bytes)) =
      delivered.map fun packet =>
        (vsockHdrSize + packet.2.length, packet.1.toBytes ++ packet.2)

theorem faithful_step {s : RxRun} (h : s.Faithful) {e : RxEvent M}
    (hfit : ∀ i ∈ s.writes e, i.Fits) : (s.step e).Faithful := by
  obtain ⟨delivered, harrived, hreceived⟩ := h
  cases e with
  | arrive packet =>
    refine ⟨delivered, ?_, hreceived⟩
    simp only [step, harrived, List.append_assoc]
  | poll queue mem =>
    obtain ⟨hpackets, hchannel⟩ := injectRx_pending (s.dev.rxPending ++ s.dev.rxChannel)
      { dev := { s.dev with rxChannel := [] }, queue, mem }
    refine ⟨delivered ++ (s.writes (.poll queue mem)).map Injection.packet, ?_, ?_⟩
    · show s.arrived = _ ++ ((s.dev.pollRx queue mem).2.dev.rxPending ++
        (s.dev.pollRx queue mem).2.dev.rxChannel)
      have hnil : (s.dev.pollRx queue mem).2.dev.rxChannel = [] := hchannel
      rw [hnil, List.append_nil, List.append_assoc, harrived]
      exact congrArg (delivered ++ ·) hpackets
    · simp only [step, List.map_append, hreceived, List.map_map, List.append_cancel_left_eq]
      exact List.map_congr_left fun i hi => Injection.entry_of_fits (hfit i hi)

/-- A packet of four payload bytes. -/
def fourBytes : VsockPacket :=
  ({ srcCid := 2, dstCid := 3, srcPort := 1, dstPort := 1, len := 4, type := 1, op := 5
     flags := 0, bufAlloc := 0, fwdCnt := 0 }, [1, 2, 3, 4])

/-- The packet arrives, and the guest has posted one buffer of `len` bytes, at 256. -/
def oneBuffer (len : UInt8) : List (RxEvent Vmm.MappedMemory) :=
  [.arrive fourBytes, .poll smallQueue (Vmm.MappedMemory.ram 4096 Vmm.MappedMemory.page_pos
    (Vmm.MappedMemory.image [
      (0, [0, 1, 0, 0, 0, 0, 0, 0, len, 0, 0, 0, 2, 0, 0, 0]), (64, [0, 0, 1, 0])]))]

end RxRun

end VirtioVsockDevice

end Hitz.Devices

import Hitz.Vmm.Memory
import Hitz.Devices.Block
import Hitz.Devices.Vsock

/-!
# Which guest memory a device call changes

A call of `process_queue` or `poll_rx` should change guest memory only in the used ring of its
queue and in the device-writable buffers of the chains it pops.  Two writes are made without a
look at the length of the buffer: the status byte of a block request, and a packet injected by
the socket device.  `dma_confined` shows that nothing else can leave the buffers: whenever every
status buffer has room for its byte and every packet fits its buffer, the call is confined.

A call is looked at after any number of turns of its loop, so the result also covers a call that
has not ended yet.
-/

namespace Hitz.Devices

open ByteStore

variable {M : Type} [ByteStore M]

/-! ### Calls -/

/-- A call of one of the three backends on a queue. -/
inductive DmaCall
  | blockQueue (dev : VirtioBlockDevice)
  | netQueue (dev : VirtioNetDevice) (queueIdx : UInt16)
  | netPoll (dev : VirtioNetDevice)
  | vsockQueue (dev : VirtioVsockDevice) (queueIdx : UInt16)
  | vsockPoll (dev : VirtioVsockDevice)

/-- The chains popped and the memory after at most `n` turns of the call's loop. -/
def DmaCall.after (n : ℕ) (queue : VirtQueue) (mem : M) : DmaCall → List DescriptorChain × M
  | .blockQueue dev =>
    let s := turns VirtioBlockDevice.serve n { dev, queue, mem }
    (s.popped, s.mem)
  | .netQueue dev queueIdx =>
    if queueIdx = 1 then
      let s := turns VirtioNetDevice.serveTx n { dev, queue, mem }
      (s.popped, s.mem)
    else if queueIdx = 0 then
      let s := (dev.deliverRx queue mem).2
      (s.popped, s.mem)
    else ([], mem)
  | .netPoll dev =>
    let s := (dev.pollRx queue mem).2
    (s.popped, s.mem)
  | .vsockQueue dev queueIdx =>
    if queueIdx = 1 then
      let s := turns VirtioVsockDevice.serveTx n { dev, queue, mem }
      (s.popped, s.mem)
    else if queueIdx = 2 then
      let s := turns VirtioVsockDevice.serveEvent n { dev, queue, mem }
      (s.popped, s.mem)
    else ([], mem)
  | .vsockPoll dev =>
    let s := (dev.pollRx queue mem).2
    (s.popped, s.mem)

/-! ### Buffers that are large enough -/

/-- If the next chain's status descriptor is device-writable, it has room for the status byte. -/
def StatusFits (s : LoopState VirtioBlockDevice M) : Prop :=
  ∀ p ∈ s.queue.popChain s.mem, ∀ d ∈ s.dev.statusDescriptor p.1 s.mem,
    d.isDeviceWritable = true → 0 < d.len.toNat

instance (s : LoopState VirtioBlockDevice M) : Decidable (StatusFits s) :=
  inferInstanceAs (Decidable (∀ p ∈ s.queue.popChain s.mem,
    ∀ d ∈ s.dev.statusDescriptor p.1 s.mem, d.isDeviceWritable = true → 0 < d.len.toNat))

/-- Every packet of the list fits the buffer it is injected into. -/
def PacketsFit : List VsockPacket → LoopState VirtioVsockDevice M → Prop
  | [], _ => True
  | packet :: rest, s => ∀ chain queue d chain', s.queue.popChain s.mem = some (chain, queue) →
      chain.nextDescriptor s.mem = (some d, chain') → d.isDeviceWritable = true →
        vsockHdrSize + packet.2.length ≤ d.len.toNat ∧
          PacketsFit rest { s with
            queue
            mem := queue.pushUsed (VirtioVsockDevice.writePacket s.mem d packet) chain.headIdx
              (VirtioVsockDevice.usedLen packet)
            popped := s.popped ++ [chain'] }

/-- Every buffer the call writes without a length check is large enough. -/
def DmaCall.Fits (queue : VirtQueue) (mem : M) : DmaCall → Prop
  | .blockQueue dev => ∀ k, StatusFits (turns VirtioBlockDevice.serve k { dev, queue, mem })
  | .vsockPoll dev =>
    PacketsFit (dev.rxPending ++ dev.rxChannel) { dev := { dev with rxChannel := [] }, queue, mem }
  | .netQueue _ _ | .netPoll _ | .vsockQueue _ _ => True

/-! ### Confinement -/

theorem VirtQueue.usedRing_of_popChain {q q' : VirtQueue} {mem : M} {chain : DescriptorChain}
    (h : q.popChain mem = some (chain, q')) : q'.usedRing = q.usedRing := by
  obtain ⟨_, _, -, -, -, -, -, rfl⟩ := popChain_eq_some h
  rfl

/-- The loop is confined if serving each chain is. -/
theorem agree_turns {σ : Type} {serve : σ → DescriptorChain → M → Served σ M} {dev : σ}
    {queue : VirtQueue} {mem : M}
    (hserve : ∀ k chain q', (turns serve k { dev, queue, mem }).queue.popChain
        (turns serve k { dev, queue, mem }).mem = some (chain, q') →
      let t := turns serve k { dev, queue, mem }
      Agree (writableRanges [(serve t.dev chain t.mem).chain]) t.mem (serve t.dev chain t.mem).mem)
    (n : ℕ) :
    Agree (queue.usedRing ∪ writableRanges (turns serve n { dev, queue, mem }).popped) mem
      (turns serve n { dev, queue, mem }).mem := by
  -- the address of the used ring never changes
  suffices h : (turns serve n { dev, queue, mem }).queue.usedRing = queue.usedRing ∧
      Agree (queue.usedRing ∪ writableRanges (turns serve n { dev, queue, mem }).popped) mem
        (turns serve n { dev, queue, mem }).mem from h.2
  refine turns_invariant (I := fun s => s.queue.usedRing = queue.usedRing ∧
    Agree (queue.usedRing ∪ writableRanges s.popped) mem s.mem) ⟨rfl, Agree.refl _ _⟩ ?_ n
  · intro k t hI hstep
    have hk := hserve k
    generalize turns serve k { dev, queue, mem } = s at hI hstep hk
    obtain ⟨hring, hag⟩ := hI
    obtain ⟨chain, q', hpop, rfl⟩ := drainStep_eq_some hstep
    have hq := (VirtQueue.usedRing_of_popChain hpop).trans hring
    refine ⟨hq, ?_⟩
    have hpush := q'.agree_pushUsed (serve s.dev chain s.mem).mem chain.headIdx
      (serve s.dev chain s.mem).written
    rw [hq] at hpush
    exact ((hag.mono (Set.union_subset_union_right _ writableRanges_append_left)).trans
      ((hk chain q' hpop).mono (writableRanges_append_right.trans Set.subset_union_right))).trans
      (hpush.mono Set.subset_union_left)

/-- A block request whose status buffer has room stays inside its buffers. -/
theorem agree_blockServe {s : LoopState VirtioBlockDevice M} (hfit : StatusFits s)
    {chain : DescriptorChain} {queue : VirtQueue}
    (hpop : s.queue.popChain s.mem = some (chain, queue)) :
    Agree (writableRanges [(s.dev.serve chain s.mem).chain]) s.mem
      (s.dev.serve chain s.mem).mem := by
  obtain ⟨hag, hdata, hstatus⟩ := s.dev.serve_spec chain s.mem
  refine hag.mono ?_
  rintro x (⟨r, hr, -, -, hx⟩ | ⟨d, hd, hw, rfl⟩)
  · exact ⟨_, List.mem_singleton_self _, r.data, hdata r hr, hx⟩
  · refine ⟨_, List.mem_singleton_self _, d, hstatus d hd, ?_⟩
    have hlen := hfit (chain, queue) hpop d hd hw
    rw [Descriptor.writable, if_pos hw]
    exact ⟨le_rfl, by omega⟩

/-- Packets that fit their buffers are injected inside them. -/
theorem agree_injectRx {mem₀ : M} {queue₀ : VirtQueue} (packets : List VsockPacket) :
    ∀ s : LoopState VirtioVsockDevice M, s.queue.usedRing = queue₀.usedRing →
      Agree (queue₀.usedRing ∪ writableRanges s.popped) mem₀ s.mem → PacketsFit packets s →
      Agree (queue₀.usedRing ∪ writableRanges (VirtioVsockDevice.injectRx packets s).2.popped) mem₀
        (VirtioVsockDevice.injectRx packets s).2.mem := by
  induction packets with
  | nil => exact fun s _ hag _ => hag
  | cons packet rest ih =>
    intro s hring hag hfit
    rw [VirtioVsockDevice.injectRx]
    cases hpop : s.queue.popChain s.mem with
    | none => exact hag
    | some p =>
      obtain ⟨chain, queue⟩ := p
      have hq := (VirtQueue.usedRing_of_popChain hpop).trans hring
      -- what every branch does after the buffer was written or refused
      have hpush : ∀ (c : DescriptorChain) (m : M) (len : UInt32),
          Agree (queue₀.usedRing ∪ writableRanges (s.popped ++ [c])) s.mem m →
          Agree (queue₀.usedRing ∪ writableRanges (s.popped ++ [c])) mem₀
            (queue.pushUsed m chain.headIdx len) := by
        intro c m len hm
        have hused := queue.agree_pushUsed m chain.headIdx len
        rw [hq] at hused
        have hmem : Agree (queue₀.usedRing ∪ writableRanges (s.popped ++ [c])) mem₀ s.mem :=
          hag.mono (Set.union_subset_union_right _ writableRanges_append_left)
        exact (hmem.trans hm).trans (hused.mono Set.subset_union_left)
      dsimp only
      cases hd : chain.nextDescriptor s.mem with
      | mk od chain' =>
        cases od with
        | none => exact hpush chain' s.mem 0 (Agree.refl _ _)
        | some d =>
          dsimp only
          split_ifs with hw
          · obtain ⟨hlen, hrest⟩ := hfit chain queue d chain' hpop hd hw
            refine ih _ hq (hpush chain' _ _ ?_) hrest
            refine (VirtioVsockDevice.agree_writePacket s.mem d packet).mono fun x hx => Or.inr ?_
            refine ⟨chain', by simp, d, ?_, ?_⟩
            · have hseen := chain.nextDescriptor_seen s.mem
              rw [hd] at hseen
              rw [hseen]
              simp
            · rw [Descriptor.writable, if_pos hw]
              exact ⟨hx.1, lt_of_lt_of_le hx.2 (by omega)⟩
          · exact hpush chain' s.mem 0 (Agree.refl _ _)

/-- **Device calls are confined to their buffers** as long as the buffers that are written without
a length check are large enough. -/
theorem dma_confined (call : DmaCall) (n : ℕ) (queue : VirtQueue) (mem : M)
    (hfits : call.Fits queue mem) :
    Agree (queue.usedRing ∪ writableRanges (call.after n queue mem).1) mem
      (call.after n queue mem).2 := by
  cases call with
  | blockQueue dev => exact agree_turns (fun k _ _ hpop => agree_blockServe (hfits k) hpop) n
  | netQueue dev queueIdx =>
    dsimp only [DmaCall.after]
    split_ifs
    · refine agree_turns (fun k chain _ _ => ?_) n
      dsimp only
      rw [VirtioNetDevice.mem_serveTx]
      exact Agree.refl _ _
    · exact dev.agree_deliverRx queue mem
    · exact Agree.refl _ _
  | netPoll dev => exact VirtioNetDevice.agree_deliverRx _ queue mem
  | vsockQueue dev queueIdx =>
    dsimp only [DmaCall.after]
    split_ifs
    · refine agree_turns (fun k chain _ _ => ?_) n
      dsimp only
      rw [VirtioVsockDevice.mem_serveTx]
      exact Agree.refl _ _
    · exact agree_turns (fun k chain _ _ => Agree.refl _ _) n
    · exact Agree.refl _ _
  | vsockPoll dev => exact agree_injectRx _ _ rfl (Agree.refl _ _) hfits

/-! ### The two unchecked writes -/

/-- A ready queue of four entries: table at 0, available ring at 64, used ring at 128. -/
def smallQueue : VirtQueue where
  size := 4
  descGpa := 0
  availGpa := 64
  usedGpa := 128
  lastAvailIdx := 0
  ready := true
  size_pos := VirtQueue.four_pos
  size_le := VirtQueue.four_le

/-- A read of one sector byte whose status descriptor, at 768, has length `statusLen`. -/
def statusMemory (statusLen : UInt8) : Vmm.MappedMemory :=
  Vmm.MappedMemory.ram 4096 Vmm.MappedMemory.page_pos (Vmm.MappedMemory.image [
    (0, [0, 1, 0, 0, 0, 0, 0, 0, 16, 0, 0, 0, 1, 0, 1, 0]),
    (16, [0, 2, 0, 0, 0, 0, 0, 0, 1, 0, 0, 0, 3, 0, 2, 0]),
    (32, [0, 3, 0, 0, 0, 0, 0, 0, statusLen, 0, 0, 0, 2, 0, 0, 0]),
    (64, [0, 0, 1, 0]), (768, [255])])

/-- A disk of one sector. -/
def zeroDisk : VirtioBlockDevice :=
  VirtioBlockDevice.new { data := List.replicate 512 0 } length_zeroSector

/-- A receive buffer of 44 bytes at 256. -/
def receiveMemory : Vmm.MappedMemory :=
  Vmm.MappedMemory.ram 4096 Vmm.MappedMemory.page_pos (Vmm.MappedMemory.image [
    (0, [0, 1, 0, 0, 0, 0, 0, 0, 44, 0, 0, 0, 2, 0, 0, 0]), (64, [0, 0, 1, 0])])

/-- A socket device with a packet of four payload bytes to inject. -/
def pendingPacket : VirtioVsockDevice where
  guestCid := 3
  rxPending := [({ srcCid := 2, dstCid := 3, srcPort := 1, dstPort := 1, len := 4, type := 1
                   op := 5, flags := 0, bufAlloc := 0, fwdCnt := 0 }, [1, 2, 3, 4])]

/-- The block device overwrites the byte at 768 through an empty status buffer, and the socket
device the bytes after its 44-byte buffer. -/
theorem dma_not_confined :
    ¬ Agree (smallQueue.usedRing ∪ writableRanges
        ((DmaCall.blockQueue zeroDisk).after 1 smallQueue (statusMemory 0)).1) (statusMemory 0)
      ((DmaCall.blockQueue zeroDisk).after 1 smallQueue (statusMemory 0)).2 ∧
    ¬ Agree (smallQueue.usedRing ∪ writableRanges
        ((DmaCall.vsockPoll pendingPacket).after 1 smallQueue receiveMemory).1) receiveMemory
      ((DmaCall.vsockPoll pendingPacket).after 1 smallQueue receiveMemory).2 := by
  constructor
  · intro h
    have hbyte := h.byte_eq 768 (by decide +kernel)
    revert hbyte
    decide +kernel
  · intro h
    have hbyte := h.byte_eq 300 (by decide +kernel)
    revert hbyte
    decide +kernel

/-- With one byte of room for the status, the same request is confined. -/
theorem dma_confined_status_byte : Agree (smallQueue.usedRing ∪ writableRanges
      ((DmaCall.blockQueue zeroDisk).after 1 smallQueue (statusMemory 1)).1) (statusMemory 1)
    ((DmaCall.blockQueue zeroDisk).after 1 smallQueue (statusMemory 1)).2 := by
  apply dma_confined
  intro k
  cases k with
  | zero => decide +kernel
  | succ k =>
    -- the queue is empty after the first turn
    have hend : (turns VirtioBlockDevice.serve 1
        { dev := zeroDisk, queue := smallQueue, mem := statusMemory 1 }).queue.popChain
        (turns VirtioBlockDevice.serve 1
          { dev := zeroDisk, queue := smallQueue, mem := statusMemory 1 }).mem = none := by
      decide +kernel
    rw [turns_eq_of_end (drainStep_eq_none_iff.2 hend) (Nat.succ_le_succ (Nat.zero_le k))]
    decide +kernel

end Hitz.Devices

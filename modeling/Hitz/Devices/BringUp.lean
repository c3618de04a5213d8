import Hitz.Devices.RegisterFile

/-!
# Bringing up a device

A driver resets the transport, announces itself and its features, gives a queue its size and its
rings and makes it ready.  `writeRegs_bringUp` says what these register writes do to a transport in
any state; `QueueState.write` is the effect of one of them on the queue it is made to, and
`writeRegs_of_isQueueReg` adds them up.
-/

namespace Hitz.Devices

variable {D M : Type} [VirtioBackend D M]

/-- The writes that give the selected queue its size and rings and make it ready. -/
def queueWrites (num : UInt16) (desc avail used : UInt64) : List RegWrite :=
  [⟨0x038, num.toUInt32⟩, ⟨0x080, desc.toUInt32⟩, ⟨0x084, (desc >>> 32).toUInt32⟩,
    ⟨0x090, avail.toUInt32⟩, ⟨0x094, (avail >>> 32).toUInt32⟩, ⟨0x0A0, used.toUInt32⟩,
    ⟨0x0A4, (used >>> 32).toUInt32⟩, ⟨0x044, 1⟩]

/-- The writes that reset a device, tell it the driver's features and select queue `idx`. -/
def resetWrites (idx : UInt16) (features : UInt64) : List RegWrite :=
  [⟨0x070, 0⟩, ⟨0x070, 1⟩, ⟨0x070, 3⟩, ⟨0x024, 0⟩, ⟨0x020, features.toUInt32⟩, ⟨0x024, 1⟩,
    ⟨0x020, (features >>> 32).toUInt32⟩, ⟨0x070, 11⟩, ⟨0x030, idx.toUInt32⟩]

/-- The writes that bring up a device with its queue `idx`. -/
def bringUp (idx num : UInt16) (features desc avail used : UInt64) : List RegWrite :=
  resetWrites idx features ++ (queueWrites num desc avail used ++ [⟨0x070, 15⟩])

/-- Write registers one after the other. -/
def writeRegs (fuel : ℕ) (t : VirtioMmioTransport D M) (ws : List RegWrite) :
    Option (VirtioMmioTransport D M) :=
  ws.foldlM (fun t w => (t.writeReg fuel w.offset w.value).map Prod.snd) t

/-- An address is the one in its two halves. -/
theorem gpa_halves (a : UInt64) : QueueState.gpa a.toUInt32 (a >>> 32).toUInt32 = a := by
  have hshift : UInt64.toBitVec 32 % 64 = 32#64 := by decide
  apply UInt64.eq_of_toBitVec_eq
  apply BitVec.eq_of_getLsbD_eq
  intro i hi
  rw [getLsbD_gpa]
  simp only [UInt64.toBitVec_toUInt32, UInt64.toBitVec_shiftRight, hshift, BitVec.ushiftRight_eq',
    BitVec.getLsbD_setWidth, BitVec.getLsbD_ushiftRight]
  by_cases h : i < 32
  · simp [h]
  · have h1 : i - 32 < 32 := by omega
    have h2 : 32 + (i - 32) = i := by omega
    simp [h, h1, h2]

/-- The effect of a write on the queue it is made to. -/
def QueueState.write (qs : QueueState) (w : RegWrite) : QueueState :=
  match w.reg with
  | some .queueNum => qs.setNum w.value.toUInt16
  | some .queueReady => qs.setReady (w.value != 0)
  | some .queueDescLow => { qs with descLow := w.value }
  | some .queueDescHigh => { qs with descHigh := w.value }
  | some .queueAvailLow => { qs with availLow := w.value }
  | some .queueAvailHigh => { qs with availHigh := w.value }
  | some .queueUsedLow => { qs with usedLow := w.value }
  | some .queueUsedHigh => { qs with usedHigh := w.value }
  | _ => qs

/-- The write is made to a register of the selected queue. -/
def RegWrite.isQueueReg (w : RegWrite) : Bool :=
  w.reg ∈ [some .queueNum, some .queueReady, some .queueDescLow, some .queueDescHigh,
    some .queueAvailLow, some .queueAvailHigh, some .queueUsedLow, some .queueUsedHigh]

theorem writeReg_of_isQueueReg (fuel : ℕ) (t : VirtioMmioTransport D M) {w : RegWrite}
    (h : w.isQueueReg = true) :
    t.writeReg fuel w.offset w.value = some (none, t.modifySelected (·.write w)) := by
  simp only [RegWrite.isQueueReg, decide_eq_true_eq, List.mem_cons, List.not_mem_nil, or_false] at h
  unfold VirtioMmioTransport.writeReg QueueState.write
  have hreg : Reg.ofOffset w.offset = w.reg := rfl
  rw [hreg]
  rcases h with h | h | h | h | h | h | h | h <;> rw [h]

/-- Writes to the selected queue add up. -/
theorem writeRegs_of_isQueueReg (fuel : ℕ) (ws : List RegWrite) :
    ∀ t : VirtioMmioTransport D M, (∀ w ∈ ws, w.isQueueReg = true) →
      writeRegs fuel t ws = some (t.modifySelected fun qs => ws.foldl QueueState.write qs) := by
  induction ws with
  | nil =>
    intro t _
    show some t = some { t with queues := t.queues.modify t.queueSel id }
    rw [List.modify_id]
  | cons w ws ih =>
    intro t h
    have hw := writeReg_of_isQueueReg fuel t (h w (List.mem_cons_self ..))
    have hrest := ih (t.modifySelected (·.write w)) fun w' hw' => h w' (List.mem_cons_of_mem _ hw')
    show ((t.writeReg fuel w.offset w.value).map Prod.snd).bind (fun t => writeRegs fuel t ws) = _
    rw [hw]
    refine hrest.trans ?_
    simp only [VirtioMmioTransport.modifySelected, List.modify_modify_eq]
    rfl

theorem writeRegs_append (fuel : ℕ) (t : VirtioMmioTransport D M) (ws ws' : List RegWrite) :
    writeRegs fuel t (ws ++ ws') = (writeRegs fuel t ws).bind (writeRegs fuel · ws') :=
  List.foldlM_append

/-- The bits of a register written in two pages. -/
theorem pages_eq (a : UInt64) : ((0 : UInt64) &&& (0xFFFFFFFF00000000 : UInt64) |||
    a.toUInt32.toUInt64) &&& (0x00000000FFFFFFFF : UInt64) |||
      ((a >>> 32).toUInt32.toUInt64 <<< 32) = a := by
  have h0 : (0 : UInt64) = QueueState.gpa 0 0 := rfl
  rw [h0, gpa_and_high_or, gpa_and_low_or, gpa_halves]

/-- The first writes reset the transport and select the queue. -/
theorem writeRegs_resetWrites (fuel : ℕ) (t : VirtioMmioTransport D M) {idx : UInt16}
    (features : UInt64) (hidx : idx.toNat < t.queues.length) :
    writeRegs fuel t (resetWrites idx features) = some { t.reset with
      status := 11, driverFeatures := features, driverFeaturesSel := 1, queueSel := idx.toNat } := by
  have hlen : idx.toUInt32.toNat < t.reset.queues.length := by
    simpa [VirtioMmioTransport.reset] using hidx
  have hpages : writeRegs fuel t ((resetWrites idx features).take 8) =
      some { t.reset with
        status := 11, driverFeaturesSel := 1
        driverFeatures := ((0 : UInt64) &&& (0xFFFFFFFF00000000 : UInt64) |||
          features.toUInt32.toUInt64) &&& (0x00000000FFFFFFFF : UInt64) |||
            ((features >>> 32).toUInt32.toUInt64 <<< 32) } := rfl
  rw [pages_eq] at hpages
  have happ := writeRegs_append fuel t ((resetWrites idx features).take 8)
    [⟨0x030, idx.toUInt32⟩]
  rw [hpages] at happ
  refine happ.trans ?_
  show Option.bind (Option.map Prod.snd (ite _ _ _)) some = _
  rw [if_pos hlen]
  simp

/-- What the queue writes leave of a queue that has been reset. -/
theorem foldl_queueWrites (qs : QueueState) {num : UInt16} (desc avail used : UInt64)
    (hpos : 0 < num.toNat) (hle : num.toNat ≤ 256) :
    ((queueWrites num desc avail used).foldl QueueState.write qs.reset).queue =
      { size := num, descGpa := desc, availGpa := avail, usedGpa := used
        lastAvailIdx := 0, ready := true, size_pos := hpos, size_le := hle } := by
  have hsize : 0 < num ∧ num ≤ maxQueueSize :=
    ⟨UInt16.lt_iff_toNat_lt.2 hpos, UInt16.le_iff_toNat_le.2 hle⟩
  show ((qs.reset.queue.setSize num.toUInt32.toUInt16).configure
    (QueueState.gpa desc.toUInt32 (desc >>> 32).toUInt32)
    (QueueState.gpa avail.toUInt32 (avail >>> 32).toUInt32)
    (QueueState.gpa used.toUInt32 (used >>> 32).toUInt32)).setReady true = _
  rw [gpa_halves, gpa_halves, gpa_halves]
  simp only [UInt16.toUInt16_toUInt32, VirtQueue.setSize, dif_pos hsize]
  rfl

/-- **Bringing up a device.**  Whatever state a transport is in, the driver's writes reset it and
leave queue `idx` live, empty and with the size and the rings the driver gave it; the device and
guest memory stay as they are. -/
theorem writeRegs_bringUp (fuel : ℕ) (t : VirtioMmioTransport D M) {idx num : UInt16}
    (features desc avail used : UInt64) (hidx : idx.toNat < t.queues.length)
    (hpos : 0 < num.toNat) (hle : num.toNat ≤ 256) :
    ∃ t' qs, writeRegs fuel t (bringUp idx num features desc avail used) = some t' ∧
      t'.queues[idx.toNat]? = some qs ∧
      qs.queue = { size := num, descGpa := desc, availGpa := avail, usedGpa := used
                   lastAvailIdx := 0, ready := true, size_pos := hpos, size_le := hle } ∧
      t'.device = t.device ∧ t'.mem = t.mem ∧
      t'.registers = { status := 15, interruptStatus := 0, deviceFeaturesSel := 0
                       driverFeatures := features, driverFeaturesSel := 1 } := by
  have hqueue : ∀ w ∈ queueWrites num desc avail used, w.isQueueReg = true := by
    simp only [queueWrites, List.forall_mem_cons]
    exact ⟨rfl, rfl, rfl, rfl, rfl, rfl, rfl, rfl, by simp⟩
  set s : VirtioMmioTransport D M := { t.reset with
    status := 11, driverFeatures := features, driverFeaturesSel := 1, queueSel := idx.toNat }
  have hall : writeRegs fuel t (bringUp idx num features desc avail used) = some
      { s.modifySelected fun qs => (queueWrites num desc avail used).foldl QueueState.write qs with
        status := 15 } := by
    rw [bringUp, writeRegs_append, writeRegs_resetWrites fuel t features hidx, Option.bind_some,
      writeRegs_append, writeRegs_of_isQueueReg fuel _ _ hqueue]
    rfl
  refine ⟨_, (queueWrites num desc avail used).foldl QueueState.write t.queues[idx.toNat].reset,
    hall, ?_, foldl_queueWrites _ desc avail used hpos hle, rfl, rfl, rfl⟩
  show ((t.queues.map QueueState.reset).modify idx.toNat _)[idx.toNat]? = _
  rw [List.getElem?_modify, List.getElem?_map, List.getElem?_eq_getElem hidx]
  simp

end Hitz.Devices

import Hitz.Devices.QueueConfig

/-!
# The registers of a transport that belong to no queue

The status, the interrupt status, the feature pages and the driver's features depend on the
registers the guest has written and on the interrupts the transport has raised.  `Event` is what an
access leaves of both, and `RegisterFile.ofEvents` says what the registers hold after the events
since the last reset.  In particular bit 0 of the interrupt status says whether an interrupt was
raised that the guest has not acknowledged, and nothing else sets or clears it.
-/

namespace Hitz.Devices

open WriteLog RegWrite

/-! ### Pages of a 64-bit register -/

theorem getLsbD_gpa (low high : UInt32) (i : ℕ) : (QueueState.gpa low high).toBitVec.getLsbD i =
    if i < 32 then low.toBitVec.getLsbD i else high.toBitVec.getLsbD (i - 32) := by
  have hshift : UInt64.toBitVec 32 % 64 = 32#64 := by decide
  simp only [QueueState.gpa, UInt64.toBitVec_or, UInt64.toBitVec_shiftLeft,
    UInt32.toBitVec_toUInt64, BitVec.getLsbD_or, hshift, BitVec.shiftLeft_eq',
    BitVec.getLsbD_shiftLeft, BitVec.getLsbD_setWidth]
  by_cases hi : i < 32
  · have h64 : i < 64 := by omega
    simp [hi, h64]
  · have hlow : low.toBitVec.getLsbD i = false := BitVec.getLsbD_of_ge _ _ (by omega)
    by_cases hbit : high.toBitVec.getLsbD (i - 32) = true
    · have hlt := BitVec.lt_of_getLsbD hbit
      have h64 : i < 64 := by omega
      have h64' : i - 32 < 64 := by omega
      simp [hi, hlow, hbit, h64, h64']
    · simp [hi, hlow, hbit]

/-- The bits of the two page masks. -/
theorem getLsbD_pageMask {i : ℕ} (hi : i < 64) :
    (0xFFFFFFFF00000000 : UInt64).toBitVec.getLsbD i = decide (32 ≤ i) ∧
      (0x00000000FFFFFFFF : UInt64).toBitVec.getLsbD i = decide (i < 32) := by
  have h : ∀ i : Fin 64, (0xFFFFFFFF00000000 : UInt64).toBitVec.getLsbD i = decide (32 ≤ i.val) ∧
      (0x00000000FFFFFFFF : UInt64).toBitVec.getLsbD i = decide (i.val < 32) := by decide
  exact h ⟨i, hi⟩

/-- A write to the low page. -/
theorem gpa_and_high_or (low high v : UInt32) :
    (QueueState.gpa low high &&& (0xFFFFFFFF00000000 : UInt64)) ||| v.toUInt64 =
      QueueState.gpa v high := by
  apply UInt64.eq_of_toBitVec_eq
  apply BitVec.eq_of_getLsbD_eq
  intro i hi
  simp only [UInt64.toBitVec_or, UInt64.toBitVec_and, UInt32.toBitVec_toUInt64,
    BitVec.getLsbD_or, BitVec.getLsbD_and, getLsbD_gpa, (getLsbD_pageMask hi).1,
    BitVec.getLsbD_setWidth]
  by_cases h : i < 32
  · simp [h, hi]
  · have hle : 32 ≤ i := by omega
    simp [h, hle]

/-- A write to the high page. -/
theorem gpa_and_low_or (low high v : UInt32) :
    (QueueState.gpa low high &&& (0x00000000FFFFFFFF : UInt64)) ||| (v.toUInt64 <<< 32) =
      QueueState.gpa low v := by
  apply UInt64.eq_of_toBitVec_eq
  apply BitVec.eq_of_getLsbD_eq
  intro i hi
  have hv : (v.toUInt64 <<< 32).toBitVec.getLsbD i = (QueueState.gpa 0 v).toBitVec.getLsbD i := by
    have h0 : (0 : UInt32).toUInt64 = 0 := rfl
    rw [QueueState.gpa, h0, UInt64.zero_or]
  rw [UInt64.toBitVec_or, UInt64.toBitVec_and, BitVec.getLsbD_or, BitVec.getLsbD_and, hv]
  simp only [getLsbD_gpa, (getLsbD_pageMask hi).2]
  by_cases h : i < 32
  · simp [h]
  · simp [h]

/-! ### Events -/

/-- What an access leaves for the registers: the register written and the interrupt raised. -/
structure Event where
  write : Option RegWrite
  irq : Option UInt8
  deriving DecidableEq, Repr

namespace Event

/-- The event writes zero to `STATUS`. -/
def isReset (e : Event) : Bool := e.write.any RegWrite.isReset

/-- The value the event writes to `r`. -/
def valueOf (r : Reg) (e : Event) : Option UInt32 := e.write.bind (RegWrite.valueOf r)

/-- The event acknowledges the used-ring interrupt. -/
def isAck (e : Event) : Bool := (e.valueOf .interruptAck).any fun value => value &&& 1 != 0

end Event

/-- The registers that belong to no queue. -/
structure RegisterFile where
  status : UInt8
  interruptStatus : UInt32
  deviceFeaturesSel : UInt32
  driverFeatures : UInt64
  driverFeaturesSel : UInt32
  deriving DecidableEq, Repr

namespace RegisterFile

/-- The last value written to `r`. -/
def lastOf (r : Reg) (events : List Event) : UInt32 := (last (Event.valueOf r) events).getD 0

/-- The page of the driver's features that is selected: `true` for the low one. -/
def lowPage (events : List Event) : Bool := lastOf .driverFeaturesSel events = 0

/-- An interrupt has been raised since the last acknowledgement. -/
def pending (events : List Event) : Bool := (since Event.isAck events).any fun e => e.irq.isSome

/-- What the registers hold after the events since the last reset. -/
def ofEvents (events : List Event) : RegisterFile where
  status := (lastOf .status events).toUInt8
  interruptStatus := if pending events then 1 else 0
  deviceFeaturesSel := lastOf .deviceFeaturesSel events
  driverFeatures := QueueState.gpa (lastOf .driverFeatures (during lowPage true events))
    (lastOf .driverFeatures (during lowPage false events))
  driverFeaturesSel := lastOf .driverFeaturesSel events

/-- The effect of one event that is no reset. -/
def handle (f : RegisterFile) (e : Event) : RegisterFile where
  status := ((e.valueOf .status).map (·.toUInt8)).getD f.status
  interruptStatus :=
    if e.irq.isSome then f.interruptStatus ||| 1
    else ((e.valueOf .interruptAck).map (f.interruptStatus &&& ~~~·)).getD f.interruptStatus
  deviceFeaturesSel := (e.valueOf .deviceFeaturesSel).getD f.deviceFeaturesSel
  driverFeatures := ((e.valueOf .driverFeatures).map fun (value : UInt32) =>
    if f.driverFeaturesSel = 0 then
      (f.driverFeatures &&& (0xFFFFFFFF00000000 : UInt64)) ||| value.toUInt64
    else (f.driverFeatures &&& (0x00000000FFFFFFFF : UInt64)) ||| (value.toUInt64 <<< 32)).getD
      f.driverFeatures
  driverFeaturesSel := (e.valueOf .driverFeaturesSel).getD f.driverFeaturesSel

theorem lastOf_concat (r : Reg) (events : List Event) (e : Event) :
    lastOf r (events ++ [e]) = (e.valueOf r).getD (lastOf r events) := by
  unfold lastOf
  rw [last_concat, Option.getD_or]

/-- Bit 0 of a word. -/
theorem and_one (v : UInt32) : v &&& 1 = if v.toBitVec.getLsbD 0 then 1 else 0 := by
  apply UInt32.eq_of_toBitVec_eq
  apply BitVec.eq_of_getLsbD_eq
  intro i hi
  cases i with
  | zero => cases h : v.toBitVec[0] <;> simp [h]
  | succ i => cases h : v.toBitVec[0] <;> simp [h]

theorem one_and_not (v : UInt32) : 1 &&& ~~~v = if v.toBitVec.getLsbD 0 then 0 else 1 := by
  apply UInt32.eq_of_toBitVec_eq
  apply BitVec.eq_of_getLsbD_eq
  intro i hi
  cases i with
  | zero => cases h : v.toBitVec[0] <;> simp [h]
  | succ i => cases h : v.toBitVec[0] <;> simp [h]

/-- Only bit 0 is ever set, so an acknowledgement clears the status or leaves it. -/
theorem ack_pending (p : Bool) (v : UInt32) :
    (if p then (1 : UInt32) else 0) &&& ~~~v = if p && !(v &&& 1 != 0) then 1 else 0 := by
  rw [and_one]
  cases p with
  | false => simp
  | true =>
    show 1 &&& ~~~v = _
    rw [one_and_not]
    cases v.toBitVec.getLsbD 0 <;> rfl

/-- An event that raises an interrupt acknowledges none. -/
theorem pending_concat (events : List Event) (e : Event) (h : e.irq.isSome → e.isAck = false) :
    pending (events ++ [e]) = (e.irq.isSome || (pending events && !e.isAck)) := by
  unfold pending
  rw [since_concat]
  by_cases hack : e.isAck = true
  · have hirq : e.irq.isSome = false := by
      cases hsome : e.irq.isSome with
      | false => rfl
      | true => exact absurd (h hsome) (by simp [hack])
    simp [hack, hirq]
  · rw [if_neg hack, List.any_append]
    simp [hack, Bool.or_comm]

/-- The events grow by one that is no reset. -/
theorem ofEvents_concat (events : List Event) (e : Event)
    (h : e.irq.isSome → e.valueOf .interruptAck = none) :
    ofEvents (events ++ [e]) = (ofEvents events).handle e := by
  have hack : e.irq.isSome → e.isAck = false := fun hirq => by rw [Event.isAck, h hirq]; rfl
  have hpage : ∀ b : Bool, lastOf .driverFeatures (during lowPage b (events ++ [e])) =
      if lowPage events = b then
        (e.valueOf .driverFeatures).getD (lastOf .driverFeatures (during lowPage b events))
      else lastOf .driverFeatures (during lowPage b events) := by
    intro b
    rw [during_concat]
    by_cases hb : lowPage events = b
    · rw [if_pos hb, if_pos hb, lastOf_concat]
    · rw [if_neg hb, if_neg hb, List.append_nil]
  have hstatus : (if pending (events ++ [e]) then (1 : UInt32) else 0) =
      if e.irq.isSome then (if pending events then (1 : UInt32) else 0) ||| 1
      else ((e.valueOf .interruptAck).map
        ((if pending events then (1 : UInt32) else 0) &&& ~~~·)).getD
          (if pending events then 1 else 0) := by
    rw [pending_concat events e hack]
    cases hirq : e.irq.isSome with
    | true => cases pending events <;> rfl
    | false =>
      cases hv : e.valueOf .interruptAck with
      | none => simp [Event.isAck, hv]
      | some v => simp [Event.isAck, hv, ack_pending]
  unfold ofEvents handle
  simp only [lastOf_concat, hpage, hstatus]
  congr 1
  · cases e.valueOf .status <;> rfl
  · cases hv : e.valueOf .driverFeatures with
    | none => simp
    | some v =>
      by_cases hsel : lastOf .driverFeaturesSel events = 0
      · have hlow : lowPage events = true := by simp [lowPage, hsel]
        simp [hlow, hsel, gpa_and_high_or]
      · have hlow : lowPage events = false := by simp [lowPage, hsel]
        simp [hlow, hsel, gpa_and_low_or]

end RegisterFile

/-! ### What an access does -/

namespace VirtioMmioTransport

variable {D M : Type} [VirtioBackend D M]

/-- One access, with the interrupt it answers. -/
def answer (fuel : ℕ) (t : VirtioMmioTransport D M) :
    Access D M → Option (Option UInt8 × VirtioMmioTransport D M)
  | .read offset data => some (none, (t.mmioRead offset data).2)
  | .write offset data => t.mmioWrite fuel offset data
  | .poll => some t.pollRx
  | .outside device mem => some (none, { t with device, mem })

theorem step_eq_answer (fuel : ℕ) (t : VirtioMmioTransport D M) (a : Access D M) :
    t.step fuel a = (t.answer fuel a).map Prod.snd := by
  cases a <;> rfl

/-- The registers that belong to no queue. -/
def registers (t : VirtioMmioTransport D M) : RegisterFile where
  status := t.status
  interruptStatus := t.interruptStatus
  deviceFeaturesSel := t.deviceFeaturesSel
  driverFeatures := t.driverFeatures
  driverFeaturesSel := t.driverFeaturesSel

/-- The access notifies an existing queue, or polls a device that has received something. -/
def Signals (t : VirtioMmioTransport D M) (a : Access D M) : Prop :=
  (∃ w, a.regWrite = some w ∧ w.reg = some .queueNotify ∧
    w.value.toUInt16.toNat < t.queues.length) ∨
  (a = .poll ∧ ∃ qs rest, t.queues = qs :: rest ∧
    (VirtioBackend.pollRx t.device qs.queue t.mem).1 = true)

/-- Everything an access does to the registers, and what it answers. -/
structure Answered (t : VirtioMmioTransport D M) (a : Access D M) (irq : Option UInt8)
    (t' : VirtioMmioTransport D M) : Prop where
  registers : t'.registers =
    if (Event.mk a.regWrite irq).isReset then RegisterFile.ofEvents []
    else t.registers.handle ⟨a.regWrite, irq⟩
  irqVector : t'.irqVector = t.irqVector
  configGeneration : t'.configGeneration = t.configGeneration
  irq_iff : ∀ v, irq = some v ↔ t.Signals a ∧ v = t.irqVector
  ack : irq.isSome → (Event.mk a.regWrite irq).valueOf .interruptAck = none

/-- An access that writes no register and raises no interrupt. -/
theorem Answered.quiet {t t' : VirtioMmioTransport D M} {a : Access D M} (ha : a.regWrite = none)
    (hpoll : ¬ t.Signals a) (hreg : t'.registers = t.registers) (hirq : t'.irqVector = t.irqVector)
    (hgen : t'.configGeneration = t.configGeneration) : t.Answered a none t' where
  registers := by rw [hreg, ha]; rfl
  irqVector := hirq
  configGeneration := hgen
  irq_iff v := by simp [hpoll]
  ack h := by cases h

theorem notify_answered {fuel : ℕ} {t t' : VirtioMmioTransport D M} {a : Access D M}
    {w : RegWrite} {irq : Option UInt8} (ha : a.regWrite = some w)
    (hr : w.reg = some .queueNotify) (h : t.notify fuel w.value.toUInt16 = some (irq, t')) :
    t.Answered a irq t' := by
  have hack : (Event.mk a.regWrite irq).valueOf .interruptAck = none := by
    simp [Event.valueOf, ha, RegWrite.valueOf, hr]
  have hevent : (Event.mk a.regWrite irq).isReset = false := by
    simp [Event.isReset, ha, RegWrite.isReset, hr]
  have hsignals : t.Signals a ↔ w.value.toUInt16.toNat < t.queues.length := by
    constructor
    · rintro (⟨w', hw', -, hlt⟩ | ⟨rfl, -⟩)
      · rw [ha] at hw'
        cases hw'
        exact hlt
      · cases ha
    · exact fun hlt => Or.inl ⟨w, ha, hr, hlt⟩
  have hhandle : t.registers.handle ⟨a.regWrite, irq⟩ = { t.registers with
      interruptStatus :=
        if irq.isSome then t.interruptStatus ||| 1 else t.interruptStatus } := by
    simp [RegisterFile.handle, Event.valueOf, ha, RegWrite.valueOf, hr, registers]
  unfold notify at h
  cases hq : t.queues[w.value.toUInt16.toNat]? with
  | none =>
    rw [hq] at h
    cases h
    have hge : ¬ t.Signals a := fun hs =>
      absurd (hsignals.1 hs) (Nat.not_lt.2 (List.getElem?_eq_none_iff.1 hq))
    exact ⟨by rw [hevent, hhandle]; rfl, rfl, rfl, fun v => by simp [hge], fun _ => hack⟩
  | some qs =>
    rw [hq] at h
    obtain ⟨s, -, heq⟩ := Option.map_eq_some_iff.1 h
    cases heq
    have hlt : t.Signals a := hsignals.2 (List.getElem?_eq_some_iff.1 hq).1
    exact ⟨by rw [hevent, hhandle]; rfl, rfl, rfl, fun v => by simp [hlt, eq_comm], fun _ => hack⟩

theorem pollRx_answered (t : VirtioMmioTransport D M) :
    t.Answered .poll t.pollRx.1 t.pollRx.2 := by
  unfold pollRx
  split
  · rename_i hq
    refine Answered.quiet rfl ?_ rfl rfl rfl
    rintro (⟨w, hw, -⟩ | ⟨-, qs, rest, hcons, -⟩)
    · cases hw
    · rw [hq] at hcons
      cases hcons
  · rename_i qs rest hq
    split
    · rename_i s hs
      have hsig : t.Signals .poll := Or.inr ⟨rfl, qs, rest, hq, by rw [hs]⟩
      exact ⟨rfl, rfl, rfl, fun v => by simp [hsig, eq_comm], fun _ => rfl⟩
    · rename_i s hs
      refine Answered.quiet rfl ?_ rfl rfl rfl
      rintro (⟨w, hw, -⟩ | ⟨-, qs', rest', hcons, htrue⟩)
      · cases hw
      · rw [hq] at hcons
        cases hcons
        rw [hs] at htrue
        cases htrue

theorem writeReg_answered {fuel : ℕ} {t t' : VirtioMmioTransport D M} {a : Access D M}
    {w : RegWrite} {irq : Option UInt8} (ha : a.regWrite = some w)
    (h : t.writeReg fuel w.offset w.value = some (irq, t')) : t.Answered a irq t' := by
  -- a write to any register but `QUEUE_NOTIFY`
  have hother : w.reg ≠ some .queueNotify → irq = none → t'.irqVector = t.irqVector →
      t'.configGeneration = t.configGeneration →
      (t'.registers = if w.isReset then RegisterFile.ofEvents []
        else t.registers.handle ⟨some w, none⟩) → t.Answered a irq t' := by
    rintro hne rfl hv hg hreg
    refine ⟨by rw [ha]; exact hreg, hv, hg, fun v => ?_, fun h => by cases h⟩
    have hsig : ¬ t.Signals a := by
      rintro (⟨w', hw', hr, -⟩ | ⟨rfl, -⟩)
      · rw [ha] at hw'
        cases hw'
        exact hne hr
      · cases ha
    simp [hsig]
  unfold writeReg at h
  obtain hr | ⟨r, hr⟩ := Option.eq_none_or_eq_some w.reg
  · have hr' : Reg.ofOffset w.offset = none := hr
    rw [hr'] at h
    cases h
    refine hother (by simp [hr]) rfl rfl rfl ?_
    simp [RegWrite.isReset, hr, RegisterFile.handle, Event.valueOf, RegWrite.valueOf]
  · have hr' : Reg.ofOffset w.offset = some r := hr
    rw [hr'] at h
    cases r
    case queueNotify => exact notify_answered ha hr h
    case status =>
      dsimp only at h
      split_ifs at h with hv
      · cases h
        refine hother (by simp [hr]) rfl rfl rfl ?_
        simp only [RegWrite.isReset, hr, hv]
        rfl
      · cases h
        refine hother (by simp [hr]) rfl rfl rfl ?_
        simp [RegWrite.isReset, hr, hv, RegisterFile.handle, Event.valueOf, RegWrite.valueOf,
          registers]
    case queueSel =>
      dsimp only at h
      split_ifs at h with hv
      · cases h
        refine hother (by simp [hr]) rfl rfl rfl ?_
        simp [RegWrite.isReset, hr, RegisterFile.handle, Event.valueOf, RegWrite.valueOf,
          registers]
      · cases h
        refine hother (by simp [hr]) rfl rfl rfl ?_
        simp [RegWrite.isReset, hr, RegisterFile.handle, Event.valueOf, RegWrite.valueOf,
          registers]
    case driverFeatures =>
      cases h
      refine hother (by simp [hr]) rfl rfl rfl ?_
      by_cases hsel : t.driverFeaturesSel = 0
      · simp [RegWrite.isReset, hr, RegisterFile.handle, Event.valueOf, RegWrite.valueOf,
          registers, hsel]
      · simp [RegWrite.isReset, hr, RegisterFile.handle, Event.valueOf, RegWrite.valueOf,
          registers, hsel]
    all_goals
      cases h
      refine hother (by simp [hr]) rfl rfl rfl ?_
      simp [RegWrite.isReset, hr, RegisterFile.handle, Event.valueOf, RegWrite.valueOf,
        registers, modifySelected]

/-- Every access answers as `Answered` says. -/
theorem answered {fuel : ℕ} {t t' : VirtioMmioTransport D M} {a : Access D M}
    {irq : Option UInt8} (h : t.answer fuel a = some (irq, t')) : t.Answered a irq t' := by
  cases a with
  | read offset data =>
    cases h
    have heq : (t.mmioRead offset data).2 = t := by
      unfold mmioRead
      split_ifs <;> rfl
    rw [heq]
    exact Answered.quiet rfl (by simp [Signals, Access.regWrite]) rfl rfl rfl
  | write offset data =>
    by_cases hle : mmioConfigStart ≤ offset
    · simp only [answer, mmioWrite, hle] at h
      cases h
      exact Answered.quiet (by simp [Access.regWrite, hle])
        (by simp [Signals, Access.regWrite, hle]) rfl rfl rfl
    · simp only [answer, mmioWrite, hle] at h
      exact writeReg_answered (w := ⟨offset, writeValue data⟩) (by simp [Access.regWrite, hle]) h
  | poll =>
    have heq : t.pollRx = (irq, t') := Option.some.inj h
    have hpoll := t.pollRx_answered
    rw [heq] at hpoll
    exact hpoll
  | outside device mem =>
    cases h
    exact Answered.quiet rfl (by simp [Signals, Access.regWrite]) rfl rfl rfl

/-! ### Runs -/

/-- One access after the events so far. -/
def observeStep (fuel : ℕ) (s : List Event × VirtioMmioTransport D M) (a : Access D M) :
    Option (List Event × VirtioMmioTransport D M) :=
  (s.2.answer fuel a).map fun r => (s.1 ++ [⟨a.regWrite, r.1⟩], r.2)

/-- The accesses of a trace, with the events they leave. -/
def observe (fuel : ℕ) (t : VirtioMmioTransport D M) (trace : List (Access D M)) :
    Option (List Event × VirtioMmioTransport D M) :=
  trace.foldlM (observeStep fuel) ([], t)

theorem observe_concat {fuel : ℕ} {t t' : VirtioMmioTransport D M} {trace : List (Access D M)}
    {a : Access D M} {events : List Event}
    (h : t.observe fuel (trace ++ [a]) = some (events, t')) :
    ∃ before s irq, t.observe fuel trace = some (before, s) ∧ s.answer fuel a = some (irq, t') ∧
      events = before ++ [⟨a.regWrite, irq⟩] := by
  simp only [observe, List.foldlM_append, Option.bind_eq_bind, Option.bind_eq_some_iff] at h
  obtain ⟨⟨before, s⟩, hs, h⟩ := h
  simp only [List.foldlM_cons, List.foldlM_nil, observeStep, Option.bind_eq_bind,
    Option.bind_eq_some_iff, Option.map_eq_some_iff] at h
  obtain ⟨_, ⟨⟨irq, t₁⟩, hr, rfl⟩, heq⟩ := h
  cases heq
  exact ⟨before, s, irq, hs, hr, rfl⟩

/-- The accesses with their events are the accesses. -/
theorem observe_run (fuel : ℕ) (t : VirtioMmioTransport D M) (trace : List (Access D M)) :
    (t.observe fuel trace).map Prod.snd = t.run fuel trace := by
  have hfold : ∀ s : List Event × VirtioMmioTransport D M,
      (trace.foldlM (observeStep fuel) s).map Prod.snd = s.2.run fuel trace := by
    induction trace with
    | nil => exact fun s => rfl
    | cons a rest ih =>
      intro s
      show _ = (s.2.step fuel a).bind fun t => t.run fuel rest
      rw [step_eq_answer, List.foldlM_cons, observeStep]
      cases ha : s.2.answer fuel a with
      | none => rfl
      | some r => exact ih (s.1 ++ [⟨a.regWrite, r.1⟩], r.2)
  exact hfold ([], t)

/-- What every access keeps. -/
structure Observed (vector : UInt8) (events : List Event) (t : VirtioMmioTransport D M) :
    Prop where
  registers : t.registers = RegisterFile.ofEvents (since Event.isReset events)
  irqVector : t.irqVector = vector
  configGeneration : t.configGeneration = 0

theorem Observed.answer {vector : UInt8} {events : List Event} {t t' : VirtioMmioTransport D M}
    {a : Access D M} {irq : Option UInt8} (ht : Observed vector events t)
    (h : t.Answered a irq t') : Observed vector (events ++ [⟨a.regWrite, irq⟩]) t' where
  registers := by
    rw [h.registers, since_concat]
    by_cases hreset : (Event.mk a.regWrite irq).isReset = true
    · rw [if_pos hreset, if_pos hreset]
    · rw [if_neg hreset, if_neg hreset, RegisterFile.ofEvents_concat _ _ h.ack, ← ht.registers]
  irqVector := h.irqVector.trans ht.irqVector
  configGeneration := h.configGeneration.trans ht.configGeneration

theorem observed_of_run {fuel : ℕ} {device : D} {mem : M} {irqVector : UInt8}
    {trace : List (Access D M)} {events : List Event} {t : VirtioMmioTransport D M}
    (h : (new device mem irqVector).observe fuel trace = some (events, t)) :
    Observed irqVector events t := by
  induction trace using List.reverseRecOn generalizing events t with
  | nil =>
    cases h
    exact ⟨rfl, rfl, rfl⟩
  | append_singleton trace a ih =>
    obtain ⟨before, s, irq, hs, ha, rfl⟩ := observe_concat h
    exact (ih hs).answer (answered ha)

/-- An acknowledgement of other bits leaves the interrupt status alone. -/
theorem Answered.keeps_status {t t' : VirtioMmioTransport D M} {a : Access D M}
    {irq : Option UInt8} (h : t.Answered a irq t') {p : Bool}
    (hp : t.interruptStatus = if p then 1 else 0) (hirq : irq = none)
    (hack : (Event.mk a.regWrite irq).isAck = false)
    (hreset : (Event.mk a.regWrite irq).isReset = false) :
    t'.interruptStatus = t.interruptStatus := by
  have hreg := congrArg RegisterFile.interruptStatus h.registers
  rw [if_neg (by simp [hreset])] at hreg
  have heq : t'.interruptStatus = (((Event.mk a.regWrite irq).valueOf .interruptAck).map
      (t.interruptStatus &&& ~~~·)).getD t.interruptStatus := by
    refine hreg.trans ?_
    rw [RegisterFile.handle, hirq]
    rfl
  rw [heq]
  cases hv : (Event.mk a.regWrite irq).valueOf .interruptAck with
  | none => rfl
  | some v =>
    rw [Event.isAck, hv] at hack
    have hv0 : (v &&& 1 != 0) = false := hack
    rw [Option.map_some, Option.getD_some, hp, RegisterFile.ack_pending, hv0]
    simp

/-- **No interrupt is lost.**  In every state of every transport, the interrupt status reads 1 if an
interrupt was raised since the last acknowledgement and the last reset, and 0 if not; an access
raises the device's interrupt exactly when it notifies an existing queue or polls a device that has
received something, and then the status becomes 1; nothing but an acknowledgement of bit 0 or a
reset clears it; the status, the feature page and both halves of the driver's features are the last
values written to them; and the config generation stays zero. -/
theorem interrupts_are_accounted (fuel : ℕ) (device : D) (mem : M) (irqVector : UInt8)
    (trace : List (Access D M)) {events : List Event} {t : VirtioMmioTransport D M}
    (h : (new device mem irqVector).observe fuel trace = some (events, t)) :
    (new device mem irqVector).run fuel trace = some t ∧
    t.registers = RegisterFile.ofEvents (since Event.isReset events) ∧ t.configGeneration = 0 ∧
    (t.mmioRead 0x060 [0, 0, 0, 0]).1 =
      [if RegisterFile.pending (since Event.isReset events) then 1 else 0, 0, 0, 0] ∧
    ∀ a irq t', t.answer fuel a = some (irq, t') →
      (∀ v, irq = some v ↔ t.Signals a ∧ v = irqVector) ∧
      (irq.isSome → t'.interruptStatus = 1) ∧
      (t'.interruptStatus ≠ t.interruptStatus → irq.isSome ∨
        (Event.mk a.regWrite irq).isAck ∨ (Event.mk a.regWrite irq).isReset) := by
  have ht := observed_of_run h
  have hstatus : t.interruptStatus =
      if RegisterFile.pending (since Event.isReset events) then 1 else 0 :=
    congrArg RegisterFile.interruptStatus ht.registers
  refine ⟨by rw [← observe_run, h]; rfl, ht.registers, ht.configGeneration, ?_,
    fun a irq t' ha => ?_⟩
  · have hread : t.readReg 0x060 = t.interruptStatus := rfl
    have hlt : ¬ mmioConfigStart ≤ (0x060 : UInt64) := by decide
    rw [mmioRead, if_neg hlt, hread, hstatus]
    cases RegisterFile.pending (since Event.isReset events) <;> rfl
  · have hans := answered ha
    refine ⟨fun v => by rw [hans.irq_iff v, ht.irqVector], fun hirq => ?_, fun hne => ?_⟩
    · have hreset : (Event.mk a.regWrite irq).isReset = false := by
        obtain ⟨v, hv⟩ := Option.isSome_iff_exists.1 hirq
        obtain ⟨w, hw, hr, -⟩ | ⟨rfl, -⟩ := ((hans.irq_iff v).1 hv).1
        · simp [Event.isReset, hw, RegWrite.isReset, hr]
        · rfl
      have hreg := congrArg RegisterFile.interruptStatus hans.registers
      rw [if_neg (by simp [hreset])] at hreg
      have heq : t'.interruptStatus = t.interruptStatus ||| 1 := by
        refine hreg.trans ?_
        simp [RegisterFile.handle, hirq, registers]
      rw [heq, hstatus]
      cases RegisterFile.pending (since Event.isReset events) <;> rfl
    · by_contra hnone
      simp only [not_or, Bool.not_eq_true, Option.isSome_eq_false_iff,
        Option.isNone_iff_eq_none] at hnone
      obtain ⟨hirq, hack, hreset⟩ := hnone
      exact hne (hans.keeps_status hstatus hirq hack hreset)

/-- A notification of the socket device's event queue, then an acknowledgement of another bit. -/
theorem interrupts_are_accounted_socket :
    ∃ t, (new socketDevice zeroMemory 5).observe 1 [.write 0x50 [2], .write 0x64 [2]] =
        some ([⟨some ⟨0x50, 2⟩, some 5⟩, ⟨some ⟨0x64, 2⟩, none⟩], t) ∧
      (t.mmioRead 0x060 [0, 0, 0, 0]).1 = [1, 0, 0, 0] := by
  obtain ⟨⟨events, t⟩, ht⟩ := Option.isSome_iff_exists.1
    (by decide +kernel : ((new socketDevice zeroMemory 5).observe 1
      [.write 0x50 [2], .write 0x64 [2]]).isSome)
  have hevents : events = [⟨some ⟨0x50, 2⟩, some 5⟩, ⟨some ⟨0x64, 2⟩, none⟩] := by
    have := congrArg (Option.map Prod.fst) ht
    exact Option.some.inj (this.symm.trans (by decide +kernel))
  subst hevents
  have hread := (interrupts_are_accounted 1 socketDevice zeroMemory 5 _ ht).2.2.2.1
  exact ⟨t, ht, hread.trans (by decide +kernel)⟩

end VirtioMmioTransport

end Hitz.Devices

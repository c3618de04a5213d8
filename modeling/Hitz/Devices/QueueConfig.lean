import Hitz.Devices.MmioTransport
import Hitz.Vmm.Memory

/-!
# The configuration of a queue is a projection of the guest's writes

`QueueConfig.ofLog` says what the registers of a queue hold after the writes of a log, register by
register.  The log of queue `i` consists of the writes made since the last reset while `i` was
selected.  Every transport holds, for each of its queues, the configuration its log gives
(`config_of_run`); the laws about queue sizes are read off from that.
-/

namespace Hitz.Devices

open WriteLog

/-- A write to a register. -/
structure RegWrite where
  offset : UInt64
  value : UInt32
  deriving DecidableEq, Repr

/-- What the guest configures for a queue: `num`, the halves of the ring addresses, the ready flag,
the addresses latched in the queue and the size the queue works with. -/
structure QueueConfig where
  num : UInt16
  descLow : UInt32
  descHigh : UInt32
  availLow : UInt32
  availHigh : UInt32
  usedLow : UInt32
  usedHigh : UInt32
  ready : Bool
  descGpa : UInt64
  availGpa : UInt64
  usedGpa : UInt64
  size : UInt16
  deriving DecidableEq, Repr

/-- The configuration of a queue. -/
def QueueState.config (qs : QueueState) : QueueConfig where
  num := qs.num
  descLow := qs.descLow
  descHigh := qs.descHigh
  availLow := qs.availLow
  availHigh := qs.availHigh
  usedLow := qs.usedLow
  usedHigh := qs.usedHigh
  ready := qs.queue.ready
  descGpa := qs.queue.descGpa
  availGpa := qs.queue.availGpa
  usedGpa := qs.queue.usedGpa
  size := qs.queue.size

namespace RegWrite

/-- The register written. -/
def reg (w : RegWrite) : Option Reg := Reg.ofOffset w.offset

/-- The value, if `r` is the register written. -/
def valueOf (r : Reg) (w : RegWrite) : Option UInt32 :=
  if w.reg = some r then some w.value else none

/-- A write of zero to the 8-bit `STATUS` register. -/
def isReset (w : RegWrite) : Bool := w.reg = some .status && w.value.toUInt8 = 0

/-- A write that makes a queue ready. -/
def isReady (w : RegWrite) : Bool := w.reg = some .queueReady && w.value != 0

/-- The queue selected by the write, if it is one of `count`. -/
def select (count : ℕ) (w : RegWrite) : Option ℕ :=
  if w.reg = some .queueSel ∧ w.value.toNat < count then some w.value.toNat else none

/-- The low 16 bits written to `QUEUE_NUM`. -/
def numOf (w : RegWrite) : Option UInt16 := (w.valueOf .queueNum).map (·.toUInt16)

/-- The size written to `QUEUE_NUM`, if a queue takes it. -/
def acceptedSize (w : RegWrite) : Option UInt16 :=
  w.numOf.filter fun size => 0 < size && size ≤ maxQueueSize

end RegWrite

open RegWrite

/-- The queue a log selects: its last in-range `QUEUE_SEL`. -/
def selected (count : ℕ) (log : List RegWrite) : ℕ := (last (select count) log).getD 0

/-- The writes that configure queue `i`. -/
def queueLog (count i : ℕ) (log : List RegWrite) : List RegWrite :=
  during (selected count) i (since isReset log)

namespace QueueConfig

/-- The last value written to a half of a ring address. -/
def half (r : Reg) (log : List RegWrite) : UInt32 := (last (valueOf r) log).getD 0

/-- The ring address in the two halves at the last write that made the queue ready. -/
def latched (low high : Reg) (log : List RegWrite) : UInt64 :=
  QueueState.gpa (half low (upTo isReady log)) (half high (upTo isReady log))

/-- What the writes of a log leave in the registers of a queue. -/
def ofLog (log : List RegWrite) : QueueConfig where
  num := (last numOf log).getD queueNumMax
  descLow := half .queueDescLow log
  descHigh := half .queueDescHigh log
  availLow := half .queueAvailLow log
  availHigh := half .queueAvailHigh log
  usedLow := half .queueUsedLow log
  usedHigh := half .queueUsedHigh log
  ready := ((last (valueOf .queueReady) log).map (· != 0)).getD false
  descGpa := latched .queueDescLow .queueDescHigh log
  availGpa := latched .queueAvailLow .queueAvailHigh log
  usedGpa := latched .queueUsedLow .queueUsedHigh log
  size := (last acceptedSize log).getD queueNumMax

/-- The effect of one write on the queue it is made to. -/
def write (c : QueueConfig) (w : RegWrite) : QueueConfig :=
  match w.reg with
  | some .queueNum => { c with num := w.value.toUInt16, size := w.acceptedSize.getD c.size }
  | some .queueReady =>
    if w.value != 0 then
      { c with
        ready := true, descGpa := QueueState.gpa c.descLow c.descHigh
        availGpa := QueueState.gpa c.availLow c.availHigh
        usedGpa := QueueState.gpa c.usedLow c.usedHigh }
    else { c with ready := false }
  | some .queueDescLow => { c with descLow := w.value }
  | some .queueDescHigh => { c with descHigh := w.value }
  | some .queueAvailLow => { c with availLow := w.value }
  | some .queueAvailHigh => { c with availHigh := w.value }
  | some .queueUsedLow => { c with usedLow := w.value }
  | some .queueUsedHigh => { c with usedHigh := w.value }
  | _ => c

theorem half_concat (r : Reg) (log : List RegWrite) (w : RegWrite) :
    half r (log ++ [w]) = if w.reg = some r then w.value else half r log := by
  unfold half
  rw [last_concat, valueOf]
  split_ifs <;> rfl

theorem latched_concat (low high : Reg) (log : List RegWrite) (w : RegWrite)
    (hlow : low ≠ .queueReady) (hhigh : high ≠ .queueReady) :
    latched low high (log ++ [w]) =
      if w.isReady then QueueState.gpa (half low log) (half high log)
      else latched low high log := by
  unfold latched
  rw [upTo_concat]
  by_cases h : w.isReady
  · have hreg : w.reg = some .queueReady := by
      simp only [isReady, Bool.and_eq_true, decide_eq_true_eq] at h
      exact h.1
    have hl : w.reg ≠ some low := fun he => hlow (Option.some.inj (he.symm.trans hreg))
    have hh : w.reg ≠ some high := fun he => hhigh (Option.some.inj (he.symm.trans hreg))
    rw [if_pos h, if_pos h, half_concat, half_concat, if_neg hl, if_neg hh]
  · rw [if_neg h, if_neg h]

/-- A log that grows by one write. -/
theorem ofLog_concat (log : List RegWrite) (w : RegWrite) :
    ofLog (log ++ [w]) = (ofLog log).write w := by
  have hdesc := latched_concat .queueDescLow .queueDescHigh log w
    (by decide) (by decide)
  have havail := latched_concat .queueAvailLow .queueAvailHigh log w
    (by decide) (by decide)
  have hused := latched_concat .queueUsedLow .queueUsedHigh log w
    (by decide) (by decide)
  unfold ofLog write
  simp only [half_concat, last_concat, hdesc, havail, hused, numOf, acceptedSize, valueOf, isReady]
  obtain hr | ⟨r, hr⟩ := Option.eq_none_or_eq_some w.reg
  · simp [hr]
  · -- the value is dropped by every register that is not a register of the queue
    cases r <;> simp [hr, Option.getD_or]
    by_cases hv : w.value = 0 <;> simp [hv]

theorem ofLog_nil : ofLog [] = QueueState.new.config := by decide

end QueueConfig

/-! ### What a step does to the configurations -/

theorem QueueState.config_reset (qs : QueueState) : qs.reset.config = QueueState.new.config := by
  rfl

theorem QueueState.config_setNum (qs : QueueState) {w : RegWrite} (hw : w.reg = some .queueNum) :
    (qs.setNum w.value.toUInt16).config = qs.config.write w := by
  simp only [setNum, config, QueueConfig.write, hw, acceptedSize, numOf, valueOf, VirtQueue.setSize]
  split_ifs with h
  · simp [Option.filter_some, h.1, h.2]
  · simp [Option.filter_some, h]

theorem QueueState.config_setReady (qs : QueueState) {w : RegWrite}
    (hw : w.reg = some .queueReady) :
    (qs.setReady (w.value != 0)).config = qs.config.write w := by
  simp only [QueueConfig.write, hw, setReady]
  cases w.value != 0 <;> rfl

namespace VirtioMmioTransport

variable {D M : Type} [VirtioBackend D M]

/-- The configurations of the queues. -/
def configs (t : VirtioMmioTransport D M) : List QueueConfig := t.queues.map QueueState.config

/-- The register write that an access is, if it is one. -/
def Access.regWrite : Access D M → Option RegWrite
  | .write offset data =>
    if mmioConfigStart ≤ offset then none else some ⟨offset, writeValue data⟩
  | _ => none

omit [VirtioBackend D M] in
theorem configs_modifySelected (t : VirtioMmioTransport D M) {f : QueueState → QueueState}
    {g : QueueConfig → QueueConfig} (h : ∀ qs : QueueState, (f qs).config = g qs.config) :
    (t.modifySelected f).configs = t.configs.modify t.queueSel g := by
  apply List.ext_getElem?
  intro i
  simp only [configs, modifySelected, List.getElem?_map, List.getElem?_modify]
  cases t.queues[i]? with
  | none => rfl
  | some qs =>
    by_cases hi : t.queueSel = i
    · simp [hi, h]
    · simp [hi]

/-- A backend that moved the cursor of a queue left its configuration alone. -/
theorem config_of_queue (qs : QueueState) {q : VirtQueue}
    (h : q = { qs.queue with lastAvailIdx := q.lastAvailIdx }) :
    ({ qs with queue := q } : QueueState).config = qs.config := by
  rw [h]
  rfl

theorem notify_configs {fuel : ℕ} {t t' : VirtioMmioTransport D M} {queueIdx : UInt16}
    {irq : Option UInt8} (h : t.notify fuel queueIdx = some (irq, t')) :
    t'.configs = t.configs ∧ t'.queueSel = t.queueSel := by
  unfold notify at h
  split at h
  · cases h
    exact ⟨rfl, rfl⟩
  · rename_i qs hqs
    obtain ⟨s, hs, heq⟩ := Option.map_eq_some_iff.1 h
    cases heq
    refine ⟨?_, rfl⟩
    have hc := config_of_queue qs (VirtioBackend.queue_processQueue hs)
    show (t.queues.set _ _).map _ = t.queues.map _
    rw [List.map_set, hc]
    apply List.ext_getElem?
    intro i
    rw [List.getElem?_set]
    split_ifs with hi hlt
    · rw [← hi, List.getElem?_map, hqs]
      rfl
    · rw [List.getElem?_eq_none (by omega)]
    · rfl

theorem pollRx_configs (t : VirtioMmioTransport D M) :
    t.pollRx.2.configs = t.configs ∧ t.pollRx.2.queueSel = t.queueSel := by
  unfold pollRx
  split
  · exact ⟨rfl, rfl⟩
  · rename_i qs rest hq
    have hlaw := config_of_queue qs
      (VirtioBackend.queue_pollRx t.device qs.queue t.mem)
    split
    · rename_i s hs
      rw [hs] at hlaw
      exact ⟨by simp only [configs, hq, List.map_cons, hlaw], rfl⟩
    · rename_i s hs
      rw [hs] at hlaw
      exact ⟨by simp only [configs, hq, List.map_cons, hlaw], rfl⟩

/-- Everything a register write does to the configurations and the selection. -/
theorem writeReg_configs {fuel : ℕ} {t t' : VirtioMmioTransport D M} {w : RegWrite}
    {irq : Option UInt8} (h : t.writeReg fuel w.offset w.value = some (irq, t')) :
    if w.isReset then
      t'.configs = t.configs.map (fun _ => QueueState.new.config) ∧ t'.queueSel = 0
    else
      t'.configs = t.configs.modify t.queueSel (·.write w) ∧
        t'.queueSel = (w.select t.configs.length).getD t.queueSel := by
  have hlen : t.configs.length = t.queues.length := List.length_map _
  -- a register that configures no queue
  have hkeep : (∀ c : QueueConfig, c.write w = c) →
      t.configs = t.configs.modify t.queueSel (·.write w) := by
    intro hid
    rw [funext hid]
    exact (List.modify_id _ _).symm
  unfold writeReg at h
  obtain hr | ⟨r, hr⟩ := Option.eq_none_or_eq_some w.reg
  · have hr' : Reg.ofOffset w.offset = none := hr
    rw [hr'] at h
    cases h
    simp only [isReset, select, hr]
    exact ⟨hkeep fun c => by simp only [QueueConfig.write, hr], rfl⟩
  · have hr' : Reg.ofOffset w.offset = some r := hr
    rw [hr'] at h
    cases r
    case status =>
      dsimp only at h
      split_ifs at h with hv
      · cases h
        simp only [isReset, hr, hv]
        refine ⟨?_, rfl⟩
        simp only [reset, configs, List.map_map]
        exact List.map_congr_left fun qs _ => qs.config_reset
      · cases h
        simp only [isReset, select, hr, hv]
        exact ⟨hkeep fun c => by simp only [QueueConfig.write, hr], rfl⟩
    case queueSel =>
      dsimp only at h
      rw [← hlen] at h
      simp only [isReset, select, hr]
      split_ifs at h with hv
      · cases h
        simp only [hv]
        exact ⟨hkeep fun c => by simp only [QueueConfig.write, hr], rfl⟩
      · cases h
        simp only [hv]
        exact ⟨hkeep fun c => by simp only [QueueConfig.write, hr], rfl⟩
    case queueNotify =>
      obtain ⟨hc, hs⟩ := notify_configs h
      simp only [isReset, select, hr]
      exact ⟨hc.trans (hkeep fun c => by simp only [QueueConfig.write, hr]), hs⟩
    case queueNum =>
      cases h
      simp only [isReset, select, hr]
      exact ⟨t.configs_modifySelected fun qs => qs.config_setNum hr, rfl⟩
    case queueReady =>
      cases h
      simp only [isReset, select, hr]
      exact ⟨t.configs_modifySelected fun qs => qs.config_setReady hr, rfl⟩
    case queueDescLow | queueDescHigh | queueAvailLow | queueAvailHigh | queueUsedLow
        | queueUsedHigh =>
      cases h
      simp only [isReset, select, hr]
      refine ⟨t.configs_modifySelected fun qs => ?_, rfl⟩
      simp only [QueueConfig.write, hr]
      rfl
    all_goals
      cases h
      simp only [isReset, select, hr]
      exact ⟨hkeep fun c => by simp only [QueueConfig.write, hr], rfl⟩

/-- An access that writes no register changes no configuration and no selection. -/
theorem step_configs_of_none {fuel : ℕ} {t t' : VirtioMmioTransport D M} {a : Access D M}
    (h : t.step fuel a = some t') (ha : a.regWrite = none) :
    t'.configs = t.configs ∧ t'.queueSel = t.queueSel := by
  cases a with
  | read offset data =>
    have heq : (t.mmioRead offset data).2 = t := by
      unfold mmioRead
      split_ifs <;> rfl
    cases h
    rw [heq]
    exact ⟨rfl, rfl⟩
  | write offset data =>
    have hle : mmioConfigStart ≤ offset := by
      by_contra hlt
      simp [Access.regWrite, hlt] at ha
    simp only [step, mmioWrite, hle] at h
    cases h
    exact ⟨rfl, rfl⟩
  | poll =>
    cases h
    exact t.pollRx_configs
  | outside device mem =>
    cases h
    exact ⟨rfl, rfl⟩

theorem step_of_some {fuel : ℕ} {t t' : VirtioMmioTransport D M} {a : Access D M} {w : RegWrite}
    (h : t.step fuel a = some t') (ha : a.regWrite = some w) :
    ∃ irq, t.writeReg fuel w.offset w.value = some (irq, t') := by
  cases a with
  | write offset data =>
    simp only [Access.regWrite] at ha
    split_ifs at ha with hlt
    cases ha
    simp only [step, mmioWrite, hlt] at h
    obtain ⟨⟨irq, t₁⟩, ht, rfl⟩ := Option.map_eq_some_iff.1 h
    exact ⟨irq, ht⟩
  | read | poll | outside => cases ha

/-! ### Runs -/

/-- The register writes of a trace. -/
def writes (trace : List (Access D M)) : List RegWrite := trace.filterMap Access.regWrite

omit [VirtioBackend D M] in
theorem writes_concat (trace : List (Access D M)) (a : Access D M) :
    writes (trace ++ [a]) = writes trace ++ a.regWrite.toList := by
  unfold writes
  rw [List.filterMap_append]
  cases hw : a.regWrite with
  | none => simp [hw]
  | some w => simp [hw]

/-- The transport holds what the log of its register writes says. -/
structure Projected (count : ℕ) (log : List RegWrite) (t : VirtioMmioTransport D M) : Prop where
  length : t.configs.length = count
  queueSel : t.queueSel = selected count (since isReset log)
  config : ∀ i c, t.configs[i]? = some c → c = QueueConfig.ofLog (queueLog count i log)

theorem selected_concat (count : ℕ) (log : List RegWrite) (w : RegWrite) :
    selected count (log ++ [w]) = (w.select count).getD (selected count log) := by
  unfold selected
  rw [last_concat, Option.getD_or]

/-- One register write keeps the transport a projection of the log. -/
theorem Projected.write {fuel count : ℕ} {log : List RegWrite} {t t' : VirtioMmioTransport D M}
    {w : RegWrite} {irq : Option UInt8} (ht : Projected count log t)
    (h : t.writeReg fuel w.offset w.value = some (irq, t')) :
    Projected count (log ++ [w]) t' := by
  have hw := writeReg_configs h
  by_cases hreset : w.isReset
  · rw [if_pos hreset] at hw
    have hlog : since isReset (log ++ [w]) = [] := by rw [since_concat, if_pos hreset]
    refine ⟨by rw [hw.1, List.length_map, ht.length], by rw [hw.2, hlog]; rfl, ?_⟩
    intro i c hc
    rw [hw.1, List.getElem?_map] at hc
    obtain ⟨-, -, rfl⟩ := Option.map_eq_some_iff.1 hc
    rw [queueLog, hlog]
    exact QueueConfig.ofLog_nil.symm
  · rw [if_neg hreset] at hw
    have hlog : since isReset (log ++ [w]) = since isReset log ++ [w] := by
      rw [since_concat, if_neg hreset]
    refine ⟨by rw [hw.1, List.length_modify, ht.length], ?_, ?_⟩
    · rw [hw.2, hlog, selected_concat, ht.length, ht.queueSel]
    · intro i c hc
      rw [hw.1, List.getElem?_modify] at hc
      obtain ⟨c₀, hc₀, rfl⟩ := Option.map_eq_some_iff.1 hc
      have ih := ht.config i c₀ hc₀
      rw [queueLog, hlog, during_concat, ← ht.queueSel]
      by_cases hi : t.queueSel = i
      · rw [if_pos hi, if_pos hi, QueueConfig.ofLog_concat, ih]
        rfl
      · rw [if_neg hi, if_neg hi, List.append_nil]
        exact ih

theorem Projected.step {fuel count : ℕ} {log : List RegWrite} {t t' : VirtioMmioTransport D M}
    {a : Access D M} (ht : Projected count log t) (h : t.step fuel a = some t') :
    Projected count (log ++ a.regWrite.toList) t' := by
  cases ha : a.regWrite with
  | none =>
    obtain ⟨hc, hs⟩ := step_configs_of_none h ha
    rw [Option.toList_none, List.append_nil]
    exact ⟨hc ▸ ht.length, hs ▸ ht.queueSel, hc ▸ ht.config⟩
  | some w =>
    obtain ⟨irq, hw⟩ := step_of_some h ha
    exact ht.write hw

theorem projected_new (device : D) (mem : M) (irqVector : UInt8) :
    Projected (VirtioBackend.queueCount M device) [] (new device mem irqVector) := by
  refine ⟨by simp [configs, new], rfl, ?_⟩
  intro i c hc
  simp only [configs, new, List.map_replicate, List.getElem?_replicate] at hc
  split_ifs at hc
  cases hc
  exact QueueConfig.ofLog_nil.symm

/-- Every transport is a projection of the register writes made to it. -/
theorem projected_of_run {fuel : ℕ} {device : D} {mem : M} {irqVector : UInt8}
    {trace : List (Access D M)} {t : VirtioMmioTransport D M}
    (h : (new device mem irqVector).run fuel trace = some t) :
    Projected (VirtioBackend.queueCount M device) (writes trace) t := by
  induction trace using List.reverseRecOn generalizing t with
  | nil =>
    cases h
    exact projected_new device mem irqVector
  | append_singleton trace a ih =>
    obtain ⟨s, hs, ha⟩ := run_concat.1 h
    rw [writes_concat]
    exact (ih hs).step ha

/-- The configuration of every queue is the projection of the writes made since the last reset
while it was selected; a write made while another queue is selected does not change it. -/
theorem queue_config_is_projection (fuel : ℕ) (device : D) (mem : M) (irqVector : UInt8)
    (trace : List (Access D M)) {t : VirtioMmioTransport D M}
    (h : (new device mem irqVector).run fuel trace = some t) :
    t.queues.length = VirtioBackend.queueCount M device ∧
    t.queueSel = selected t.queues.length (since isReset (writes trace)) ∧
    (∀ i qs, t.queues[i]? = some qs →
      qs.config = QueueConfig.ofLog (queueLog t.queues.length i (writes trace)) ∧
      (queueLog t.queues.length i (writes trace) = [] → qs.config = QueueState.new.config)) ∧
    ∀ i a t', t.step fuel a = some t' → (∀ w, a.regWrite = some w → ¬ w.isReset) →
      t.queueSel ≠ i → t'.configs[i]? = t.configs[i]? := by
  have ht := projected_of_run h
  have hlen : t.queues.length = VirtioBackend.queueCount M device := by
    rw [← ht.length, configs, List.length_map]
  rw [hlen]
  refine ⟨rfl, ht.queueSel, fun i qs hqs => ?_, fun i a t' ha hreset hi => ?_⟩
  · have hc : qs.config = _ := ht.config i qs.config (by rw [configs, List.getElem?_map, hqs]; rfl)
    exact ⟨hc, fun hnil => by rw [hc, hnil, QueueConfig.ofLog_nil]⟩
  · cases hw : a.regWrite with
    | none => rw [(step_configs_of_none ha hw).1]
    | some w =>
      obtain ⟨irq, hwrite⟩ := step_of_some ha hw
      have hc := writeReg_configs hwrite
      rw [if_neg (hreset w hw)] at hc
      rw [hc.1, List.getElem?_modify]
      simp [hi]

/-- A socket device and zeroed memory. -/
def socketDevice : VirtioVsockDevice where
  guestCid := 3

@[inherit_doc socketDevice]
def zeroMemory : Vmm.MappedMemory :=
  Vmm.MappedMemory.ram 4096 Vmm.MappedMemory.page_pos (Vmm.MappedMemory.image [])

/-- Reset, select queue 1, give it eight entries and a descriptor table at `0x2_0000_1000`, make it
ready, then write a half of queue 2. -/
def exampleTrace : List (Access VirtioVsockDevice Vmm.MappedMemory) :=
  [.write 0x70 [0], .write 0x30 [1], .write 0x38 [8], .write 0x80 [0, 0x10, 0, 0], .write 0x84 [2],
    .write 0x44 [1], .write 0x30 [2], .write 0x30 [7], .write 0x80 [9], .read 0x44 [0, 0, 0, 0]]

theorem queue_config_is_projection_socket :
    ∃ t, (new socketDevice zeroMemory 5).run 1 exampleTrace = some t ∧ t.queueSel = 2 ∧
      ∀ qs, t.queues[1]? = some qs →
      qs.config.num = 8 ∧ qs.config.ready = true ∧ qs.config.descGpa = 0x200001000 := by
  obtain ⟨t, ht⟩ := Option.isSome_iff_exists.1
    (by decide +kernel : ((new socketDevice zeroMemory 5).run 1 exampleTrace).isSome)
  obtain ⟨hlen, hsel, hconfig, -⟩ := queue_config_is_projection 1 socketDevice
    zeroMemory 5 exampleTrace ht
  rw [hlen] at hsel hconfig
  refine ⟨t, ht, hsel.trans (by decide +kernel), fun qs hqs => ?_⟩
  rw [(hconfig 1 qs hqs).1]
  decide +kernel

/-! ### Queue sizes -/

/-- What the rings need of the queue sizes: the selected queue exists; a size is a power of two, at
most 256 and the recorded `num`; and consecutive indices use consecutive slots. -/
structure SizesOk (t : VirtioMmioTransport D M) : Prop where
  queueSel : t.queueSel < t.queues.length
  size : ∀ qs ∈ t.queues, (∃ k, qs.queue.size.toNat = 2 ^ k) ∧ 1 ≤ qs.queue.size.toNat ∧
    qs.queue.size.toNat ≤ 256
  num : ∀ qs ∈ t.queues, qs.num = qs.queue.size
  slot : ∀ qs ∈ t.queues, ∀ k : UInt16, (k + 1).toNat % qs.queue.size.toNat =
    (k.toNat % qs.queue.size.toNat + 1) % qs.queue.size.toNat

/-- A write to `QUEUE_NUM`, if it is one, whose low 16 bits are a power of two in `1..=256`. -/
def GoodNum (w : RegWrite) : Prop := ∀ n, w.numOf = some n → ∃ k ≤ 8, n.toNat = 2 ^ k

/-- Consecutive indices use consecutive slots, also when the index wraps to zero. -/
theorem slot_succ {size : ℕ} (h : size ∣ 65536) (k : UInt16) :
    (k + 1).toNat % size = (k.toNat % size + 1) % size := by
  have hone : (k + 1).toNat = (k.toNat + 1) % 65536 := UInt16.toNat_add k 1
  rw [hone, Nat.mod_mod_of_dvd _ h, Nat.mod_add_mod]

theorem GoodNum.acceptedSize {w : RegWrite} (h : GoodNum w) : w.acceptedSize = w.numOf := by
  unfold RegWrite.acceptedSize
  cases hn : w.numOf with
  | none => rfl
  | some n =>
    obtain ⟨k, hk, hpow⟩ := h n hn
    have hpos : 0 < n := UInt16.lt_iff_toNat_lt.2 (by rw [hpow]; exact Nat.two_pow_pos k)
    have hle : n ≤ maxQueueSize := by
      apply UInt16.le_iff_toNat_le.2
      rw [hpow]
      exact Nat.pow_le_pow_right Nat.two_pos hk
    simp [Option.filter_some, hpos, hle]

/-- What a log of good sizes leaves in a queue. -/
theorem size_ofLog {log : List RegWrite} (h : ∀ w ∈ log, GoodNum w) :
    (QueueConfig.ofLog log).num = (QueueConfig.ofLog log).size ∧
      ∃ k ≤ 8, (QueueConfig.ofLog log).size.toNat = 2 ^ k := by
  have hsame : last acceptedSize log = last numOf log :=
    last_congr fun w hw => (h w hw).acceptedSize
  simp only [QueueConfig.ofLog, hsame, true_and]
  cases hl : last numOf log with
  | none => exact ⟨8, le_rfl, rfl⟩
  | some n =>
    obtain ⟨w, hw, hn⟩ := mem_of_last hl
    exact h w hw n hn

/-- The selection is in range on every transport. -/
theorem queueSel_lt {fuel : ℕ} {device : D} {mem : M} {irqVector : UInt8}
    {trace : List (Access D M)} {t : VirtioMmioTransport D M}
    (h : (new device mem irqVector).run fuel trace = some t) : t.queueSel < t.configs.length := by
  have ht := projected_of_run h
  rw [ht.queueSel, ht.length, selected]
  cases hl : last (select (VirtioBackend.queueCount M device)) (since isReset (writes trace)) with
  | none => exact VirtioBackend.queueCount_pos device
  | some i =>
    obtain ⟨w, -, hw⟩ := mem_of_last hl
    simp only [select] at hw
    split_ifs at hw with hsel
    cases hw
    exact hsel.2

theorem sizesOk_of_goodNum {fuel : ℕ} {device : D} {mem : M} {irqVector : UInt8}
    {trace : List (Access D M)} {t : VirtioMmioTransport D M}
    (h : (new device mem irqVector).run fuel trace = some t)
    (hgood : ∀ w ∈ writes trace, GoodNum w) :
    SizesOk t := by
  have ht := projected_of_run h
  have hqs : ∀ qs ∈ t.queues, qs.num = qs.queue.size ∧ ∃ k ≤ 8, qs.queue.size.toNat = 2 ^ k := by
    intro qs hmem
    obtain ⟨i, hi⟩ := List.mem_iff_getElem?.1 hmem
    have hc : qs.config = _ := ht.config i qs.config (by rw [configs, List.getElem?_map, hi]; rfl)
    have hlog : ∀ w ∈ queueLog (VirtioBackend.queueCount M device) i (writes trace), GoodNum w :=
      fun w hw => hgood w (mem_of_since (mem_of_during hw))
    have hsize := size_ofLog hlog
    rw [← hc] at hsize
    exact hsize
  refine ⟨by simpa [configs] using queueSel_lt h, ?_, fun qs hmem => (hqs qs hmem).1, ?_⟩
  · intro qs hmem
    obtain ⟨-, k, -, hk⟩ := hqs qs hmem
    exact ⟨⟨k, hk⟩, qs.queue.size_pos, qs.queue.size_le⟩
  · intro qs hmem
    obtain ⟨-, k, hk, hpow⟩ := hqs qs hmem
    apply slot_succ
    rw [hpow]
    exact pow_dvd_pow 2 (by omega : k ≤ 16)

/-- A `QUEUE_NUM` write is good if the sizes are good after it. -/
theorem GoodNum.of_sizesOk {fuel : ℕ} {t t' : VirtioMmioTransport D M} {w : RegWrite}
    {irq : Option UInt8} (hsel : t.queueSel < t.configs.length)
    (h : t.writeReg fuel w.offset w.value = some (irq, t')) (hok : SizesOk t') : GoodNum w := by
  intro n hn
  obtain ⟨v, hv, rfl⟩ := Option.map_eq_some_iff.1 hn
  simp only [valueOf] at hv
  split_ifs at hv with hr
  cases hv
  have hc := writeReg_configs h
  simp only [isReset, select, hr] at hc
  have hc₁ : t'.configs = t.configs.modify t.queueSel (·.write w) := hc.1
  -- the queue that was selected now has the written `num`
  have hget : t'.configs[t.queueSel]? = some (t.configs[t.queueSel].write w) := by
    rw [hc₁, List.getElem?_modify, List.getElem?_eq_getElem hsel]
    simp
  rw [configs, List.getElem?_map] at hget
  obtain ⟨qs, hqs, hwrite⟩ := Option.map_eq_some_iff.1 hget
  have hnum : qs.num = w.value.toUInt16 := by
    show qs.config.num = _
    rw [hwrite]
    simp only [QueueConfig.write, hr]
  have hmem : qs ∈ t'.queues := List.mem_of_getElem? hqs
  obtain ⟨⟨k, hk⟩, -, hle⟩ := hok.size qs hmem
  rw [← hnum, hok.num qs hmem]
  refine ⟨k, ?_, hk⟩
  by_contra hlt
  have h512 : 2 ^ 9 ≤ 2 ^ k := Nat.pow_le_pow_right Nat.two_pos (by omega)
  omega

/-- The sizes are good in every state of a run exactly when every `QUEUE_NUM` write is. -/
theorem queue_sizes_ok_iff (fuel : ℕ) (device : D) (mem : M) (irqVector : UInt8)
    (trace : List (Access D M)) (hrun : ((new device mem irqVector).run fuel trace).isSome) :
    (∀ before after t, trace = before ++ after →
      (new device mem irqVector).run fuel before = some t → SizesOk t) ↔
    ∀ w ∈ writes trace, GoodNum w := by
  constructor
  · intro hall w hw
    obtain ⟨a, ha, hreg⟩ := List.mem_filterMap.1 hw
    obtain ⟨before, after, rfl⟩ := List.append_of_mem ha
    obtain ⟨t', ht'⟩ := Option.isSome_iff_exists.1 hrun
    rw [List.append_cons] at ht'
    obtain ⟨t, ht, -⟩ := run_append.1 ht'
    obtain ⟨s, hs, hstep⟩ := run_concat.1 ht
    obtain ⟨irq, hwrite⟩ := step_of_some hstep hreg
    exact GoodNum.of_sizesOk (queueSel_lt hs) hwrite (hall _ after t (List.append_cons _ _ _) ht)
  · intro hgood before after t heq ht
    subst heq
    exact sizesOk_of_goodNum ht fun w hw => hgood w (by
      rw [writes, List.filterMap_append]
      exact List.mem_append_left _ hw)

theorem queue_sizes_ok_socket :
    ∃ t, (new socketDevice zeroMemory 5).run 1 exampleTrace = some t ∧ SizesOk t := by
  have hgood : ∀ w ∈ writes exampleTrace, GoodNum w := by
    intro w hw n hn
    have hnum : exampleTrace.filterMap (fun a => a.regWrite.bind numOf) = [8] := by decide +kernel
    obtain ⟨a, ha, hreg⟩ := List.mem_filterMap.1 hw
    have hmem : n ∈ [(8 : UInt16)] := by
      rw [← hnum]
      exact List.mem_filterMap.2 ⟨a, ha, by rw [hreg]; exact hn⟩
    obtain rfl := List.mem_singleton.1 hmem
    exact ⟨3, by decide, rfl⟩
  obtain ⟨t, ht⟩ := Option.isSome_iff_exists.1
    (by decide +kernel : ((new socketDevice zeroMemory 5).run 1 exampleTrace).isSome)
  have hall := (queue_sizes_ok_iff 1 socketDevice zeroMemory 5 exampleTrace (by decide +kernel)).2
  exact ⟨t, ht, hall hgood exampleTrace [] t (List.append_nil _).symm ht⟩

/-- A queue of three entries: the indices 65535 and 0 use the same slot. -/
theorem queue_size_three : ∃ t, (new socketDevice zeroMemory 5).run 1 [.write 0x38 [3]] = some t ∧
    (t.queues.map fun qs => qs.queue.size) = [3, 256, 256] ∧
    (65535 : UInt16).toNat % 3 = ((65535 : UInt16) + 1).toNat % 3 ∧ ¬ SizesOk t := by
  obtain ⟨t, ht⟩ := Option.isSome_iff_exists.1
    (by decide +kernel : ((new socketDevice zeroMemory 5).run 1 [.write 0x38 [3]]).isSome)
  have hsizes : (t.queues.map fun qs => qs.queue.size) = [3, 256, 256] := by
    have := congrArg (Option.map fun t => t.queues.map fun qs => qs.queue.size) ht
    exact (Option.some.inj (this.symm.trans (by decide +kernel)))
  refine ⟨t, ht, hsizes, by decide, fun hok => ?_⟩
  have hmem : (3 : UInt16) ∈ t.queues.map fun qs => qs.queue.size := by rw [hsizes]; decide
  obtain ⟨qs, hqs, hthree⟩ := List.mem_map.1 hmem
  have hslot := hok.slot qs hqs 65535
  rw [hthree] at hslot
  exact absurd hslot (by decide)

end VirtioMmioTransport

end Hitz.Devices

import Hitz.Devices.MmioBus
import Hitz.Devices.QueueConfig

/-!
# The devices of a guest on one bus (`hitz-devices/src/mmio_bus.rs`, `setup_devices`)

All transports of a guest sit on one bus and work on one guest memory.  What a transport does was
shown for any sequence of accesses to it, with anything happening to the memory in between; here it
is shown that on the bus it sees just such a sequence.

* `GuestDevice`: the three devices as one backend;
* `SharedBus`, `step`, `run`: the bus with the memory; a notification of one device writes memory
  that the others read;
* `Sees`: a transport that has seen some accesses;
* `devices_isolated`: whatever the guest does to the other devices, each device has seen the
  accesses to its own window, in order, and no others.
-/

namespace Hitz.Devices

open ByteStore Intervals VirtioMmioTransport
open scoped List

/-! ### The devices of a guest -/

/-- What `setup_devices` puts behind a transport. -/
inductive GuestDevice
  | block (dev : VirtioBlockDevice)
  | net (dev : VirtioNetDevice)
  | vsock (dev : VirtioVsockDevice)

/-- The state of a loop with another name for its device. -/
def LoopState.mapDev {σ τ M : Type} (f : σ → τ) (s : LoopState σ M) : LoopState τ M where
  dev := f s.dev
  queue := s.queue
  mem := s.mem
  popped := s.popped

namespace GuestDevice

variable {M : Type} [ByteStore M]

/-- `process_queue` of the device. -/
def processQueue (fuel : ℕ) (dev : GuestDevice) (idx : UInt16) (queue : VirtQueue) (mem : M) :
    Option (LoopState GuestDevice M) :=
  match dev with
  | block dev => (VirtioBackend.processQueue fuel dev idx queue mem).map (.mapDev block)
  | net dev => (VirtioBackend.processQueue fuel dev idx queue mem).map (.mapDev net)
  | vsock dev => (VirtioBackend.processQueue fuel dev idx queue mem).map (.mapDev vsock)

/-- `poll_rx` of the device. -/
def pollRx (dev : GuestDevice) (queue : VirtQueue) (mem : M) : Bool × LoopState GuestDevice M :=
  match dev with
  | block dev => (VirtioBackend.pollRx dev queue mem).map id (.mapDev block)
  | net dev => (VirtioBackend.pollRx dev queue mem).map id (.mapDev net)
  | vsock dev => (VirtioBackend.pollRx dev queue mem).map id (.mapDev vsock)

instance : VirtioBackend GuestDevice M where
  deviceId
    | block dev => VirtioBackend.deviceId M dev
    | net dev => VirtioBackend.deviceId M dev
    | vsock dev => VirtioBackend.deviceId M dev
  deviceFeatures
    | block dev => VirtioBackend.deviceFeatures M dev
    | net dev => VirtioBackend.deviceFeatures M dev
    | vsock dev => VirtioBackend.deviceFeatures M dev
  queueCount
    | block dev => VirtioBackend.queueCount M dev
    | net dev => VirtioBackend.queueCount M dev
    | vsock dev => VirtioBackend.queueCount M dev
  processQueue := processQueue
  pollRx := pollRx
  readConfig
    | block dev => VirtioBackend.readConfig M dev
    | net dev => VirtioBackend.readConfig M dev
    | vsock dev => VirtioBackend.readConfig M dev
  writeConfig
    | block dev => fun offset data => block (VirtioBackend.writeConfig M dev offset data)
    | net dev => fun offset data => net (VirtioBackend.writeConfig M dev offset data)
    | vsock dev => fun offset data => vsock (VirtioBackend.writeConfig M dev offset data)
  queueCount_pos dev := by
    cases dev with
    | block dev => exact VirtioBackend.queueCount_pos dev
    | net dev => exact VirtioBackend.queueCount_pos dev
    | vsock dev => exact VirtioBackend.queueCount_pos dev
  queue_processQueue {fuel dev idx queue mem s} h := by
    cases dev with
    | block dev =>
      obtain ⟨s, hs, rfl⟩ := Option.map_eq_some_iff.1 h
      have hqueue : s.queue = _ := VirtioBackend.queue_processQueue hs
      exact hqueue
    | net dev =>
      obtain ⟨s, hs, rfl⟩ := Option.map_eq_some_iff.1 h
      have hqueue : s.queue = _ := VirtioBackend.queue_processQueue hs
      exact hqueue
    | vsock dev =>
      obtain ⟨s, hs, rfl⟩ := Option.map_eq_some_iff.1 h
      have hqueue : s.queue = _ := VirtioBackend.queue_processQueue hs
      exact hqueue
  queue_pollRx dev queue mem := by
    cases dev with
    | block dev => exact VirtioBackend.queue_pollRx dev queue mem
    | net dev => exact VirtioBackend.queue_pollRx dev queue mem
    | vsock dev => exact VirtioBackend.queue_pollRx dev queue mem

end GuestDevice

/-! ### The bus and the memory -/

/-- A transport on the guest memory `mem`. -/
def VirtioMmioTransport.onMem {D M : Type} (t : VirtioMmioTransport D M) (mem : M) :
    VirtioMmioTransport D M :=
  { t with mem }

/-- The bus, and the guest memory that its transports share; the copy in a transport that is not at
work has no meaning. -/
structure SharedBus (D M : Type) where
  bus : MmioBus (VirtioMmioTransport D M)
  mem : M

/-- What can happen on the bus: the guest accesses an address, the run loop polls, and the guest's
stores or the threads behind the channels change the memory and the device in a slot. -/
inductive BusEvent (D M : Type)
  | read (gpa : UInt64) (data : List UInt8)
  | write (gpa : UInt64) (data : List UInt8)
  | poll
  | outside (i : ℕ) (device : D) (mem : M)

namespace SharedBus

variable {D M : Type} [VirtioBackend D M]

/-- The transport at slot `i` has become `t`. -/
def put (s : SharedBus D M) (i : ℕ) (t : VirtioMmioTransport D M) : SharedBus D M where
  bus := s.bus.setDevice i t
  mem := t.mem

/-- `MmioBus::read` into the buffer `data`. -/
def read (checked : Bool) (s : SharedBus D M) (gpa : UInt64) (data : List UInt8) :
    Except Panic (List UInt8 × SharedBus D M) := do
  match ← s.bus.findIdx checked gpa with
  | none => .ok (data.map fun _ => 0xFF, s)
  | some i =>
    match s.bus.slots[i]? with
    | none => .ok (data.map fun _ => 0xFF, s)
    | some slot =>
      let (out, t) := (slot.device.onMem s.mem).mmioRead (gpa - slot.base) data
      .ok (out, s.put i t)

/-- `MmioBus::write`; `none` when the notified backend has not returned. -/
def write (checked : Bool) (fuel : ℕ) (s : SharedBus D M) (gpa : UInt64) (data : List UInt8) :
    Except Panic (Option (Option UInt8 × SharedBus D M)) := do
  match ← s.bus.findIdx checked gpa with
  | none => .ok (some (none, s))
  | some i =>
    match s.bus.slots[i]? with
    | none => .ok (some (none, s))
    | some slot =>
      .ok (((slot.device.onMem s.mem).mmioWrite fuel (gpa - slot.base) data).map fun r =>
        (r.1, s.put i r.2))

/-- The loop of `MmioBus::poll_devices`; the first device with an interrupt ends it. -/
def pollLoop : M → List (MmioSlot (VirtioMmioTransport D M)) →
    Option UInt8 × M × List (MmioSlot (VirtioMmioTransport D M))
  | mem, [] => (none, mem, [])
  | mem, slot :: rest =>
    match (slot.device.onMem mem).pollRx with
    | (some irq, t) => (some irq, t.mem, { slot with device := t } :: rest)
    | (none, t) =>
      let (irq, mem, rest) := pollLoop t.mem rest
      (irq, mem, { slot with device := t } :: rest)

/-- `MmioBus::poll_devices`. -/
def pollDevices (s : SharedBus D M) : Option UInt8 × SharedBus D M :=
  let (irq, mem, slots) := pollLoop s.mem s.bus.slots
  (irq, { bus := { slots }, mem })

/-- The device in slot `i` changes. -/
def setBackend (s : SharedBus D M) (i : ℕ) (device : D) (mem : M) : SharedBus D M where
  bus := { slots := s.bus.slots.modify i fun slot => { slot with
    device := { slot.device with device } } }
  mem

/-- One event; `none` after a panic, or when a backend has not returned. -/
def step (checked : Bool) (fuel : ℕ) (s : SharedBus D M) : BusEvent D M → Option (SharedBus D M)
  | .read gpa data => (s.read checked gpa data).toOption.map Prod.snd
  | .write gpa data => (s.write checked fuel gpa data).toOption.bind fun r => r.map Prod.snd
  | .poll => some s.pollDevices.2
  | .outside i device mem => some (s.setBackend i device mem)

/-- A run. -/
def run (checked : Bool) (fuel : ℕ) (s : SharedBus D M) (events : List (BusEvent D M)) :
    Option (SharedBus D M) :=
  events.foldlM (step checked fuel) s

end SharedBus

/-- The access to slot `i` that an event is. -/
def MmioSlot.window {δ D M : Type} (i : ℕ) (slot : MmioSlot δ) :
    BusEvent D M → Option (Access D M)
  | .read gpa data => if slot.Contains gpa then some (.read (gpa - slot.base) data) else none
  | .write gpa data => if slot.Contains gpa then some (.write (gpa - slot.base) data) else none
  | .poll => none
  | .outside j device mem => if j = i then some (.outside device mem) else none

/-! ### What a transport has seen -/

/-- The transport has come from `t₀` by these accesses, with polls and other writers of memory in
between. -/
inductive Sees {D M : Type} [VirtioBackend D M] (fuel : ℕ) (t₀ : VirtioMmioTransport D M) :
    List (Access D M) → VirtioMmioTransport D M → Prop
  | start : Sees fuel t₀ [] t₀
  | access {accesses a t t'} (h : Sees fuel t₀ accesses t) (ha : t.step fuel a = some t') :
    Sees fuel t₀ (accesses ++ [a]) t'
  | pollRx {accesses t} (h : Sees fuel t₀ accesses t) : Sees fuel t₀ accesses t.pollRx.2
  | onMem {accesses t} (h : Sees fuel t₀ accesses t) (mem : M) : Sees fuel t₀ accesses (t.onMem mem)

/-- All of it is a trace of the transport, with the same writes of the guest. -/
theorem Sees.run {D M : Type} [VirtioBackend D M] {fuel : ℕ} {t₀ t : VirtioMmioTransport D M}
    {accesses : List (Access D M)} (h : Sees fuel t₀ accesses t) :
    ∃ trace, t₀.run fuel trace = some t ∧ writes trace = writes accesses := by
  induction h with
  | start => exact ⟨[], rfl, rfl⟩
  | @access accesses a t t' h ha ih =>
    obtain ⟨trace, hrun, htrace⟩ := ih
    refine ⟨trace ++ [a], run_concat.2 ⟨t, hrun, ha⟩, ?_⟩
    rw [writes_concat, writes_concat, htrace]
  | @pollRx accesses t h ih =>
    obtain ⟨trace, hrun, htrace⟩ := ih
    refine ⟨trace ++ [.poll], run_concat.2 ⟨t, hrun, rfl⟩, ?_⟩
    rw [writes_concat, htrace]
    exact List.append_nil _
  | @onMem accesses t h mem ih =>
    obtain ⟨trace, hrun, htrace⟩ := ih
    refine ⟨trace ++ [.outside t.device mem], run_concat.2 ⟨t, hrun, rfl⟩, ?_⟩
    rw [writes_concat, htrace]
    exact List.append_nil _

/-! ### Routing -/

/-- Base and size. -/
def MmioSlot.area {δ : Type} (s : MmioSlot δ) : UInt64 × UInt64 := (s.base, s.size)

namespace MmioBus

variable {δ : Type} {checked : Bool}

/-- What the lookup depends on. -/
def layout (slots : List (MmioSlot δ)) : List (UInt64 × UInt64) := slots.map MmioSlot.area

theorem findIdx_congr {bus bus' : MmioBus δ} (h : layout bus.slots = layout bus'.slots)
    (gpa : UInt64) : bus.findIdx checked gpa = bus'.findIdx checked gpa := by
  have hpoint : ∀ b : MmioBus δ, partitionPoint (fun s : MmioSlot δ => decide (s.lo ≤ gpa.toNat))
      b.slots = partitionPoint (fun s : UInt64 × UInt64 => decide (s.1.toNat ≤ gpa.toNat))
        (layout b.slots) := by
    intro b
    unfold partitionPoint layout
    rw [BinarySearch.binarySearchBy_map]
    rfl
  have hget : ∀ i : ℕ, (bus.slots[i]?).map MmioSlot.area = (bus'.slots[i]?).map MmioSlot.area := by
    intro i
    rw [← List.getElem?_map, ← List.getElem?_map]
    exact congrArg (·[i]?) h
  unfold findIdx
  rw [hpoint bus, hpoint bus', h]
  cases partitionPoint (fun s : UInt64 × UInt64 => decide (s.1.toNat ≤ gpa.toNat))
    (layout bus'.slots) with
  | zero => rfl
  | succ i =>
    have hi := hget i
    dsimp only
    cases hs : bus.slots[i]? with
    | none =>
      rw [hs, Option.map_none] at hi
      rw [Option.map_eq_none_iff.1 hi.symm]
    | some s =>
      rw [hs, Option.map_some] at hi
      obtain ⟨s', hs', heq⟩ := Option.map_eq_some_iff.1 hi.symm
      obtain ⟨hbase, hsize⟩ := Prod.mk.inj heq
      rw [hs']
      dsimp only
      rw [hbase, hsize]

/-- Slots that come in order are registered in place. -/
theorem registerAll_of_below (checked : Bool) {regs : List (MmioSlot δ)}
    (hbelow : regs.Pairwise fun s t => s.hi ≤ t.lo) (hfit : ∀ s ∈ regs, Fits s) :
    registerAll checked regs = .ok { slots := regs } := by
  induction regs using List.reverseRecOn with
  | nil => rfl
  | append_singleton regs r ih =>
    obtain ⟨hregs, -, hlast⟩ := List.pairwise_append.1 hbelow
    rw [registerAll_append]
    refine ⟨{ slots := regs }, ih hregs fun s hs => hfit s (List.mem_append_left _ hs), ?_⟩
    exact register_above checked (hfit r (by simp))
      (hregs.imp fun hst => le_trans (Nat.le_add_right _ _) hst)
      fun t ht => hlast t ht r (List.mem_singleton_self r)

/-- A bus on which every address goes to the slot that contains it. -/
structure Routes (checked : Bool) (bus : MmioBus δ) : Prop where
  isOk : ∀ gpa, ∃ r, bus.findIdx checked gpa = .ok r
  iff : ∀ {gpa r}, bus.findIdx checked gpa = .ok r → ∀ {i s}, bus.slots[i]? = some s →
    (s.Contains gpa ↔ r = some i)
  lt : ∀ {gpa i}, bus.findIdx checked gpa = .ok (some i) → ∃ s, bus.slots[i]? = some s

theorem routes_of_registerAll {regs : List (MmioSlot δ)} {bus : MmioBus δ}
    (h : registerAll checked regs = .ok bus) (hfit : ∀ s ∈ regs, Fits s)
    (hempty : ¬EmptyOnBase regs) : Routes checked bus := by
  have hl := registerAll_laid h hfit
  have hh := registerAll_not_hides h hfit hempty
  have hfit' : ∀ s ∈ bus.slots, Fits s := fun s hs =>
    hfit s ((registerAll_slots h).1.mem_iff.1 hs)
  -- the last slot at or below the address is the only one that can contain it
  have key : ∀ gpa : UInt64,
      (bus.findIdx checked gpa = .ok none ∧ ∀ s ∈ bus.slots, ¬s.Contains gpa) ∨
      ∃ i t, bus.slots[i]? = some t ∧ (∀ j s, bus.slots[j]? = some s → s.Contains gpa → j = i) ∧
        bus.findIdx checked gpa = .ok (if t.Contains gpa then some i else none) := by
    intro gpa
    unfold findIdx
    rcases partitionPoint_lastBelow hl.sorted gpa.toNat with ⟨h0, hall⟩ | ⟨i, hi, hlast⟩
    · refine Or.inl ⟨by rw [h0], fun s hs hc => ?_⟩
      have hlt := hall s hs
      exact absurd hc.1 (Nat.not_le.2 hlt)
    · obtain ⟨t, ht, hle⟩ := hlast.1
      obtain ⟨hadd, hval⟩ := addU64_of_lt checked (hfit' t (List.mem_of_getElem? ht))
      refine Or.inr ⟨i, t, ht, fun j s hj hc => ?_, ?_⟩
      · exact (hl.lastBelow_of_holds hh hj hc).unique hlast
      · have hcontains : t.Contains gpa ↔ gpa < t.base + t.size := by
          rw [UInt64.lt_iff_toNat_lt, hval]
          exact and_iff_right hle
        rw [hi]
        simp only [ht, hadd, bind, Except.bind]
        by_cases hlt : gpa < t.base + t.size
        · rw [if_pos hlt, if_pos (hcontains.2 hlt)]
        · rw [if_neg hlt, if_neg fun hc => hlt (hcontains.1 hc)]
  refine ⟨fun gpa => ?_, fun {gpa r} hr i s hs => ?_, fun {gpa i} hr => ?_⟩
  · rcases key gpa with ⟨hnone, -⟩ | ⟨i, t, -, -, hsome⟩
    · exact ⟨_, hnone⟩
    · exact ⟨_, hsome⟩
  · rcases key gpa with ⟨hnone, hall⟩ | ⟨j, t, ht, huniq, hsome⟩
    · obtain rfl := Except.ok.inj (hr.symm.trans hnone)
      exact ⟨fun hc => absurd hc (hall s (List.mem_of_getElem? hs)), fun h => by cases h⟩
    · obtain rfl := Except.ok.inj (hr.symm.trans hsome)
      constructor
      · intro hc
        obtain rfl := huniq i s hs hc
        obtain rfl := Option.some.inj (hs.symm.trans ht)
        rw [if_pos hc]
      · intro hi
        split_ifs at hi with hc
        obtain rfl := Option.some.inj hi
        obtain rfl := Option.some.inj (hs.symm.trans ht)
        exact hc
  · rcases key gpa with ⟨hnone, -⟩ | ⟨j, t, ht, -, hsome⟩
    · cases hr.symm.trans hnone
    · have hi := Except.ok.inj (hr.symm.trans hsome)
      split_ifs at hi
      obtain rfl := Option.some.inj hi
      exact ⟨t, ht⟩

end MmioBus

/-! ### Isolation -/

theorem MmioSlot.contains_of_area {δ ε : Type} {s : MmioSlot δ} {t : MmioSlot ε}
    (h : s.area = t.area) (gpa : UInt64) : s.Contains gpa ↔ t.Contains gpa := by
  obtain ⟨hbase, hsize⟩ := Prod.mk.inj h
  unfold MmioSlot.Contains Holds MmioSlot.lo MmioSlot.hi
  rw [hbase, hsize]

namespace SharedBus

variable {D M : Type} [VirtioBackend D M]

/-- Every transport has seen the accesses to its window. -/
structure Isolated (fuel : ℕ) (slots₀ : List (MmioSlot (VirtioMmioTransport D M)))
    (events : List (BusEvent D M)) (s : SharedBus D M) : Prop where
  layout : MmioBus.layout s.bus.slots = MmioBus.layout slots₀
  seen : ∀ {i : ℕ} {slot₀ slot : MmioSlot (VirtioMmioTransport D M)}, slots₀[i]? = some slot₀ →
    s.bus.slots[i]? = some slot →
    Sees fuel slot₀.device (events.filterMap (slot₀.window i)) (slot.device.onMem s.mem)

section Steps

variable {checked : Bool} {fuel : ℕ} {slots₀ : List (MmioSlot (VirtioMmioTransport D M))}
  {events : List (BusEvent D M)} {s s' : SharedBus D M}

theorem Isolated.area_eq (h : Isolated fuel slots₀ events s) {i : ℕ}
    {slot₀ slot : MmioSlot (VirtioMmioTransport D M)} (h₀ : slots₀[i]? = some slot₀)
    (hs : s.bus.slots[i]? = some slot) : slot.area = slot₀.area := by
  have hi := congrArg (·[i]?) h.layout
  simp only [MmioBus.layout, List.getElem?_map, h₀, hs, Option.map_some] at hi
  exact Option.some.inj hi

omit [VirtioBackend D M] in
/-- An event that is no access of the guest to a window. -/
theorem filterMap_window_none {i : ℕ} {slot₀ : MmioSlot (VirtioMmioTransport D M)}
    {event : BusEvent D M} (h : slot₀.window i event = none) :
    (events ++ [event]).filterMap (slot₀.window i) = events.filterMap (slot₀.window i) := by
  rw [List.filterMap_append, List.filterMap_cons_none h, List.filterMap_nil, List.append_nil]

/-- An access of the guest that no slot contains. -/
theorem Isolated.miss (h : Isolated fuel slots₀ events s) {gpa : UInt64} {event : BusEvent D M}
    (access : UInt64 → Access D M)
    (hwindow : ∀ i (slot : MmioSlot (VirtioMmioTransport D M)), slot.window i event =
      if slot.Contains gpa then some (access (gpa - slot.base)) else none)
    (hnone : ∀ {i : ℕ} {slot : MmioSlot (VirtioMmioTransport D M)}, s.bus.slots[i]? = some slot →
      ¬slot.Contains gpa) :
    Isolated fuel slots₀ (events ++ [event]) s := by
  refine ⟨h.layout, fun {i slot₀ slot} h₀ hs => ?_⟩
  have hcontains := MmioSlot.contains_of_area (h.area_eq h₀ hs) gpa
  rw [filterMap_window_none (by rw [hwindow, if_neg fun hc => hnone hs (hcontains.2 hc)])]
  exact h.seen h₀ hs

/-- An access of the guest to the slot `i`: its transport sees it, the others see memory change. -/
theorem Isolated.hit (h : Isolated fuel slots₀ events s) {gpa : UInt64} {event : BusEvent D M}
    (access : UInt64 → Access D M) {i : ℕ} {slot : MmioSlot (VirtioMmioTransport D M)}
    {t : VirtioMmioTransport D M}
    (hwindow : ∀ i (slot : MmioSlot (VirtioMmioTransport D M)), slot.window i event =
      if slot.Contains gpa then some (access (gpa - slot.base)) else none)
    (hslot : s.bus.slots[i]? = some slot)
    (hroute : ∀ {j : ℕ} {slot : MmioSlot (VirtioMmioTransport D M)}, s.bus.slots[j]? = some slot →
      (slot.Contains gpa ↔ j = i))
    (ht : (slot.device.onMem s.mem).step fuel (access (gpa - slot.base)) = some t) :
    Isolated fuel slots₀ (events ++ [event]) (s.put i t) := by
  have hget : ∀ j, (s.put i t).bus.slots[j]? =
      (s.bus.slots[j]?).map fun slot => if i = j then { slot with device := t } else slot := by
    intro j
    exact List.getElem?_modify ..
  refine ⟨?_, fun {j slot₀ slot'} h₀ hs' => ?_⟩
  · rw [← h.layout]
    refine List.ext_getElem? fun j => ?_
    simp only [MmioBus.layout, List.getElem?_map, hget, Option.map_map]
    refine congrArg (fun f => Option.map f s.bus.slots[j]?) (funext fun slot => ?_)
    by_cases hj : i = j
    · simp [hj, MmioSlot.area]
    · simp [hj]
  · rw [hget] at hs'
    obtain ⟨slot'', hs, rfl⟩ := Option.map_eq_some_iff.1 hs'
    have harea := h.area_eq h₀ hs
    have hcontains := (MmioSlot.contains_of_area harea gpa).symm.trans (hroute hs)
    have hseen := h.seen h₀ hs
    by_cases hj : i = j
    · subst hj
      obtain rfl := Option.some.inj (hslot.symm.trans hs)
      have hbase : slot.base = slot₀.base := (Prod.mk.inj harea).1
      have hwin := hwindow i slot₀
      rw [if_pos (hcontains.2 rfl), ← hbase] at hwin
      rw [if_pos rfl, List.filterMap_append, List.filterMap_cons_some hwin, List.filterMap_nil]
      exact hseen.access ht
    · have hwin := hwindow j slot₀
      rw [if_neg fun hc => hj (hcontains.1 hc).symm] at hwin
      rw [if_neg hj, filterMap_window_none hwin]
      exact hseen.onMem t.mem

/-- What polls and changes of memory keep of every transport, a poll of the bus keeps. -/
theorem pollLoop_keeps (P : ℕ → VirtioMmioTransport D M → Prop)
    (hpoll : ∀ i t, P i t → P i t.pollRx.2) (hmem : ∀ i t mem, P i t → P i (t.onMem mem))
    (slots : List (MmioSlot (VirtioMmioTransport D M))) (mem : M)
    (h : ∀ i slot, slots[i]? = some slot → P i (slot.device.onMem mem)) :
    MmioBus.layout (pollLoop mem slots).2.2 = MmioBus.layout slots ∧
      ∀ i slot, (pollLoop mem slots).2.2[i]? = some slot →
        P i (slot.device.onMem (pollLoop mem slots).2.1) := by
  induction slots generalizing mem P with
  | nil => exact ⟨rfl, h⟩
  | cons slot rest ih =>
    have hhead := hpoll 0 _ (h 0 slot rfl)
    unfold pollLoop
    rcases hp : (slot.device.onMem mem).pollRx with ⟨irq, t⟩
    rw [hp] at hhead
    have hrest : ∀ i slot, rest[i]? = some slot → P (i + 1) (slot.device.onMem t.mem) :=
      fun i slot hslot => hmem (i + 1) (slot.device.onMem mem) t.mem (h (i + 1) slot hslot)
    cases irq with
    | some irq =>
      refine ⟨rfl, fun i slot' hslot' => ?_⟩
      cases i with
      | zero =>
        cases hslot'
        exact hhead
      | succ i => exact hrest i slot' hslot'
    | none =>
      obtain ⟨hlayout, hkeeps⟩ := ih (fun i => P (i + 1)) (fun i => hpoll (i + 1))
        (fun i => hmem (i + 1)) t.mem hrest
      refine ⟨congrArg (List.cons slot.area) hlayout, fun i slot' hslot' => ?_⟩
      cases i with
      | zero =>
        cases hslot'
        exact hmem 0 t _ hhead
      | succ i => exact hkeeps i slot' hslot'

theorem Isolated.poll (h : Isolated fuel slots₀ events s) :
    Isolated fuel slots₀ (events ++ [.poll]) s.pollDevices.2 := by
  obtain ⟨hlayout, hkeeps⟩ := pollLoop_keeps
    (fun i t => ∀ slot₀, slots₀[i]? = some slot₀ →
      Sees fuel slot₀.device (events.filterMap (slot₀.window i)) t)
    (fun i t ht slot₀ h₀ => (ht slot₀ h₀).pollRx)
    (fun i t mem ht slot₀ h₀ => (ht slot₀ h₀).onMem mem) s.bus.slots s.mem
    (fun i slot hs slot₀ h₀ => h.seen h₀ hs)
  refine ⟨hlayout.trans h.layout, fun {i slot₀ slot} h₀ hs => ?_⟩
  rw [filterMap_window_none rfl]
  exact hkeeps i slot hs slot₀ h₀

theorem Isolated.outside (h : Isolated fuel slots₀ events s) (i : ℕ) (device : D) (mem : M) :
    Isolated fuel slots₀ (events ++ [.outside i device mem]) (s.setBackend i device mem) := by
  have hget : ∀ j, (s.setBackend i device mem).bus.slots[j]? = (s.bus.slots[j]?).map fun slot =>
      if i = j then { slot with device := { slot.device with device } } else slot := by
    intro j
    exact List.getElem?_modify ..
  refine ⟨?_, fun {j slot₀ slot'} h₀ hs' => ?_⟩
  · rw [← h.layout]
    refine List.ext_getElem? fun j => ?_
    simp only [MmioBus.layout, List.getElem?_map, hget, Option.map_map]
    refine congrArg (fun f => Option.map f s.bus.slots[j]?) (funext fun slot => ?_)
    by_cases hj : i = j
    · simp [hj, MmioSlot.area]
    · simp [hj]
  · rw [hget] at hs'
    obtain ⟨slot, hs, rfl⟩ := Option.map_eq_some_iff.1 hs'
    have hseen := h.seen h₀ hs
    by_cases hj : i = j
    · have hwin : slot₀.window j (.outside i device mem) = some (.outside device mem) := if_pos hj
      rw [if_pos hj, List.filterMap_append, List.filterMap_cons_some hwin, List.filterMap_nil]
      exact hseen.access (a := .outside device mem) rfl
    · have hwin : slot₀.window j (.outside i device mem) = none := if_neg hj
      rw [if_neg hj, filterMap_window_none hwin]
      exact hseen.onMem mem

end Steps

section Runs

variable {checked : Bool} {fuel : ℕ} {bus₀ : MmioBus (VirtioMmioTransport D M)}
  {events : List (BusEvent D M)} {s s' : SharedBus D M}

/-- The bus still routes as it did at the start. -/
theorem Isolated.routes (h : Isolated fuel bus₀.slots events s)
    (hroutes : MmioBus.Routes checked bus₀) : MmioBus.Routes checked s.bus := by
  have hidx : ∀ gpa, s.bus.findIdx checked gpa = bus₀.findIdx checked gpa :=
    MmioBus.findIdx_congr h.layout
  have hlen : s.bus.slots.length = bus₀.slots.length := by
    simpa only [MmioBus.layout, List.length_map] using congrArg List.length h.layout
  refine ⟨fun gpa => ?_, fun {gpa r} hr i slot hslot => ?_, fun {gpa i} hi => ?_⟩
  · rw [hidx]
    exact hroutes.isOk gpa
  · have hlt : i < bus₀.slots.length := hlen ▸ (List.getElem?_eq_some_iff.1 hslot).1
    have h₀ := List.getElem?_eq_getElem hlt
    rw [hidx] at hr
    rw [MmioSlot.contains_of_area (h.area_eq h₀ hslot)]
    exact hroutes.iff hr h₀
  · rw [hidx] at hi
    obtain ⟨slot₀, h₀⟩ := hroutes.lt hi
    have hlt : i < s.bus.slots.length := hlen.symm ▸ (List.getElem?_eq_some_iff.1 h₀).1
    exact ⟨_, List.getElem?_eq_getElem hlt⟩

/-- A guest read on a bus that routes. -/
theorem read_cases (hroutes : MmioBus.Routes checked s.bus) (gpa : UInt64) (data : List UInt8) :
    ((∀ slot ∈ s.bus.slots, ¬slot.Contains gpa) ∧
      s.read checked gpa data = .ok (data.map fun _ => 0xFF, s)) ∨
    ∃ i slot, s.bus.slots[i]? = some slot ∧ slot.Contains gpa ∧
      (∀ {j : ℕ} {slot : MmioSlot (VirtioMmioTransport D M)}, s.bus.slots[j]? = some slot →
        (slot.Contains gpa ↔ j = i)) ∧
      s.read checked gpa data =
        .ok (((slot.device.onMem s.mem).mmioRead (gpa - slot.base) data).1,
          s.put i ((slot.device.onMem s.mem).mmioRead (gpa - slot.base) data).2) := by
  obtain ⟨r, hr⟩ := hroutes.isOk gpa
  cases r with
  | none =>
    refine Or.inl ⟨fun slot hslot hc => ?_, by simp only [read, hr, bind, Except.bind]⟩
    obtain ⟨i, hi⟩ := List.mem_iff_getElem?.1 hslot
    cases (hroutes.iff hr hi).1 hc
  | some i =>
    obtain ⟨slot, hslot⟩ := hroutes.lt hr
    refine Or.inr ⟨i, slot, hslot, (hroutes.iff hr hslot).2 rfl, fun {j slot'} hs => ?_, ?_⟩
    · rw [hroutes.iff hr hs, Option.some.injEq, eq_comm]
    · simp only [read, hr, hslot, bind, Except.bind]

variable (fuel) in
/-- A guest write on a bus that routes. -/
theorem write_cases (hroutes : MmioBus.Routes checked s.bus) (gpa : UInt64) (data : List UInt8) :
    ((∀ slot ∈ s.bus.slots, ¬slot.Contains gpa) ∧
      s.write checked fuel gpa data = .ok (some (none, s))) ∨
    ∃ i slot, s.bus.slots[i]? = some slot ∧ slot.Contains gpa ∧
      (∀ {j : ℕ} {slot : MmioSlot (VirtioMmioTransport D M)}, s.bus.slots[j]? = some slot →
        (slot.Contains gpa ↔ j = i)) ∧
      s.write checked fuel gpa data =
        .ok (((slot.device.onMem s.mem).mmioWrite fuel (gpa - slot.base) data).map fun r =>
          (r.1, s.put i r.2)) := by
  obtain ⟨r, hr⟩ := hroutes.isOk gpa
  cases r with
  | none =>
    refine Or.inl ⟨fun slot hslot hc => ?_, by simp only [write, hr, bind, Except.bind]⟩
    obtain ⟨i, hi⟩ := List.mem_iff_getElem?.1 hslot
    cases (hroutes.iff hr hi).1 hc
  | some i =>
    obtain ⟨slot, hslot⟩ := hroutes.lt hr
    refine Or.inr ⟨i, slot, hslot, (hroutes.iff hr hslot).2 rfl, fun {j slot'} hs => ?_, ?_⟩
    · rw [hroutes.iff hr hs, Option.some.injEq, eq_comm]
    · simp only [write, hr, hslot, bind, Except.bind]

theorem Isolated.step (h : Isolated fuel bus₀.slots events s)
    (hroutes : MmioBus.Routes checked bus₀) {event : BusEvent D M}
    (hstep : s.step checked fuel event = some s') :
    Isolated fuel bus₀.slots (events ++ [event]) s' := by
  have hroutes' := h.routes hroutes
  cases event with
  | read gpa data =>
    rcases read_cases hroutes' gpa data with ⟨hnone, hread⟩ | ⟨i, slot, hslot, -, hroute, hread⟩
    · rw [SharedBus.step, hread] at hstep
      obtain rfl := Option.some.inj hstep
      exact h.miss (.read · data) (fun _ slot => rfl) fun hs => hnone _ (List.mem_of_getElem? hs)
    · rw [SharedBus.step, hread] at hstep
      obtain rfl := Option.some.inj hstep
      exact h.hit (.read · data) (fun _ slot => rfl) hslot hroute rfl
  | write gpa data =>
    rcases write_cases fuel hroutes' gpa data with
      ⟨hnone, hwrite⟩ | ⟨i, slot, hslot, -, hroute, hwrite⟩
    · rw [SharedBus.step, hwrite] at hstep
      obtain rfl := Option.some.inj hstep
      exact h.miss (.write · data) (fun _ slot => rfl) fun hs => hnone _ (List.mem_of_getElem? hs)
    · rw [SharedBus.step, hwrite] at hstep
      obtain ⟨out, hmap, rfl⟩ := Option.map_eq_some_iff.1 hstep
      obtain ⟨r, hr, rfl⟩ := Option.map_eq_some_iff.1 hmap
      refine h.hit (.write · data) (fun _ slot => rfl) hslot hroute ?_
      show ((slot.device.onMem s.mem).mmioWrite fuel (gpa - slot.base) data).map Prod.snd = _
      rw [hr, Option.map_some]
  | poll =>
    obtain rfl := Option.some.inj hstep
    exact h.poll
  | outside i device mem =>
    obtain rfl := Option.some.inj hstep
    exact h.outside i device mem

theorem isolated_of_run (hroutes : MmioBus.Routes checked bus₀) {mem₀ : M}
    (hrun : SharedBus.run checked fuel ⟨bus₀, mem₀⟩ events = some s) :
    Isolated fuel bus₀.slots events s := by
  induction events using List.reverseRecOn generalizing s with
  | nil =>
    obtain rfl := Option.some.inj hrun
    refine ⟨rfl, fun {i slot₀ slot} h₀ hs => ?_⟩
    obtain rfl := Option.some.inj (h₀.symm.trans hs)
    exact Sees.start.onMem mem₀
  | append_singleton events event ih =>
    rw [SharedBus.run, List.foldlM_append] at hrun
    obtain ⟨s₁, hs₁, hlast⟩ := Option.bind_eq_some_iff.1 hrun
    have hstep : s₁.step checked fuel event = some s := by
      simpa only [List.foldlM_cons, List.foldlM_nil, bind_pure] using hlast
    exact (ih hs₁).step hroutes hstep

end Runs

end SharedBus

/-- Whatever happens on the bus, every registered transport has seen the accesses to its own window
and the changes of its own device, in order, and nothing of the others but what they write to
memory; its queues are set up by its own register writes alone.  An access goes to the one window
it is in; outside the windows a read gives all ones and nothing changes. -/
theorem devices_isolated {D M : Type} [VirtioBackend D M] (checked : Bool) (fuel : ℕ)
    {regs : List (MmioSlot (VirtioMmioTransport D M))} {bus : MmioBus (VirtioMmioTransport D M)}
    {mem₀ : M} {events : List (BusEvent D M)} {s : SharedBus D M}
    (hreg : MmioBus.registerAll checked regs = .ok bus) (hfit : ∀ slot ∈ regs, MmioBus.Fits slot)
    (hempty : ¬MmioBus.EmptyOnBase regs)
    (hrun : SharedBus.run checked fuel ⟨bus, mem₀⟩ events = some s) :
    (∀ slot₀ ∈ regs, ∃ i slot, bus.slots[i]? = some slot₀ ∧ s.bus.slots[i]? = some slot ∧
      slot.area = slot₀.area ∧
      Sees fuel slot₀.device (events.filterMap (slot₀.window i)) (slot.device.onMem s.mem) ∧
      ∀ device mem irqVector, slot₀.device = new device mem irqVector →
        ∀ j qs, slot.device.queues[j]? = some qs →
          qs.config = QueueConfig.ofLog (queueLog (VirtioBackend.queueCount M device) j
            (writes (events.filterMap (slot₀.window i))))) ∧
    ∀ gpa data,
      ((∀ slot ∈ s.bus.slots, ¬slot.Contains gpa) ∧
        s.read checked gpa data = .ok (data.map fun _ => 0xFF, s) ∧
        s.write checked fuel gpa data = .ok (some (none, s))) ∨
      ∃ i slot, s.bus.slots[i]? = some slot ∧ slot.Contains gpa ∧
        (∀ j slot', s.bus.slots[j]? = some slot' → slot'.Contains gpa → j = i) ∧
        s.read checked gpa data =
          .ok (((slot.device.onMem s.mem).mmioRead (gpa - slot.base) data).1,
            s.put i ((slot.device.onMem s.mem).mmioRead (gpa - slot.base) data).2) ∧
        s.write checked fuel gpa data =
          .ok (((slot.device.onMem s.mem).mmioWrite fuel (gpa - slot.base) data).map fun r =>
            (r.1, s.put i r.2)) := by
  have hroutes := MmioBus.routes_of_registerAll hreg hfit hempty
  have hs := SharedBus.isolated_of_run hroutes hrun
  refine ⟨fun slot₀ hslot₀ => ?_, fun gpa data => ?_⟩
  · obtain ⟨i, h₀⟩ := List.mem_iff_getElem?.1 ((MmioBus.registerAll_slots hreg).1.mem_iff.2 hslot₀)
    have hlen : s.bus.slots.length = bus.slots.length := by
      simpa only [MmioBus.layout, List.length_map] using congrArg List.length hs.layout
    have hlt : i < s.bus.slots.length := hlen.symm ▸ (List.getElem?_eq_some_iff.1 h₀).1
    have hslot := List.getElem?_eq_getElem hlt
    have hsees := hs.seen h₀ hslot
    refine ⟨i, _, h₀, hslot, hs.area_eq h₀ hslot, hsees, ?_⟩
    intro device mem irqVector hnew j qs hqs
    obtain ⟨trace, htrace, hwrites⟩ := hsees.run
    rw [hnew] at htrace
    rw [← hwrites]
    exact (projected_of_run htrace).config j qs.config
      (by show (s.bus.slots[i].device.queues.map QueueState.config)[j]? = _
          rw [List.getElem?_map, hqs, Option.map_some])
  · have hroutes' := hs.routes hroutes
    rcases SharedBus.read_cases hroutes' gpa data with ⟨hnone, hread⟩ | ⟨i, slot, hi, hc, hj, hread⟩
    · rcases SharedBus.write_cases fuel hroutes' gpa data with ⟨-, hwrite⟩ | ⟨i, slot, hi, hc, -⟩
      · exact Or.inl ⟨hnone, hread, hwrite⟩
      · exact absurd hc (hnone slot (List.mem_of_getElem? hi))
    · rcases SharedBus.write_cases fuel hroutes' gpa data with
        ⟨hnone, -⟩ | ⟨i', slot', hi', hc', hj', hwrite⟩
      · exact absurd hc (hnone slot (List.mem_of_getElem? hi))
      · obtain rfl := (hj hi').1 hc'
        obtain rfl := Option.some.inj (hi.symm.trans hi')
        exact Or.inr ⟨i', slot, hi, hc, fun j slot' hs' hc' => (hj hs').1 hc', hread, hwrite⟩

/-- A guest with an empty disk, a network device and the socket device. -/
def guestSlots : List (MmioSlot (VirtioMmioTransport GuestDevice Vmm.MappedMemory)) :=
  [⟨0xD0000000, 0x1000, new (.block (.new { data := [] } (by decide))) zeroMemory 5⟩,
    ⟨0xD0001000, 0x1000, new (.net { mac := [0x02, 0, 0, 0, 0, 1] }) zeroMemory 6⟩,
    ⟨0xD0002000, 0x1000, new (.vsock socketDevice) zeroMemory 7⟩]

/-- The guest sets up the queues of two devices by turns. -/
def guestEvents : List (BusEvent GuestDevice Vmm.MappedMemory) :=
  [.write 0xD0002030 [1], .write 0xD0001030 [0], .write 0xD0001038 [4], .write 0xD0002038 [8],
    .poll, .write 0xD0001044 [1], .outside 2 (.vsock socketDevice) zeroMemory,
    .read 0xD0000000 [0, 0, 0, 0], .write 0xD0002044 [1], .write 0xD0003000 [1]]

theorem devices_isolated_guest :
    ∃ s slot, SharedBus.run true 1 ⟨⟨guestSlots⟩, zeroMemory⟩ guestEvents = some s ∧
      s.bus.slots[2]? = some slot ∧
      ∀ qs, slot.device.queues[1]? = some qs → qs.config.num = 8 ∧ qs.config.ready = true := by
  obtain ⟨s, hs⟩ := Option.isSome_iff_exists.1 (by decide +kernel :
    (SharedBus.run true 1 ⟨⟨guestSlots⟩, zeroMemory⟩ guestEvents).isSome)
  have hfit : ∀ slot ∈ guestSlots, slot.hi < 2 ^ 64 := by decide +kernel
  have hempty : ¬MmioBus.EmptyOnBase guestSlots := by
    unfold MmioBus.EmptyOnBase
    decide +kernel
  obtain ⟨i, slot, h₀, hslot, -, -, hqueues⟩ := (devices_isolated true 1
    (MmioBus.registerAll_of_below true (by decide +kernel) hfit) hfit hempty hs).1
    guestSlots[2] (List.getElem_mem _)
  have hbase : (guestSlots[i]?).map MmioSlot.base = some 0xD0002000 :=
    congrArg (Option.map MmioSlot.base) h₀
  have hi : i = 2 := by
    have hlt : i < 3 := (List.getElem?_eq_some_iff.1 h₀).1
    revert hbase
    clear h₀ hslot hqueues
    revert i
    decide +kernel
  subst hi
  refine ⟨s, slot, hs, hslot, fun qs hqs => ?_⟩
  rw [hqueues (.vsock socketDevice) zeroMemory 7 rfl 1 qs hqs]
  decide +kernel

end Hitz.Devices

import Hitz.Vmm.RunLoop

/-!
# Delivery of device interrupts

A vector that the devices raise is either written to the pending-interruption register at once or
held in `pendingIrq` until the guest can take it.  Each of the two has room for one vector.

`IrqView` is the part of the loop's state that delivery depends on, and `IrqView.Turn` what one
turn of the loop can do to it.  A vector is lost only when an injection overwrites it in the
register, or a refused one overwrites it in `pendingIrq`; `Injection.Safe` says that neither
happens.
-/

namespace Hitz.Vmm

open Hal Whp

/-! ### Vectors the guest is owed -/

/-- `v` was raised and has not been taken since. -/
def Owed (events : List IrqEvent) (v : UInt8) : Prop :=
  ∃ l r, events = l ++ .raised v :: r ∧ .consumed v ∉ r

theorem not_owed_nil (v : UInt8) : ¬ Owed [] v := by
  rintro ⟨l, r, h, -⟩
  simp at h

/-- Raising a vector adds only this one to what is owed. -/
theorem owed_raise {events : List IrqEvent} {v w : UInt8}
    (h : Owed (events ++ [.raised w]) v) : v = w ∨ Owed events v := by
  obtain ⟨l, r, h, hr⟩ := h
  rcases List.eq_nil_or_concat r with rfl | ⟨r, x, rfl⟩
  · obtain ⟨-, h⟩ := List.append_inj' h rfl
    simp only [List.cons.injEq, IrqEvent.raised.injEq, and_true] at h
    exact Or.inl h.symm
  · rw [List.concat_eq_append, ← List.cons_append, ← List.append_assoc] at h
    obtain ⟨h, -⟩ := List.append_inj' h rfl
    exact Or.inr ⟨l, r, h, fun hmem => hr (by simp [hmem])⟩

/-- A vector the guest takes is no longer owed. -/
theorem owed_consume {events : List IrqEvent} {v w : UInt8}
    (h : Owed (events ++ [.consumed w]) v) : v ≠ w ∧ Owed events v := by
  obtain ⟨l, r, h, hr⟩ := h
  rcases List.eq_nil_or_concat r with rfl | ⟨r, x, rfl⟩
  · obtain ⟨-, h⟩ := List.append_inj' h rfl
    simp at h
  · rw [List.concat_eq_append, ← List.cons_append, ← List.append_assoc] at h
    obtain ⟨hl, hx⟩ := List.append_inj' h rfl
    obtain rfl : x = .consumed w := by simpa using hx.symm
    refine ⟨?_, l, r, hl, fun hmem => hr (by simp [hmem])⟩
    rintro rfl
    exact hr (by simp)

/-! ### The interrupt state of the loop -/

/-- What the delivery of interrupts depends on. -/
structure IrqView where
  register : Option UInt8
  window : Bool
  held : Option UInt8
  events : List IrqEvent
  injections : List Injection

/-- The interrupt state of the loop. -/
def VmState.irqView {D : Type} (s : VmState D) : IrqView where
  register := s.vcpu.pendingInterruption
  window := s.vcpu.windowRequested
  held := s.pendingIrq
  events := s.events
  injections := s.injections

namespace IrqView

/-- The devices raise a vector, or none. -/
def raise (i : IrqView) (irq : Option UInt8) : IrqView :=
  { i with events := i.events ++ irq.toList.map IrqEvent.raised }

/-- A vector is written to the register. -/
def inject (i : IrqView) (v : UInt8) : IrqView :=
  { i with register := some v, injections := i.injections ++ [⟨v, true, i.register, i.held⟩] }

/-- A refused vector is held, and a window requested. -/
def defer (i : IrqView) (v : UInt8) : IrqView :=
  { i with
    held := some v
    window := true
    injections := i.injections ++ [⟨v, false, i.register, i.held⟩] }

/-- The guest takes the register; `fired` when the exit is the requested window. -/
def take (i : IrqView) (fired : Bool) : IrqView :=
  { i with
    register := none
    window := i.window && !fired
    events := i.events ++ i.register.toList.map IrqEvent.consumed }

/-- An answer of the devices, and what the loop makes of it. -/
inductive Deliver (i : IrqView) : IrqView → Prop
  | quiet : Deliver i i
  | inject (v : UInt8) : Deliver i ((i.raise (some v)).inject v)
  | defer (v : UInt8) : Deliver i ((i.raise (some v)).defer v)

/-- A run of the guest and the handling of its exit. -/
inductive Exit (i : IrqView) : IrqView → Prop
  | deliver {j : IrqView} (h : Deliver (i.take false) j) : Exit i j
  | canceled : Exit i { i.take false with window := true }
  | idleWindow (h : i.held = none) : Exit i (i.take true)
  | window (v : UInt8) (h : i.held = some v) : Exit i ({ i.take true with held := none }.inject v)

/-- A turn of the loop: a poll of the devices, a run and its exit. -/
def Turn (i k : IrqView) : Prop := ∃ j, Deliver i j ∧ Exit j k

/-- The attempts to inject are only added to. -/
theorem Deliver.injections_subset {i j : IrqView} (h : Deliver i j) :
    i.injections ⊆ j.injections := by
  cases h with
  | quiet => exact fun _ h => h
  | inject v => exact List.subset_append_left ..
  | defer v => exact List.subset_append_left ..

theorem Exit.injections_subset {i j : IrqView} (h : Exit i j) : i.injections ⊆ j.injections := by
  cases h with
  | deliver h => exact h.injections_subset
  | canceled => exact fun _ h => h
  | idleWindow _ => exact fun _ h => h
  | window v _ => exact List.subset_append_left ..

theorem Turn.injections_subset {i k : IrqView} (h : Turn i k) : i.injections ⊆ k.injections := by
  obtain ⟨j, hd, he⟩ := h
  exact fun _ ha => he.injections_subset (hd.injections_subset ha)

end IrqView

/-! ### What the loop does to the interrupt state -/

section Refinement

variable {D : Type}

open IrqView

/-- A call that only changes the registers and the platform's call count. -/
theorem irqView_setRegs {s s' : VmState D} {regs : StandardRegs}
    (h : onVcpu (fun v => v.setRegs regs) s = (.ok (), s')) : s'.irqView = s.irqView := by
  obtain rfl := setRegs_eq_ok h
  rfl

theorem irqView_getRegs {s s' : VmState D} {regs : StandardRegs}
    (h : onVcpu WhpVcpu.getRegs s = (.ok regs, s')) : s'.irqView = s.irqView := by
  obtain ⟨-, rfl⟩ := getRegs_eq_ok h
  rfl

theorem irqView_advanceRip {len : ℕ} {s s' : VmState D} (h : advanceRip len s = (.ok (), s')) :
    s'.irqView = s.irqView := by
  obtain ⟨calls, rfl⟩ := advanceRip_eq_ok h
  rfl

theorem irqView_advanceRipWithRax {len : ℕ} {rax : UInt64} {s s' : VmState D}
    (h : advanceRipWithRax len rax s = (.ok (), s')) : s'.irqView = s.irqView := by
  obtain ⟨regs, t, hget, hset⟩ := Vm.bind_eq_ok h
  exact (irqView_setRegs hset).trans (irqView_getRegs hget)

theorem irqView_storeValue {decoded : DecodedMmio} {value : UInt64} {s s' : VmState D}
    (h : storeValue decoded s = (.ok value, s')) : s'.irqView = s.irqView := by
  unfold storeValue at h
  cases himm : decoded.immediate with
  | some imm =>
    rw [himm] at h
    cases h
    rfl
  | none =>
    rw [himm] at h
    obtain ⟨regs, t, hget, hpure⟩ := Vm.bind_eq_ok h
    cases hpure
    exact irqView_getRegs hget

/-- A vector the devices just raised is injected or deferred. -/
theorem irqView_injectOrDefer {v : UInt8} {i : IrqView} {s s' : VmState D}
    (hs : s.irqView = i.raise (some v)) (h : injectOrDefer v s = (.ok (), s')) :
    Deliver i s'.irqView := by
  rcases injectOrDefer_eq_ok h with rfl | rfl
  · have hview : (s.injected v).irqView = (i.raise (some v)).inject v := by
      rw [← hs]
      rfl
    exact hview ▸ Deliver.inject v
  · have hview : (s.deferred v).irqView = (i.raise (some v)).defer v := by
      rw [← hs]
      rfl
    exact hview ▸ Deliver.defer v

/-- The guest takes the pending interruption. -/
theorem irqView_runVcpu {exit : VcpuExit} {s s' : VmState D} (h : runVcpu s = (.ok exit, s')) :
    s'.irqView = s.irqView.take (exit == .interruptWindow) := by
  unfold runVcpu at h
  split at h
  · cases h
  · rename_i e vcpu hrun
    cases h
    unfold WhpVcpu.run at hrun
    obtain ⟨rfl, rfl⟩ := WhpVcpu.call_eq_ok hrun
    rfl

variable [DeviceBus D]

theorem irqView_pollDevices {s s' : VmState D} (h : pollDevices s = (.ok (), s')) :
    Deliver s.irqView s'.irqView := by
  obtain ⟨irq, t, hpoll, hrest⟩ := Vm.bind_eq_ok h
  obtain ⟨devices, rfl⟩ := busPoll_eq_ok hpoll
  cases irq with
  | none =>
    cases hrest
    have hview : s.irqView.raise none = s.irqView := by simp [raise]
    exact hview ▸ Deliver.quiet
  | some v => exact irqView_injectOrDefer rfl hrest

theorem irqView_handleMmioRead {mmio : MmioExit} {decoded : DecodedMmio} {len : ℕ}
    {s s' : VmState D} (h : handleMmioRead mmio decoded len s = (.ok (), s')) :
    s'.irqView = s.irqView := by
  obtain ⟨data, t, hread, h⟩ := Vm.bind_eq_ok h
  obtain ⟨regs, u, hget, hset⟩ := Vm.bind_eq_ok h
  have hbus : t.irqView = s.irqView := by
    unfold busRead at hread
    cases hread
    rfl
  exact (irqView_setRegs hset).trans ((irqView_getRegs hget).trans hbus)

theorem irqView_handleMmioWrite {mmio : MmioExit} {decoded : DecodedMmio} {len : ℕ}
    {s s' : VmState D} (h : handleMmioWrite mmio decoded len s = (.ok (), s')) :
    Deliver s.irqView s'.irqView := by
  obtain ⟨value, t, hvalue, h⟩ := Vm.bind_eq_ok h
  obtain ⟨irq, u, hwrite, h⟩ := Vm.bind_eq_ok h
  obtain ⟨_, w, hrip, hrest⟩ := Vm.bind_eq_ok h
  have hw : w.irqView = s.irqView.raise irq := by
    rw [irqView_advanceRip hrip, ← irqView_storeValue hvalue]
    obtain ⟨devices, rfl⟩ := busWrite_eq_ok hwrite
    rfl
  cases irq with
  | none =>
    cases hrest
    have hview : s.irqView.raise none = s.irqView := by simp [raise]
    rw [hw, hview]
    exact Deliver.quiet
  | some v => exact irqView_injectOrDefer hw hrest

theorem irqView_handleMmio {mmio : MmioExit} {s s' : VmState D}
    (h : handleMmio mmio s = (.ok (), s')) : Deliver s.irqView s'.irqView := by
  unfold handleMmio at h
  cases hd : decodeMmioInstruction
      (mmio.instructionBytes.toList.take mmio.instructionByteCount.toNat) with
  | none =>
    rw [hd] at h
    rw [irqView_advanceRip h]
    exact Deliver.quiet
  | some decoded =>
    rw [hd] at h
    dsimp only at h
    split at h
    · exact irqView_handleMmioWrite h
    · rw [irqView_handleMmioRead h]
      exact Deliver.quiet

theorem irqView_handleIoPort {io : IoPortExit} {s s' : VmState D}
    (h : handleIoPort io s = (.ok (), s')) : s'.irqView = s.irqView := by
  unfold handleIoPort at h
  split_ifs at h
  · obtain ⟨_, t, hserial, hrip⟩ := Vm.bind_eq_ok h
    cases hserial
    have hview := irqView_advanceRip hrip
    exact hview
  · obtain ⟨value, t, hserial, hrip⟩ := Vm.bind_eq_ok h
    cases hserial
    have hview := irqView_advanceRipWithRax hrip
    exact hview
  all_goals first | exact irqView_advanceRip h | exact irqView_advanceRipWithRax h

/-- A run whose exit does not end the loop. -/
theorem irqView_runExit {exit : VcpuExit} {s t s' : VmState D} (hrun : runVcpu s = (.ok exit, t))
    (h : dispatchExit exit t = (.ok none, s')) : Exit s.irqView s'.irqView := by
  have ht := irqView_runVcpu hrun
  cases exit with
  | ioPort io =>
    obtain ⟨_, u, hio, hpure⟩ := Vm.bind_eq_ok h
    cases hpure
    rw [irqView_handleIoPort hio, ht]
    exact Exit.deliver Deliver.quiet
  | halt => cases h
  | shutdown => cases h
  | mmio mmio =>
    obtain ⟨_, u, hmmio, hpure⟩ := Vm.bind_eq_ok h
    cases hpure
    have hd := irqView_handleMmio hmmio
    rw [ht] at hd
    exact Exit.deliver hd
  | interruptWindow =>
    have hheld : t.pendingIrq = s.pendingIrq := congrArg held ht
    unfold dispatchExit at h
    dsimp only at h
    cases hp : t.pendingIrq with
    | none =>
      rw [hp] at h
      cases h
      rw [ht]
      exact Exit.idleWindow (hheld.symm.trans hp)
    | some v =>
      rw [hp] at h
      obtain ⟨_, u, hset, h⟩ := Vm.bind_eq_ok h
      obtain ⟨r, w, htry, h⟩ := Vm.bind_eq_ok h
      cases hset
      rcases tryInject_eq_ok htry with ⟨rfl, rfl⟩ | ⟨e, rfl, rfl⟩
      · cases h
        have hview : (VmState.injected { t with pendingIrq := none } v).irqView =
            { s.irqView.take true with held := none }.inject v := by
          rw [show s.irqView.take true = t.irqView from ht.symm]
          rfl
        exact hview ▸ Exit.window v (hheld.symm.trans hp)
      · cases h
  | canceled =>
    unfold dispatchExit at h
    dsimp only at h
    split at h
    · obtain ⟨_, u, hreq, hpure⟩ := Vm.bind_eq_ok h
      cases hpure
      have hview : s'.irqView = { s.irqView.take false with window := true } := by
        rw [show s.irqView.take false = t.irqView from ht.symm, requestInterruptWindow_eq_ok hreq]
        rfl
      exact hview ▸ Exit.canceled
    · cases h
      rw [ht]
      exact Exit.deliver Deliver.quiet
  | unknown code => cases h

/-- A turn that goes on is a turn of the interrupt state. -/
theorem irqView_loopTurn {s s' : VmState D} (h : loopTurn s = (.ok none, s')) :
    Turn s.irqView s'.irqView := by
  unfold loopTurn at h
  dsimp only at h
  split at h
  · cases h
  · obtain ⟨_, t, hpoll, h⟩ := Vm.bind_eq_ok h
    obtain ⟨exit, u, hrun, hexit⟩ := Vm.bind_eq_ok h
    have hdeliver := irqView_pollDevices hpoll
    exact ⟨t.irqView, hdeliver, irqView_runExit hrun hexit⟩

end Refinement

/-! ### Nothing is lost unless it is overwritten -/

/-- An attempt to inject that overwrites nothing: when it succeeds, the register was free, held the
same vector, or held the vector that is deferred as well; when it is refused, the same for the
deferred vector. -/
def Injection.Safe (a : Injection) : Prop :=
  if a.ok then a.register = none ∨ a.register = some a.vector ∨ a.register = a.deferred
  else a.deferred = none ∨ a.deferred = some a.vector ∨ a.deferred = a.register

instance (a : Injection) : Decidable a.Safe :=
  inferInstanceAs (Decidable (ite ..))

namespace IrqView

/-- Every vector that is owed is in the register or held, and a window is requested while a vector
is held. -/
structure Kept (i : IrqView) : Prop where
  owed : ∀ v, Owed i.events v → i.register = some v ∨ i.held = some v
  window : i.held ≠ none → i.window = true

/-- What is still owed after the guest has taken the register is held. -/
theorem Kept.held_of_take {i : IrqView} (h : i.Kept) (fired : Bool) {v : UInt8}
    (hv : Owed (i.take fired).events v) : i.held = some v := by
  simp only [take] at hv
  cases hr : i.register with
  | none =>
    rw [hr] at hv
    rcases h.owed v (by simpa using hv) with hreg | hheld
    · exact absurd (hr.symm.trans hreg) (by simp)
    · exact hheld
  | some w =>
    rw [hr] at hv
    obtain ⟨hne, hv⟩ := owed_consume hv
    rcases h.owed v hv with hreg | hheld
    · exact absurd (Option.some.inj (hr.symm.trans hreg)).symm hne
    · exact hheld

theorem Kept.deliver {i j : IrqView} (hi : i.Kept) (h : Deliver i j)
    (hsafe : ∀ a ∈ j.injections, a.Safe) : j.Kept := by
  cases h with
  | quiet => exact hi
  | inject v =>
    -- the register is overwritten; what it held is `v` itself or is held as well
    have ha : i.register = none ∨ i.register = some v ∨ i.register = i.held :=
      hsafe ⟨v, true, i.register, i.held⟩ (List.mem_append_right _ (List.mem_singleton_self _))
    refine ⟨fun w hw => ?_, hi.window⟩
    rcases owed_raise hw with rfl | hw
    · exact Or.inl rfl
    rcases hi.owed w hw with hreg | hheld
    · rcases ha with h | h | h
      · exact absurd (h.symm.trans hreg) (by simp)
      · exact Or.inl (h.symm.trans hreg)
      · exact Or.inr (h.symm.trans hreg)
    · exact Or.inr hheld
  | defer v =>
    have ha : i.held = none ∨ i.held = some v ∨ i.held = i.register :=
      hsafe ⟨v, false, i.register, i.held⟩ (List.mem_append_right _ (List.mem_singleton_self _))
    refine ⟨fun w hw => ?_, fun _ => rfl⟩
    rcases owed_raise hw with rfl | hw
    · exact Or.inr rfl
    rcases hi.owed w hw with hreg | hheld
    · exact Or.inl hreg
    · rcases ha with h | h | h
      · exact absurd (h.symm.trans hheld) (by simp)
      · exact Or.inr (h.symm.trans hheld)
      · exact Or.inl (h.symm.trans hheld)

theorem Kept.exit {i j : IrqView} (hi : i.Kept) (h : Exit i j)
    (hsafe : ∀ a ∈ j.injections, a.Safe) : j.Kept := by
  have htake : (i.take false).Kept :=
    ⟨fun _ hv => Or.inr (hi.held_of_take false hv), fun hne => by simp [take, hi.window hne]⟩
  cases h with
  | deliver h => exact htake.deliver h hsafe
  | canceled => exact ⟨htake.owed, fun _ => rfl⟩
  | idleWindow hnone =>
    exact ⟨fun _ hv => Or.inr (hi.held_of_take true hv), fun hne => absurd hnone hne⟩
  | window v hv =>
    -- the held vector moves to the register, which the run has just emptied
    refine ⟨fun w hw => Or.inl ?_, fun hne => absurd rfl hne⟩
    exact hv.symm.trans (hi.held_of_take true hw)

theorem Kept.turn {i k : IrqView} (hi : i.Kept) (h : Turn i k)
    (hsafe : ∀ a ∈ k.injections, a.Safe) : k.Kept := by
  obtain ⟨j, hd, he⟩ := h
  have hj : j.Kept := hi.deliver hd fun a ha => hsafe a (he.injections_subset ha)
  exact hj.exit he hsafe

end IrqView

section Runs

variable {D : Type} [DeviceBus D]

theorem injections_subset_afterTurns {n : ℕ} {s s' : VmState D} (h : afterTurns n s = some s') :
    s.injections ⊆ s'.injections := by
  induction n generalizing s with
  | zero =>
    cases h
    exact fun _ h => h
  | succ n ih =>
    unfold afterTurns at h
    split at h
    · rename_i t ht
      exact fun _ ha => ih h ((irqView_loopTurn ht).injections_subset ha)
    · cases h

theorem kept_afterTurns {n : ℕ} {s s' : VmState D} (h : afterTurns n s = some s')
    (hs : s.irqView.Kept) (hsafe : ∀ a ∈ s'.injections, a.Safe) : s'.irqView.Kept := by
  induction n generalizing s with
  | zero =>
    cases h
    exact hs
  | succ n ih =>
    unfold afterTurns at h
    split at h
    · rename_i t ht
      refine ih h (hs.turn (irqView_loopTurn ht) fun a ha => ?_)
      exact hsafe a (injections_subset_afterTurns h ha)
    · cases h

/-- Every vector the devices have returned has been taken by the guest, or is in the
pending-interruption register, or is held with an interrupt window requested. -/
def NoneLost (s : VmState D) : Prop :=
  ∀ v, Owed s.events v → s.vcpu.pendingInterruption = some v ∨
    (s.pendingIrq = some v ∧ s.vcpu.windowRequested = true)

/-- In a run that overwrites no vector, at every turn that goes on, no vector is lost: for every
processor with its exits and failures, and every behaviour of the devices. -/
theorem no_interrupt_lost (vcpu : WhpVcpu) (devices : D) (stopFlag : ℕ → Bool) (n : ℕ)
    (s : VmState D) (hrun : afterTurns n { vcpu, devices, stopFlag } = some s)
    (hsafe : ∀ a ∈ s.injections, a.Safe) : NoneLost s := by
  have hstart : (VmState.irqView { vcpu, devices, stopFlag : VmState D }).Kept :=
    ⟨fun v hv => absurd hv (not_owed_nil v), fun hne => absurd rfl hne⟩
  have hkept := kept_afterTurns hrun hstart hsafe
  intro v hv
  rcases hkept.owed v hv with hreg | hheld
  · exact Or.inl hreg
  · refine Or.inr ⟨hheld, hkept.window ?_⟩
    rw [hheld]
    exact Option.some_ne_none v

end Runs

/-- A guest that notifies a device in its first run, and then does port I/O. -/
def notifyingGuest (n : ℕ) : VcpuExit × StandardRegs :=
  match n with
  | 0 => (.mmio (exitOf true #v[0x89, 0x08, 0, 0, 0, 0, 0, 0, 0, 0, 0, 0, 0, 0, 0, 0] 2), {})
  | _ => (.ioPort { port := 0x80, data := [0], isWrite := true, instructionLen := 1 }, {})

/-- The block device (vector 5) answers the notification; the network device (vector 6) has a
packet at the `n`-th poll. -/
def blockAndNet (n : ℕ) : ScriptedBus where
  writes := [some 5]
  polls := List.replicate n none ++ [some 6]

/-- A packet that arrives once the guest has taken the block device's vector. -/
theorem no_interrupt_lost_later_packet : ∃ s : VmState ScriptedBus,
    afterTurns 3 { vcpu := { guest := notifyingGuest }, devices := blockAndNet 2 } = some s ∧
      s.events = [.raised 5, .consumed 5, .raised 6, .consumed 6] ∧ NoneLost s := by
  refine ⟨_, rfl, rfl, ?_⟩
  exact no_interrupt_lost { guest := notifyingGuest } (blockAndNet 2) (fun _ => false) 3 _ rfl
    (by decide +kernel)

/-- A packet that arrives just after the block device's vector was injected overwrites it. -/
theorem interrupt_lost : ¬ ∀ (vcpu : WhpVcpu) (devices : ScriptedBus) (stopFlag : ℕ → Bool) (n : ℕ)
    (s : VmState ScriptedBus), afterTurns n { vcpu, devices, stopFlag } = some s → NoneLost s := by
  intro h
  have hlost := h { guest := notifyingGuest } (blockAndNet 1) (fun _ => false) 2 _ rfl 5
    ⟨[], [.raised 6, .consumed 6], rfl, by decide⟩
  revert hlost
  decide +kernel

end Hitz.Vmm

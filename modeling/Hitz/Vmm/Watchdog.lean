import Hitz.Vmm.MultiVcpu

/-!
# Who stops the watchdog (`run_single_vcpu` and `run_multi_vcpu` in `hitz-vmm/src/vm.rs`)

Both runners spawn a watchdog thread that owns a cancel handle and polls the stop flag.  It ends,
and drops its handle, once the flag is raised, so a runner has to raise the flag before it returns.

* `SingleVcpu`: the thread of `run_single_vcpu`, its watchdog and the caller, as `MultiVcpu` has
  them for several vCPUs;
* `Released`: the runner has not returned yet, or the flag is up and the watchdog ends;
* `watchdog_released_iff`: `run_multi_vcpu` releases its watchdog in every run, `run_single_vcpu`
  exactly where its `?` does not return early with the flag down.
-/

namespace Hitz.Vmm

open Hal

/-- Where the thread of `run_single_vcpu` is. -/
inductive Runner
  /-- At the top of `run_vcpu_loop`, before it reads the flag. -/
  | check
  | running
  /-- Back from the loop, at the `?`. -/
  | ended (result : LoopResult)
  | joinWatchdog (reason : ExitReason)
  | returned (result : Except HalError ExitReason)
  /-- A panic of the loop goes on to the caller. -/
  | unwound
  deriving DecidableEq

/-- `run_single_vcpu` has returned. -/
def Runner.isReturned : Runner → Bool
  | .returned _ => true
  | _ => false

/-- The threads of `run_single_vcpu` and what they share. -/
structure SingleVcpu where
  stopFlag : Bool
  runner : Runner := .check
  watchdog : Watchdog := .watching
  canceled : Bool := false

/-- A step of one of the threads, or of the caller. -/
inductive SingleEvent
  | callerStops
  | runner
  /-- The vCPU polls the devices, runs the guest and dispatches its exit. -/
  | turn (turn : Turn)
  | watchdog
  deriving DecidableEq

namespace SingleVcpu

/-- A step of the runner outside of its turns. -/
def stepRunner (s : SingleVcpu) : SingleVcpu :=
  match s.runner with
  | .check =>
    if s.stopFlag then { s with runner := .ended (.returned (.ok .canceled)) }
    else { s with runner := .running }
  | .running => s
  | .ended (.returned (.error e)) => { s with runner := .returned (.error e) }
  | .ended (.returned (.ok reason)) => { s with stopFlag := true, runner := .joinWatchdog reason }
  | .ended (.panicked _) => { s with runner := .unwound }
  | .joinWatchdog reason =>
    if s.watchdog = .done then { s with runner := .returned (.ok reason) } else s
  | .returned _ => s
  | .unwound => s

/-- A turn of the loop. -/
def stepTurn (s : SingleVcpu) (turn : Turn) : SingleVcpu :=
  match s.runner with
  | .running =>
    match turn.ended with
    | none => { s with runner := .check }
    | some r => { s with runner := .ended r }
  | _ => s

/-- A step of the watchdog; it has one handle. -/
def stepWatchdog (s : SingleVcpu) : SingleVcpu :=
  match s.watchdog with
  | .watching => if s.stopFlag then { s with watchdog := .canceling 0 } else s
  | .canceling _ => { s with watchdog := .done, canceled := true }
  | .done => s

/-- One step; a step that cannot be taken changes nothing. -/
def step (s : SingleVcpu) : SingleEvent → SingleVcpu
  | .callerStops => { s with stopFlag := true }
  | .runner => s.stepRunner
  | .turn turn => s.stepTurn turn
  | .watchdog => s.stepWatchdog

/-- The start; the flag may have been raised before. -/
def start (stopFlag : Bool) : SingleVcpu := { stopFlag }

/-- Once `run_single_vcpu` has returned, the flag is up, so that the watchdog comes to its end. -/
def Released (s : SingleVcpu) : Prop :=
  s.runner.isReturned = true →
    s.stopFlag = true ∧ ∃ k, (stepWatchdog^[k] s).watchdog = .done

/-- The step is not the early return of an error with the flag down. -/
def NoEarlyReturn (s : SingleVcpu) (event : SingleEvent) : Prop :=
  event = .runner → (∃ e, s.runner = .ended (.returned (.error e))) → s.stopFlag = true

/-! ### The loop

As for several vCPUs, a turn of `run_vcpu_loop` is one or two steps of the runner. -/

/-- A turn of the loop is made of steps of the runner. -/
theorem loopTurn_steps {D : Type} [DeviceBus D] (s : SingleVcpu) (v : VmState D)
    (hcheck : s.runner = .check) (hflag : v.stopFlag v.loops = s.stopFlag) :
    s.stepRunner = { s with
      runner := (MultiVcpu.turnEnd (loopTurn v).1).elim .check .ended } ∨
    ∃ turn, s.stepRunner.stepTurn turn = { s with
      runner := (MultiVcpu.turnEnd (loopTurn v).1).elim .check .ended } := by
  by_cases hstop : s.stopFlag = true
  · left
    simp [stepRunner, hcheck, loopTurn, hflag, hstop, MultiVcpu.turnEnd]
  · right
    have hrunning : s.stepRunner = { s with runner := .running } := by
      simp [stepRunner, hcheck, hstop]
    obtain ⟨turn, hend⟩ := MultiVcpu.exists_turn (hflag.trans (Bool.eq_false_iff.2 hstop))
    refine ⟨turn, ?_⟩
    rw [hrunning, stepTurn, ← hend]
    cases turn.ended <;> rfl

/-! ### The watchdog -/

/-- With the flag up the watchdog is done after two steps. -/
theorem watchdog_ends {s : SingleVcpu} (h : s.stopFlag = true) :
    (stepWatchdog^[2] s).watchdog = .done := by
  simp only [Function.iterate_succ, Function.iterate_zero, Function.comp_apply, id]
  cases hw : s.watchdog <;> simp [stepWatchdog, hw, h]

/-- With the flag down it goes on polling. -/
theorem watchdog_polls {s : SingleVcpu} (hw : s.watchdog = .watching) (h : s.stopFlag = false)
    (k : ℕ) : stepWatchdog^[k] s = s := by
  have hfix : s.stepWatchdog = s := by simp [stepWatchdog, hw, h]
  exact Function.iterate_fixed hfix k

/-! ### Runs of one vCPU -/

/-- After the loop has ended well, the flag is up; the runner returns after its watchdog has
ended. -/
structure Inv (s : SingleVcpu) : Prop where
  join : ∀ reason, s.runner = .joinWatchdog reason → s.stopFlag = true
  released : s.Released

theorem inv_start (stopFlag : Bool) : (start stopFlag).Inv :=
  ⟨nofun, nofun⟩

theorem released_of_flag {s : SingleVcpu} (h : s.stopFlag = true) : s.Released :=
  fun _ => ⟨h, 2, watchdog_ends h⟩

theorem released_of_not_returned {s : SingleVcpu} (h : s.runner.isReturned = false) :
    s.Released := by
  intro hret
  rw [h] at hret
  cases hret

/-- With the flag up, everything is in order. -/
theorem inv_of_flag {s : SingleVcpu} (h : s.stopFlag = true) : s.Inv :=
  ⟨fun _ _ => h, released_of_flag h⟩

/-- A runner that neither joins nor has returned. -/
theorem inv_of_runner {s : SingleVcpu} (hret : s.runner.isReturned = false)
    (hjoin : ∀ reason, s.runner ≠ .joinWatchdog reason) : s.Inv :=
  ⟨fun reason h => absurd h (hjoin reason), released_of_not_returned hret⟩

theorem Inv.stepRunner {s : SingleVcpu} (h : s.Inv) (hgood : s.NoEarlyReturn .runner) :
    s.stepRunner.Inv := by
  unfold SingleVcpu.stepRunner
  cases hr : s.runner with
  | check =>
    dsimp only
    split_ifs with hflag
    · exact inv_of_flag hflag
    · exact inv_of_runner rfl (by simp)
  | running => exact h
  | ended r =>
    cases r with
    | returned result =>
      cases result with
      | error e => exact inv_of_flag (hgood rfl ⟨e, hr⟩)
      | ok reason => exact inv_of_flag rfl
    | panicked payload => exact inv_of_runner rfl (by simp)
  | joinWatchdog reason =>
    dsimp only
    split_ifs
    · exact inv_of_flag (h.join reason hr)
    · exact h
  | returned result => exact h
  | unwound => exact h

theorem Inv.stepTurn {s : SingleVcpu} (h : s.Inv) (turn : Turn) : (s.stepTurn turn).Inv := by
  unfold SingleVcpu.stepTurn
  split
  · cases turn.ended with
    | none => exact inv_of_runner rfl (by simp)
    | some r => exact inv_of_runner rfl (by simp)
  · exact h

theorem Inv.stepWatchdog {s : SingleVcpu} (h : s.Inv) : s.stepWatchdog.Inv := by
  have hsame : s.stepWatchdog.runner = s.runner ∧ s.stepWatchdog.stopFlag = s.stopFlag := by
    unfold SingleVcpu.stepWatchdog
    cases s.watchdog with
    | watching => dsimp only; split_ifs <;> exact ⟨rfl, rfl⟩
    | canceling next => exact ⟨rfl, rfl⟩
    | done => exact ⟨rfl, rfl⟩
  constructor
  · intro reason hreason
    rw [hsame.2]
    exact h.join reason (hsame.1 ▸ hreason)
  · intro hret
    rw [hsame.1] at hret
    exact released_of_flag (hsame.2.trans (h.released hret).1) (hsame.1 ▸ hret)

theorem Inv.step {s : SingleVcpu} (h : s.Inv) {event : SingleEvent}
    (hgood : s.NoEarlyReturn event) : (s.step event).Inv := by
  cases event with
  | callerStops => exact inv_of_flag rfl
  | runner => exact h.stepRunner hgood
  | turn turn => exact h.stepTurn turn
  | watchdog => exact h.stepWatchdog

/-- An early return does not touch the flag. -/
theorem noEarlyReturn_of_released {s : SingleVcpu} {event : SingleEvent}
    (h : (s.step event).Released) : s.NoEarlyReturn event := by
  rintro rfl ⟨e, he⟩
  have hstep : s.step .runner = { s with runner := .returned (.error e) } := by
    simp only [SingleVcpu.step, SingleVcpu.stepRunner, he]
  rw [hstep] at h
  exact (h rfl).1

end SingleVcpu

/-! ### Runs of several vCPUs -/

namespace MultiVcpu

variable {n : ℕ}

/-- Once `run_multi_vcpu` has returned, the flag is up, so that the watchdog comes to its end. -/
def Released (s : MultiVcpu n) : Prop :=
  s.collector = .returned → s.stopFlag = true ∧ ∃ k, (stepWatchdog^[k] s).watchdog = .done

/-- The collector is past the point where it raises the flag. -/
def PastStop : Collector → Prop
  | .joinWatchdog => True
  | .joinVcpus _ => True
  | .returned => True
  | _ => False

/-- Past that point the flag is up, and past the join of the watchdog the watchdog has ended. -/
structure Stopped (s : MultiVcpu n) : Prop where
  flag : PastStop s.collector → s.stopFlag = true
  watchdog : PastStop s.collector → s.collector ≠ .joinWatchdog → s.watchdog = .done

theorem stopped_start (stopFlag : Bool) : (start n stopFlag).Stopped := ⟨nofun, nofun⟩

theorem Stopped.released {s : MultiVcpu n} (h : s.Stopped) : s.Released := by
  intro hret
  refine ⟨h.flag (by rw [hret]; trivial), 0, h.watchdog (by rw [hret]; trivial) ?_⟩
  rw [hret]
  nofun

/-- A step that leaves the collector and an ended watchdog alone, and does not lower the flag. -/
theorem Stopped.congr {s s' : MultiVcpu n} (h : s.Stopped) (hcollector : s'.collector = s.collector)
    (hflag : s.stopFlag = true → s'.stopFlag = true)
    (hwatchdog : s.watchdog = .done → s'.watchdog = .done) : s'.Stopped := by
  constructor
  · intro hpast
    rw [hcollector] at hpast
    exact hflag (h.flag hpast)
  · intro hpast hne
    rw [hcollector] at hpast hne
    exact hwatchdog (h.watchdog hpast hne)

theorem Stopped.stepVcpu {s : MultiVcpu n} (h : s.Stopped) (i : Fin n) :
    (s.stepVcpu i).Stopped := by
  unfold MultiVcpu.stepVcpu
  cases s.threads i with
  | check => dsimp only; split_ifs <;> exact h.congr rfl id id
  | running => exact h
  | ended r =>
    dsimp only
    split_ifs
    · exact h.congr rfl (fun _ => rfl) id
    · exact h.congr rfl id id
  | canceling next r => dsimp only; split_ifs <;> exact h.congr rfl id id
  | sending r => exact h.congr rfl id id
  | done r => exact h

theorem Stopped.stepTurn {s : MultiVcpu n} (h : s.Stopped) (i : Fin n) (turn : Turn) :
    (s.stepTurn i turn).Stopped := by
  unfold MultiVcpu.stepTurn
  split
  · cases turn.ended <;> exact h.congr rfl id id
  · exact h

theorem Stopped.stepWatchdog {s : MultiVcpu n} (h : s.Stopped) : s.stepWatchdog.Stopped := by
  unfold MultiVcpu.stepWatchdog
  cases hw : s.watchdog with
  | watching =>
    dsimp only
    split_ifs
    · exact h.congr rfl id (by simp [hw])
    · exact h
  | canceling next =>
    dsimp only
    split_ifs
    · exact h.congr rfl id (by simp [hw])
    · exact h.congr rfl id fun _ => rfl
  | done => exact h

theorem Stopped.stepCollector {s : MultiVcpu n} (h : s.Stopped) : s.stepCollector.Stopped := by
  unfold MultiVcpu.stepCollector
  cases hc : s.collector with
  | spawned => exact ⟨nofun, nofun⟩
  | receiving i => dsimp only; split_ifs <;> exact ⟨nofun, nofun⟩
  | waiting i limit =>
    dsimp only
    split
    · exact ⟨nofun, nofun⟩
    · split_ifs
      · exact ⟨nofun, nofun⟩
      · exact h
  | stopping => exact ⟨fun _ => rfl, fun _ hne => absurd rfl hne⟩
  | joinWatchdog =>
    dsimp only
    split_ifs with hdone
    · exact ⟨fun _ => h.flag (by rw [hc]; trivial), fun _ _ => hdone⟩
    · exact h
  | joinVcpus i =>
    have hflag : s.stopFlag = true := h.flag (by rw [hc]; trivial)
    have hdone : s.watchdog = .done := h.watchdog (by rw [hc]; trivial) (by rw [hc]; nofun)
    dsimp only
    split_ifs
    · exact ⟨fun _ => hflag, fun _ _ => hdone⟩
    · exact h
    · exact ⟨fun _ => hflag, fun _ _ => hdone⟩
  | returned => exact h

theorem Stopped.step {s : MultiVcpu n} (h : s.Stopped) (event : ThreadEvent n) :
    (s.step event).Stopped := by
  cases event with
  | elapse ms => exact h.congr rfl id id
  | callerStops => exact h.congr rfl (fun _ => rfl) id
  | vcpu i => exact h.stepVcpu i
  | turn i turn => exact h.stepTurn i turn
  | watchdog => exact h.stepWatchdog
  | collector => exact h.stepCollector
  | timeout =>
    unfold MultiVcpu.step
    dsimp only
    split_ifs
    · exact ⟨nofun, nofun⟩
    · exact h

end MultiVcpu

/-! ### Both runners -/

/-- **The runners release their watchdogs**: several vCPUs in every run, whatever ends their loops;
a single vCPU in the runs, and only in those, in which its `?` does not return an error while the
flag is down. -/
theorem watchdog_released_iff (n : ℕ) (stopFlag : Bool) (threadEvents : List (ThreadEvent n))
    (events : List SingleEvent) :
    Runs.Always MultiVcpu.step (MultiVcpu.start n stopFlag) MultiVcpu.Released threadEvents ∧
      (Runs.Always SingleVcpu.step (SingleVcpu.start stopFlag) SingleVcpu.Released events ↔
        Runs.EachStep SingleVcpu.step (SingleVcpu.start stopFlag) SingleVcpu.NoEarlyReturn
          events) := by
  constructor
  · intro before after heq
    exact ((Runs.always_of_step (P := MultiVcpu.Stopped) (MultiVcpu.stopped_start stopFlag)
      fun s e h => h.step e) before after heq).released
  · exact Runs.always_iff_of_inv (P := SingleVcpu.Inv) (SingleVcpu.inv_start stopFlag)
      (fun s h => h.released) (fun s e h hgood => h.step hgood)
      (fun s e _ h => SingleVcpu.noEarlyReturn_of_released h) events

/-- `vcpu.run` fails in the first turn. -/
def failingRun : List SingleEvent :=
  [.runner, .turn (.error (.vcpuRun "WHvRunVirtualProcessor")), .runner]

/-- `run_single_vcpu` returns the error, the flag is down, and the watchdog polls for ever. -/
theorem failed_vcpu_leaks_watchdog :
    (failingRun.foldl SingleVcpu.step (SingleVcpu.start false)).runner.isReturned = true ∧
      (∀ k, (SingleVcpu.stepWatchdog^[k]
        (failingRun.foldl SingleVcpu.step (SingleVcpu.start false))).watchdog = .watching) ∧
      ¬Runs.Always SingleVcpu.step (SingleVcpu.start false) SingleVcpu.Released failingRun := by
  refine ⟨rfl, fun k => ?_, fun h => ?_⟩
  · rw [SingleVcpu.watchdog_polls rfl rfl]
    rfl
  · have hflag := (h failingRun [] rfl rfl).1
    cases hflag

end Hitz.Vmm

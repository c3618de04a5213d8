import Hitz.Lib.Runs
import Hitz.Vmm.RunLoop

/-!
# Running several vCPUs (`run_multi_vcpu` in `hitz-vmm/src/vm.rs`)

Every vCPU runs its loop on a thread of its own.  A loop that ends for a reason of its own raises
the stop flag and cancels the other vCPUs; a loop that finds the flag raised ends with `Canceled`.
A watchdog cancels all vCPUs once the flag is raised.  The collector receives the results, keeps the
first that is not `Canceled`, raises the flag and joins the threads.

Its deadline is three seconds after the start, whether the vCPUs were told to stop or not.
`ends_for_a_reason` is about the runs in which the deadline does not pass before a result is in;
`healthy_vm_stopped` is a run of two vCPUs that are well and are stopped after three seconds.
-/

namespace Hitz.Vmm

open Hal

/-- What `catch_unwind` has of a loop: its result, or the text of a panic. -/
inductive LoopResult
  | returned (result : Except HalError ExitReason)
  | panicked (payload : Option String)
  deriving DecidableEq

/-- The loop ended for a reason of its own. -/
def LoopResult.Terminal (r : LoopResult) : Prop := r ≠ .returned (.ok .canceled)

instance (r : LoopResult) : Decidable r.Terminal := inferInstanceAs (Decidable (_ ≠ _))

/-- What a vCPU thread sends to the collector. -/
abbrev Report := Except HalError ExitReason

/-- The report of the vCPU `idx`. -/
def LoopResult.report (idx : ℕ) : LoopResult → Report
  | .returned result => result
  | .panicked payload => .ok (.unexpected
      ("vCPU " ++ toString idx ++ " panicked: " ++ payload.getD "unknown panic"))

/-- A turn of `run_vcpu_loop` that has found the flag down. -/
inductive Turn
  | goOn
  | halt
  | shutdown
  | unexpected (message : String)
  | error (e : HalError)
  | panic (payload : Option String)
  deriving DecidableEq

/-- The result of the loop, when the turn ends it. -/
def Turn.ended : Turn → Option LoopResult
  | .goOn => none
  | .halt => some (.returned (.ok .halt))
  | .shutdown => some (.returned (.ok .shutdown))
  | .unexpected message => some (.returned (.ok (.unexpected message)))
  | .error e => some (.returned (.error e))
  | .panic payload => some (.panicked payload)

/-- Where a vCPU thread is. -/
inductive VcpuThread
  /-- At the top of the loop, before it reads the flag. -/
  | check
  | running
  /-- Back from the loop. -/
  | ended (result : LoopResult)
  /-- In `cancel_all_vcpus`, at the handle `next`. -/
  | canceling (next : ℕ) (result : LoopResult)
  | sending (result : LoopResult)
  | done (result : LoopResult)
  deriving DecidableEq

/-- The result of the loop of a thread. -/
def VcpuThread.result : VcpuThread → Option LoopResult
  | .check => none
  | .running => none
  | .ended r => some r
  | .canceling _ r => some r
  | .sending r => some r
  | .done r => some r

/-- The thread is over. -/
def VcpuThread.isDone : VcpuThread → Bool
  | .done _ => true
  | _ => false

/-- Where the watchdog is. -/
inductive Watchdog
  | watching
  | canceling (next : ℕ)
  | done
  deriving DecidableEq

/-- Where the caller's thread is, once it has spawned the others. -/
inductive Collector
  | spawned
  /-- At the top of its loop, with `i` results received. -/
  | receiving (i : ℕ)
  /-- In `recv_timeout`, until the given time. -/
  | waiting (i : ℕ) (limit : ℕ)
  | stopping
  | joinWatchdog
  | joinVcpus (i : ℕ)
  | returned
  deriving DecidableEq

/-- The threads of `run_multi_vcpu` and what they share. -/
structure MultiVcpu (n : ℕ) where
  stopFlag : Bool
  threads : Fin n → VcpuThread := fun _ => .check
  watchdog : Watchdog := .watching
  collector : Collector := .spawned
  /-- The reports sent and not yet received, each with its sender. -/
  channel : List (Fin n × Report) := []
  /-- `cancel_via` was called for the vCPU. -/
  canceled : Fin n → Bool := fun _ => false
  /-- Time in milliseconds. -/
  clock : ℕ := 0
  deadline : ℕ := 0
  finalReason : ExitReason := .canceled
  received : List (Fin n × Report) := []
  /-- The flag was raised from outside. -/
  callerStopped : Bool := false

/-- A step of one of the threads, or of what is around them. -/
inductive ThreadEvent (n : ℕ)
  | elapse (ms : ℕ)
  | callerStops
  | vcpu (i : Fin n)
  /-- The vCPU polls the devices, runs the guest and dispatches its exit. -/
  | turn (i : Fin n) (turn : Turn)
  | watchdog
  | collector
  /-- `recv_timeout` gives up. -/
  | timeout
  deriving DecidableEq

namespace MultiVcpu

variable {n : ℕ}

/-- The start; the flag may have been raised before. -/
def start (n : ℕ) (stopFlag : Bool) : MultiVcpu n := { stopFlag, callerStopped := stopFlag }

def setThread (s : MultiVcpu n) (i : Fin n) (t : VcpuThread) : MultiVcpu n :=
  { s with threads := Function.update s.threads i t }

@[simp] theorem threads_setThread_self (s : MultiVcpu n) (i : Fin n) (t : VcpuThread) :
    (s.setThread i t).threads i = t := Function.update_self ..

theorem threads_setThread_of_ne {i j : Fin n} (hji : j ≠ i) (s : MultiVcpu n) (t : VcpuThread) :
    (s.setThread i t).threads j = s.threads j := Function.update_of_ne hji ..

/-- `cancel_via` on the handle `next`; its result is not looked at. -/
def cancelVia (s : MultiVcpu n) (next : Fin n) : MultiVcpu n :=
  { s with canceled := Function.update s.canceled next true }

/-- A step of a vCPU thread outside of its turns. -/
def stepVcpu (s : MultiVcpu n) (i : Fin n) : MultiVcpu n :=
  match s.threads i with
  | .check =>
    if s.stopFlag then s.setThread i (.ended (.returned (.ok .canceled)))
    else s.setThread i .running
  | .running => s
  | .ended r =>
    if r.Terminal then { s.setThread i (.canceling 0 r) with stopFlag := true }
    else s.setThread i (.sending r)
  | .canceling next r =>
    if h : next < n then (s.cancelVia ⟨next, h⟩).setThread i (.canceling (next + 1) r)
    else s.setThread i (.sending r)
  | .sending r => { s.setThread i (.done r) with channel := s.channel ++ [(i, r.report i)] }
  | .done _ => s

/-- A turn of the loop of a vCPU. -/
def stepTurn (s : MultiVcpu n) (i : Fin n) (turn : Turn) : MultiVcpu n :=
  match s.threads i with
  | .running =>
    match turn.ended with
    | none => s.setThread i .check
    | some r => s.setThread i (.ended r)
  | _ => s

/-- A step of the watchdog. -/
def stepWatchdog (s : MultiVcpu n) : MultiVcpu n :=
  match s.watchdog with
  | .watching => if s.stopFlag then { s with watchdog := .canceling 0 } else s
  | .canceling next =>
    if h : next < n then { s.cancelVia ⟨next, h⟩ with watchdog := .canceling (next + 1) }
    else { s with watchdog := .done }
  | .done => s

/-- The reason a report stands for. -/
def reasonOf : Report → ExitReason
  | .ok reason => reason
  | .error e => .unexpected ("vCPU error: " ++ e.display)

/-- A report is received. -/
def receive (s : MultiVcpu n) (i : ℕ) (message : Fin n × Report) (rest : List (Fin n × Report)) :
    MultiVcpu n :=
  { s with
    collector := .receiving (i + 1)
    channel := rest
    finalReason := if s.finalReason = .canceled then reasonOf message.2 else s.finalReason
    received := s.received ++ [message] }

/-- All senders are gone. -/
def disconnected (s : MultiVcpu n) : Bool := decide (∀ i, (s.threads i).isDone = true)

/-- A step of the collector; it waits where there is none. -/
def stepCollector (s : MultiVcpu n) : MultiVcpu n :=
  match s.collector with
  | .spawned => { s with collector := .receiving 0, deadline := s.clock + 3000 }
  | .receiving i =>
    if i < n then { s with collector := .waiting i (s.clock + (s.deadline - s.clock)) }
    else { s with collector := .stopping }
  | .waiting i _ =>
    match s.channel with
    | message :: rest => s.receive i message rest
    | [] => if s.disconnected then { s with collector := .stopping } else s
  | .stopping => { s with collector := .joinWatchdog, stopFlag := true }
  | .joinWatchdog => if s.watchdog = .done then { s with collector := .joinVcpus 0 } else s
  | .joinVcpus i =>
    if h : i < n then
      if (s.threads ⟨i, h⟩).isDone then { s with collector := .joinVcpus (i + 1) } else s
    else { s with collector := .returned }
  | .returned => s

/-- The time of `recv_timeout` is used up and the channel is empty. -/
def timedOut (s : MultiVcpu n) : Bool :=
  match s.collector with
  | .waiting _ limit => s.channel.isEmpty && decide (limit ≤ s.clock)
  | _ => false

/-- One step; a step that cannot be taken changes nothing. -/
def step (s : MultiVcpu n) : ThreadEvent n → MultiVcpu n
  | .elapse ms => { s with clock := s.clock + ms }
  | .callerStops => { s with stopFlag := true, callerStopped := true }
  | .vcpu i => s.stepVcpu i
  | .turn i turn => s.stepTurn i turn
  | .watchdog => s.stepWatchdog
  | .collector => s.stepCollector
  | .timeout => if s.timedOut then { s with collector := .stopping } else s

/-! ### The loop of a vCPU

A turn of `run_vcpu_loop`, as `loopTurn` has it, is one or two steps of its thread: it returns
`Canceled` only when it finds the flag raised. -/

section Loop

variable {D : Type} [DeviceBus D]

/-- An exit of the guest does not end the loop with `Canceled`. -/
theorem dispatchExit_ne_canceled {exit : VcpuExit} {v v' : VmState D} :
    dispatchExit exit v ≠ (.ok (some .canceled), v') := by
  intro h
  cases exit with
  | mmio mmio =>
    obtain ⟨_, _, -, hpure⟩ := Vm.bind_eq_ok h
    cases hpure
  | ioPort io =>
    obtain ⟨_, _, -, hpure⟩ := Vm.bind_eq_ok h
    cases hpure
  | halt => cases h
  | shutdown => cases h
  | interruptWindow =>
    simp only [dispatchExit] at h
    split at h
    · cases h
    · obtain ⟨_, _, -, hinject⟩ := Vm.bind_eq_ok h
      obtain ⟨r, _, -, hpure⟩ := Vm.bind_eq_ok hinject
      cases r <;> cases hpure
  | canceled =>
    simp only [dispatchExit] at h
    split_ifs at h
    · obtain ⟨_, _, -, hpure⟩ := Vm.bind_eq_ok h
      cases hpure
    · cases h
  | unknown code => cases h

/-- The result of the loop, when the turn ends it. -/
def turnEnd : Except HalError (Option ExitReason) → Option LoopResult
  | .ok none => none
  | .ok (some reason) => some (.returned (.ok reason))
  | .error e => some (.returned (.error e))

/-- A turn that finds the flag down is one of the turns above. -/
theorem exists_turn {v : VmState D} (hflag : v.stopFlag v.loops = false) :
    ∃ turn : Turn, turn.ended = turnEnd (loopTurn v).1 := by
  cases hloop : (loopTurn v).1 with
  | error e => exact ⟨.error e, rfl⟩
  | ok reason =>
    cases reason with
    | none => exact ⟨.goOn, rfl⟩
    | some reason =>
      cases reason with
      | halt => exact ⟨.halt, rfl⟩
      | shutdown => exact ⟨.shutdown, rfl⟩
      | unexpected message => exact ⟨.unexpected message, rfl⟩
      | canceled =>
        -- the flag is down, so the turn goes on to the exit of the guest
        have hpair : loopTurn v = (.ok (some .canceled), (loopTurn v).2) := by rw [← hloop]
        rw [loopTurn, hflag] at hpair
        obtain ⟨_, _, -, hrest⟩ := Vm.bind_eq_ok hpair
        obtain ⟨exit, _, -, hdispatch⟩ := Vm.bind_eq_ok hrest
        exact absurd hdispatch dispatchExit_ne_canceled

/-- How a turn leaves the thread. -/
def afterTurn : Except HalError (Option ExitReason) → VcpuThread
  | .ok none => .check
  | .ok (some reason) => .ended (.returned (.ok reason))
  | .error e => .ended (.returned (.error e))

theorem afterTurn_eq (r : Except HalError (Option ExitReason)) :
    afterTurn r = (turnEnd r).elim .check .ended := by
  rcases r with e | _ | reason <;> rfl

/-- A turn of the loop is made of steps of its thread. -/
theorem loopTurn_simulated (s : MultiVcpu n) (i : Fin n) (v : VmState D)
    (hcheck : s.threads i = .check) (hflag : v.stopFlag v.loops = s.stopFlag) :
    s.stepVcpu i = s.setThread i (afterTurn (loopTurn v).1) ∨
    ∃ turn, (s.stepVcpu i).stepTurn i turn = s.setThread i (afterTurn (loopTurn v).1) := by
  cases hstop : s.stopFlag with
  | true =>
    left
    simp [stepVcpu, hcheck, loopTurn, hflag, hstop, afterTurn]
  | false =>
    right
    have hrunning : s.stepVcpu i = s.setThread i .running := by
      simp [stepVcpu, hcheck, hstop]
    have hturn : ∀ turn, (s.setThread i .running).stepTurn i turn =
        s.setThread i (turn.ended.elim .check .ended) := by
      intro turn
      simp only [stepTurn, threads_setThread_self]
      cases turn.ended <;> simp [setThread]
    obtain ⟨turn, hend⟩ := exists_turn (hflag.trans hstop)
    exact ⟨turn, by rw [hrunning, hturn, hend, afterTurn_eq]⟩

end Loop

/-! ### What should hold -/

/-- Some loop has ended for a reason of its own, or the flag was raised from outside. -/
def Caused (s : MultiVcpu n) : Prop :=
  s.callerStopped = true ∨ ∃ i r, (s.threads i).result = some r ∧ r.Terminal

/-- The first reason other than `Canceled`. -/
def firstReason (reports : List Report) : ExitReason :=
  ((reports.map reasonOf).find? (· ≠ .canceled)).getD .canceled

/-- What the vCPU has reported. -/
def reported (s : MultiVcpu n) (i : Fin n) : Option Report :=
  match s.threads i with
  | .done r => some (r.report i)
  | _ => none

/-- The flag is raised for a reason only, and the result is the first received that is not
`Canceled`. -/
structure EndsForReason (s : MultiVcpu n) : Prop where
  flag : s.stopFlag = true → s.Caused
  result : s.collector = .returned → s.finalReason = firstReason (s.received.map Prod.snd)
  canceled : s.collector = .returned → s.finalReason = .canceled →
    ∀ i, s.reported i = some (.ok .canceled)

/-- The deadline does not pass before a result other than `Canceled` is in. -/
def Timely (s : MultiVcpu n) (e : ThreadEvent n) : Prop :=
  e = .timeout → s.timedOut = true → s.finalReason ≠ .canceled

/-! ### Reports -/

theorem firstReason_eq_canceled {reports : List Report} :
    firstReason reports = .canceled ↔ ∀ m ∈ reports, reasonOf m = .canceled := by
  unfold firstReason
  cases hfind : (reports.map reasonOf).find? (· ≠ .canceled) with
  | none => simpa using hfind
  | some reason =>
    have hne : reason ≠ .canceled := by simpa using List.find?_some hfind
    refine iff_of_false hne fun h => hne ?_
    obtain ⟨m, hm, rfl⟩ := List.mem_map.1 (List.mem_of_find?_eq_some hfind)
    exact h m hm

theorem firstReason_concat (reports : List Report) (m : Report) :
    firstReason (reports ++ [m]) =
      if firstReason reports = .canceled then reasonOf m else firstReason reports := by
  unfold firstReason
  rw [List.map_append, List.find?_append]
  cases hfind : (reports.map reasonOf).find? (· ≠ .canceled) with
  | some reason =>
    have hne : reason ≠ .canceled := by simpa using List.find?_some hfind
    simp [hne]
  | none =>
    by_cases hm : reasonOf m = .canceled
    · simp [hm]
    · simp [hm]

theorem eq_canceled_of_reasonOf {m : Report} (h : reasonOf m = .canceled) : m = .ok .canceled := by
  cases m with
  | ok reason => rw [← h, reasonOf]
  | error e => cases h

theorem terminal_of_report {r : LoopResult} {i : ℕ} (h : reasonOf (r.report i) ≠ .canceled) :
    r.Terminal := by
  rintro rfl
  exact h rfl

/-! ### The invariant -/

/-- The collector has received a report in every turn of its loop, and leaves it early only with a
result. -/
def CollectorOk (n : ℕ) : Collector → ℕ → ExitReason → Prop
  | .spawned, count, _ => count = 0
  | .receiving i, count, _ => count = i
  | .waiting i _, count, _ => count = i ∧ i < n
  | _, count, reason => count = n ∨ reason ≠ .canceled

/-- What holds all along. -/
structure Inv (s : MultiVcpu n) : Prop where
  flag : s.stopFlag = true → s.Caused
  canceled : ∀ i, (s.threads i).result = some (.returned (.ok .canceled)) → s.Caused
  sent : ∀ i m, (i, m) ∈ s.received ++ s.channel ↔ ∃ r, s.threads i = .done r ∧ m = r.report i
  nodup : ((s.received ++ s.channel).map Prod.fst).Nodup
  final : s.finalReason = firstReason (s.received.map Prod.snd)
  collector : CollectorOk n s.collector s.received.length s.finalReason

variable {s : MultiVcpu n}

theorem inv_start (stopFlag : Bool) : (start n stopFlag).Inv where
  flag h := Or.inl h
  canceled i h := by cases h
  sent i m := by simp [start]
  nodup := List.nodup_nil
  final := rfl
  collector := rfl

theorem Inv.nodup_received (h : s.Inv) : (s.received.map Prod.fst).Nodup := by
  have hnodup := h.nodup
  rw [List.map_append] at hnodup
  exact (List.nodup_append.1 hnodup).1

theorem Inv.received_length_le (h : s.Inv) : s.received.length ≤ n := by
  have hle := h.nodup_received.length_le_card
  rwa [List.length_map, Fintype.card_fin] at hle

/-- Once as many reports as vCPUs are in, every vCPU has sent its own. -/
theorem Inv.all_received (h : s.Inv) (hall : s.received.length = n) (i : Fin n) :
    ∃ r, s.threads i = .done r ∧ (i, r.report i) ∈ s.received := by
  have huniv : (s.received.map Prod.fst).toFinset = Finset.univ := by
    apply Finset.eq_univ_of_card
    rw [List.toFinset_card_of_nodup h.nodup_received, List.length_map, hall, Fintype.card_fin]
  have hmem : i ∈ s.received.map Prod.fst := by
    rw [← List.mem_toFinset, huniv]
    exact Finset.mem_univ i
  obtain ⟨⟨j, m⟩, hm, rfl⟩ := List.mem_map.1 hmem
  obtain ⟨r, hr, rfl⟩ := (h.sent j m).1 (List.mem_append_left _ hm)
  exact ⟨r, hr, hm⟩

/-- When the collector leaves its loop, there was a reason. -/
theorem Inv.caused (h : s.Inv) (hn : 0 < n)
    (hdone : s.received.length = n ∨ s.finalReason ≠ .canceled) : s.Caused := by
  rcases hdone with hall | hfinal
  · obtain ⟨r, hr, -⟩ := h.all_received hall ⟨0, hn⟩
    have hresult : (s.threads ⟨0, hn⟩).result = some r := by rw [hr]; rfl
    by_cases hterm : r.Terminal
    · exact Or.inr ⟨_, r, hresult, hterm⟩
    · rw [LoopResult.Terminal, not_not] at hterm
      exact h.canceled _ (hterm ▸ hresult)
  · rw [h.final, Ne, firstReason_eq_canceled] at hfinal
    push Not at hfinal
    obtain ⟨m, hm, hreason⟩ := hfinal
    obtain ⟨⟨i, m⟩, hmem, rfl⟩ := List.mem_map.1 hm
    obtain ⟨r, hr, rfl⟩ := (h.sent i m).1 (List.mem_append_left _ hmem)
    exact Or.inr ⟨i, r, by rw [hr]; rfl, terminal_of_report hreason⟩

theorem Inv.endsForReason (h : s.Inv) : s.EndsForReason where
  flag := h.flag
  result _ := h.final
  canceled hret hcanceled i := by
    have hcollector := h.collector
    rw [hret] at hcollector
    obtain ⟨r, hr, hmem⟩ := h.all_received (hcollector.resolve_right (not_not.2 hcanceled)) i
    have hall := firstReason_eq_canceled.1 (h.final.symm.trans hcanceled)
    rw [reported, hr]
    exact congrArg some (eq_canceled_of_reasonOf (hall _ (List.mem_map_of_mem hmem)))

/-! ### The steps keep the invariant -/

theorem Caused.setThread {i : Fin n} {t : VcpuThread} (h : s.Caused)
    (hmono : ∀ r, (s.threads i).result = some r → t.result = some r) :
    (s.setThread i t).Caused := by
  rcases h with hcaller | ⟨j, r, hj, hterm⟩
  · exact Or.inl hcaller
  · refine Or.inr ⟨j, r, ?_, hterm⟩
    by_cases hji : j = i
    · subst hji
      rw [threads_setThread_self]
      exact hmono r hj
    · rwa [threads_setThread_of_ne hji]

/-- A thread goes on without sending. -/
theorem Inv.setThread {i : Fin n} {t : VcpuThread} (h : s.Inv)
    (hold : (s.threads i).isDone = false) (hnew : t.isDone = false)
    (hmono : ∀ r, (s.threads i).result = some r → t.result = some r)
    (hcanceled : t.result = some (.returned (.ok .canceled)) → s.Caused) :
    (s.setThread i t).Inv where
  flag hflag := (h.flag hflag).setThread hmono
  canceled j hj := by
    apply Caused.setThread ?_ hmono
    by_cases hji : j = i
    · subst hji
      apply hcanceled
      rwa [threads_setThread_self] at hj
    · apply h.canceled j
      rwa [threads_setThread_of_ne hji] at hj
  sent j m := by
    refine (h.sent j m).trans ?_
    by_cases hji : j = i
    · subst hji
      rw [threads_setThread_self]
      constructor
      · rintro ⟨r, hr, -⟩
        rw [hr] at hold
        cases hold
      · rintro ⟨r, rfl, -⟩
        cases hnew
    · rw [threads_setThread_of_ne hji]
  nodup := h.nodup
  final := h.final
  collector := h.collector

/-- A thread goes on with the result of its loop. -/
theorem Inv.keepResult {i : Fin n} {t : VcpuThread} {r : LoopResult} (h : s.Inv)
    (hi : (s.threads i).result = some r) (hold : (s.threads i).isDone = false)
    (ht : t.result = some r) (hnew : t.isDone = false) : (s.setThread i t).Inv := by
  apply h.setThread hold hnew
  · intro r' hr'
    rw [ht, ← hi, hr']
  · intro hcanceled
    apply h.canceled i
    rw [hi, ← ht, hcanceled]

/-- The flag is raised. -/
theorem Inv.raise (h : s.Inv) (hcaused : s.Caused) : { s with stopFlag := true }.Inv where
  flag _ := hcaused
  canceled _ _ := hcaused
  sent := h.sent
  nodup := h.nodup
  final := h.final
  collector := h.collector

theorem Inv.cancelVia (h : s.Inv) (next : Fin n) : (s.cancelVia next).Inv :=
  ⟨h.flag, h.canceled, h.sent, h.nodup, h.final, h.collector⟩

theorem Inv.send {i : Fin n} {r : LoopResult} (h : s.Inv) (hi : s.threads i = .sending r) :
    { s.setThread i (.done r) with channel := s.channel ++ [(i, r.report i)] }.Inv := by
  have hmono : ∀ r', (s.threads i).result = some r' → VcpuThread.result (.done r) = some r' := by
    rw [hi]
    exact fun r' hr => hr
  have hnot : ∀ m, (i, m) ∉ s.received ++ s.channel := by
    intro m hm
    obtain ⟨r', hr', -⟩ := (h.sent i m).1 hm
    rw [hi] at hr'
    cases hr'
  constructor
  case flag => exact fun hflag => (h.flag hflag).setThread hmono
  case canceled =>
    intro j hj
    apply Caused.setThread ?_ hmono
    apply h.canceled j
    by_cases hji : j = i
    · subst hji
      rw [hi]
      rwa [threads_setThread_self] at hj
    · rwa [threads_setThread_of_ne hji] at hj
  case sent =>
    intro j m
    rw [← List.append_assoc, List.mem_append, List.mem_singleton]
    by_cases hji : j = i
    · subst hji
      rw [threads_setThread_self]
      constructor
      · rintro (hm | hm)
        · exact absurd hm (hnot m)
        · exact ⟨r, rfl, (Prod.mk.inj hm).2⟩
      · rintro ⟨r', hr', rfl⟩
        cases hr'
        exact Or.inr rfl
    · rw [threads_setThread_of_ne hji, ← h.sent j m]
      constructor
      · exact fun hm => hm.resolve_right fun heq => hji (Prod.mk.inj heq).1
      · exact Or.inl
  case nodup =>
    rw [← List.append_assoc, List.map_append, List.nodup_append]
    refine ⟨h.nodup, by simp, ?_⟩
    intro j hj j' hj'
    rintro rfl
    obtain ⟨⟨j, m⟩, hm, rfl⟩ := List.mem_map.1 hj
    obtain rfl : j = i := by simpa using hj'
    exact hnot m hm
  case final => exact h.final
  case collector => exact h.collector

theorem Inv.stepVcpu (h : s.Inv) (i : Fin n) : (s.stepVcpu i).Inv := by
  unfold MultiVcpu.stepVcpu
  cases hi : s.threads i with
  | check =>
    dsimp only
    split_ifs with hflag
    · exact h.setThread (by rw [hi]; rfl) rfl (by rw [hi]; exact nofun) fun _ => h.flag hflag
    · exact h.setThread (by rw [hi]; rfl) rfl (by rw [hi]; exact nofun) nofun
  | running => exact h
  | ended r =>
    have hkeep : ∀ t : VcpuThread, t.result = some r → t.isDone = false → (s.setThread i t).Inv :=
      fun t => h.keepResult (by rw [hi]; rfl) (by rw [hi]; rfl)
    dsimp only
    split_ifs with hterm
    · apply (hkeep (.canceling 0 r) rfl rfl).raise
      exact Or.inr ⟨i, r, by rw [threads_setThread_self]; rfl, hterm⟩
    · exact hkeep _ rfl rfl
  | canceling next r =>
    dsimp only
    split_ifs with hnext
    · exact (h.cancelVia ⟨next, hnext⟩).keepResult (by rw [MultiVcpu.cancelVia, hi]; rfl)
        (by rw [MultiVcpu.cancelVia, hi]; rfl) rfl rfl
    · exact h.keepResult (by rw [hi]; rfl) (by rw [hi]; rfl) rfl rfl
  | sending r => exact h.send hi
  | done r => exact h

/-- A turn that finds the flag down does not end the loop with `Canceled`. -/
theorem terminal_of_ended {turn : Turn} {r : LoopResult} (h : turn.ended = some r) :
    r.Terminal := by
  rintro rfl
  cases turn <;> cases h

theorem Inv.stepTurn (h : s.Inv) (i : Fin n) (turn : Turn) : (s.stepTurn i turn).Inv := by
  unfold MultiVcpu.stepTurn
  cases hi : s.threads i with
  | running =>
    dsimp only
    cases hended : turn.ended with
    | none => exact h.setThread (by rw [hi]; rfl) rfl (by rw [hi]; exact nofun) nofun
    | some r =>
      refine h.setThread (by rw [hi]; rfl) rfl (by rw [hi]; exact nofun) fun hr => ?_
      exact absurd (Option.some.inj hr) (terminal_of_ended hended)
  | check => exact h
  | ended _ => exact h
  | canceling _ _ => exact h
  | sending _ => exact h
  | done _ => exact h

theorem Inv.stepWatchdog (h : s.Inv) : s.stepWatchdog.Inv := by
  unfold MultiVcpu.stepWatchdog
  split
  · split_ifs
    · exact ⟨h.flag, h.canceled, h.sent, h.nodup, h.final, h.collector⟩
    · exact h
  · split_ifs
    · exact ⟨h.flag, h.canceled, h.sent, h.nodup, h.final, h.collector⟩
    · exact ⟨h.flag, h.canceled, h.sent, h.nodup, h.final, h.collector⟩
  · exact h

/-- The collector goes on, and nothing else changes. -/
theorem Inv.setCollector {c : Collector} (h : s.Inv)
    (hc : CollectorOk n c s.received.length s.finalReason) : { s with collector := c }.Inv :=
  ⟨h.flag, h.canceled, h.sent, h.nodup, h.final, hc⟩

theorem Inv.receive {i : ℕ} {message : Fin n × Report} {rest : List (Fin n × Report)} (h : s.Inv)
    (hcount : s.received.length = i) (hchannel : s.channel = message :: rest) :
    (s.receive i message rest).Inv := by
  have hall : s.received ++ [message] ++ rest = s.received ++ s.channel := by
    rw [hchannel, List.append_assoc]
    rfl
  constructor
  case flag => exact h.flag
  case canceled => exact h.canceled
  case sent =>
    intro j m
    have hsent := h.sent j m
    rw [← hall] at hsent
    exact hsent
  case nodup =>
    show ((s.received ++ [message] ++ rest).map Prod.fst).Nodup
    rw [hall]
    exact h.nodup
  case final =>
    show (if s.finalReason = .canceled then reasonOf message.2 else s.finalReason) =
      firstReason ((s.received ++ [message]).map Prod.snd)
    rw [List.map_append, List.map_singleton, firstReason_concat, ← h.final]
  case collector =>
    show (s.received ++ [message]).length = i + 1
    rw [List.length_append, hcount, List.length_singleton]

/-- As long as reports are missing, a sender is there. -/
theorem Inv.not_disconnected (h : s.Inv) (hmissing : s.received.length < n)
    (hempty : s.channel = []) : s.disconnected = false := by
  by_contra hdisc
  rw [Bool.not_eq_false, disconnected, decide_eq_true_eq] at hdisc
  have hall : Finset.univ ⊆ (s.received.map Prod.fst).toFinset := by
    intro i _
    have hi := hdisc i
    cases hthread : s.threads i with
    | done r =>
      have hmem := (h.sent i _).2 ⟨r, hthread, rfl⟩
      rw [hempty, List.append_nil] at hmem
      exact List.mem_toFinset.2 (List.mem_map_of_mem hmem)
    | _ =>
      rw [hthread] at hi
      cases hi
  have hcard := (Finset.card_le_card hall).trans (List.toFinset_card_le _)
  rw [Finset.card_univ, Fintype.card_fin, List.length_map] at hcard
  omega

theorem Inv.stepCollector (h : s.Inv) (hn : 0 < n) : s.stepCollector.Inv := by
  have hcollector := h.collector
  unfold MultiVcpu.stepCollector
  cases hc : s.collector with
  | spawned =>
    rw [hc] at hcollector
    exact ⟨h.flag, h.canceled, h.sent, h.nodup, h.final, hcollector⟩
  | receiving i =>
    rw [hc] at hcollector
    dsimp only
    split_ifs with hi
    · exact h.setCollector ⟨hcollector, hi⟩
    · have hle := h.received_length_le
      have hcount : s.received.length = i := hcollector
      exact h.setCollector (Or.inl (by omega))
  | waiting i limit =>
    rw [hc] at hcollector
    obtain ⟨hcount, hi⟩ := hcollector
    dsimp only
    cases hchannel : s.channel with
    | cons message rest => exact h.receive hcount hchannel
    | nil =>
      dsimp only
      rw [h.not_disconnected (by omega) hchannel]
      exact h
  | stopping =>
    rw [hc] at hcollector
    have hraise := h.raise (h.caused hn hcollector)
    exact hraise.setCollector hcollector
  | joinWatchdog =>
    rw [hc] at hcollector
    dsimp only
    split_ifs
    · exact h.setCollector hcollector
    · exact h
  | joinVcpus i =>
    rw [hc] at hcollector
    dsimp only
    split_ifs
    · exact h.setCollector hcollector
    · exact h
    · exact h.setCollector hcollector
  | returned => exact h

theorem Inv.step (h : s.Inv) (hn : 0 < n) {e : ThreadEvent n} (htimely : s.Timely e) :
    (s.step e).Inv := by
  cases e with
  | elapse ms => exact ⟨h.flag, h.canceled, h.sent, h.nodup, h.final, h.collector⟩
  | callerStops =>
    exact ⟨fun _ => Or.inl rfl, fun _ _ => Or.inl rfl, h.sent, h.nodup, h.final, h.collector⟩
  | vcpu i => exact h.stepVcpu i
  | turn i turn => exact h.stepTurn i turn
  | watchdog => exact h.stepWatchdog
  | collector => exact h.stepCollector hn
  | timeout =>
    unfold MultiVcpu.step
    split_ifs with hout
    · exact h.setCollector (Or.inr (htimely rfl hout))
    · exact h

/-- In every run in which the deadline does not pass before a result is in, the flag is raised for a
reason only, and the result is the first that is not `Canceled`. -/
theorem ends_for_a_reason (n : ℕ) (hn : 2 ≤ n) (stopFlag : Bool) (events : List (ThreadEvent n))
    (htimely : Runs.EachStep step (start n stopFlag) Timely events) :
    Runs.Always step (start n stopFlag) EndsForReason events := by
  have hinv : Runs.Always step (start n stopFlag) Inv events :=
    htimely.always (inv_start stopFlag) fun _ _ h ht => h.step (by omega) ht
  exact fun before after heq => (hinv before after heq).endsForReason

/-- The guest on the first of two vCPUs halts. -/
def guestHalts : List (ThreadEvent 2) :=
  [.collector, .collector, .vcpu 1, .vcpu 0, .turn 0 .halt, .vcpu 0, .vcpu 0, .vcpu 0, .vcpu 0,
    .vcpu 0, .turn 1 .goOn, .vcpu 1, .vcpu 1, .vcpu 1, .collector, .collector, .collector,
    .collector, .collector, .watchdog, .watchdog, .watchdog, .watchdog, .collector, .collector,
    .collector, .collector]

/-- It returns `Halt`, for the halt of the first vCPU. -/
theorem ends_for_a_reason_halt :
    (guestHalts.foldl step (start 2 false)).collector = .returned ∧
    (guestHalts.foldl step (start 2 false)).finalReason = .halt ∧
    (guestHalts.foldl step (start 2 false)).EndsForReason := by
  refine ⟨by decide +kernel, by decide +kernel, ?_⟩
  refine ends_for_a_reason 2 (by decide) false guestHalts ?_ guestHalts [] (List.append_nil _).symm
  intro before e after heq he
  have hmem : ThreadEvent.timeout ∈ guestHalts := by
    rw [heq, he]
    simp
  exact absurd hmem (by decide)

/-- Both vCPUs are well, and are stopped after three seconds. -/
theorem healthy_vm_stopped : ¬ ∀ (n : ℕ), 2 ≤ n → ∀ (stopFlag : Bool)
    (events : List (ThreadEvent n)), Runs.Always step (start n stopFlag) EndsForReason events := by
  intro h
  have hrun := h 2 (by decide) false [.collector, .collector, .vcpu 0, .vcpu 1, .turn 0 .goOn,
    .elapse 3000, .timeout, .collector] _ [] (List.append_nil _).symm
  rcases hrun.flag (by decide +kernel) with hcaller | ⟨i, r, hr, -⟩
  · revert hcaller
    decide +kernel
  · revert hr
    fin_cases i <;> exact nofun

end MultiVcpu

end Hitz.Vmm

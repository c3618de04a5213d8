import Hitz.Daemon.Restart
import Hitz.Daemon.Router

/-!
# The HTTP server (`hitz-daemon/src/server.rs`, `route` of `hitz-daemon/src/router.rs`)

Every connection has a task that takes one request after the other and calls `route`; the handler
either answers by itself or calls the manager and waits for its reply.  The tasks share the manager,
so between a call and its reply the steps of other requests, of VMs and of the shutdown come in any
order.  `Server` is the manager with the handlers that wait for it, and with the answered requests.

* `Progress`, `Silent`: what a step of an operation does to the reply it owes, with `remaining`, the
  number of its steps until then;
* `Books`, `Waits`: the invariants of all runs;
* `server_answers` and `server_answers_within`: whatever the interleaving, every request has its own
  answer, once, and soon.
-/

namespace Hitz.Daemon

open Api

/-! ### The server -/

/-- The manager, the handlers that wait for it, each with its request and the status of a success,
and the answered requests. -/
structure Server where
  manager : Manager
  waiting : ℕ → Option (HttpRequest × ℕ) := fun _ => none
  exchanges : List (ℕ × HttpRequest × Response) := []

/-- What happens next: a request comes in, an operation takes its next step, or the daemon shuts
down. -/
inductive ServerEvent
  | request (p : ℕ) (req : HttpRequest) (files : String → Bool)
  | own (event : Event)
  | stopAll (p : ℕ) (files : String → Bool)

/-- The step is the call of a client. -/
def Event.isCall : Event → Bool
  | .call .. => true
  | _ => false

namespace Server

/-- The handler of the operation `r.1` renders the reply. -/
def answer (json : ApiJson) (s : Server) (r : ℕ × Reply) : Server :=
  match s.waiting r.1 with
  | none => s
  | some (req, status) => { s with
      waiting := Function.update s.waiting r.1 none
      exchanges := s.exchanges ++ [(r.1, req, render json status r.2)] }

/-- The manager has moved on to `m`: its new replies go to the handlers. -/
def deliver (json : ApiJson) (s : Server) (m : Manager) : Server :=
  (m.replies.drop s.manager.replies.length).foldl (answer json) { s with manager := m }

/-- The handler of the operation `p` begins to wait. -/
def register (s : Server) (p : ℕ) (req : HttpRequest) (status : ℕ) : Server :=
  { s with waiting := Function.update s.waiting p (some (req, status)) }

/-- One step; an operation has an identity of its own. -/
def step (json : ApiJson) (s : Server) : ServerEvent → Option Server
  | .request p req files =>
    if s.manager.ops p = none then
      match handle json s.manager req with
      | .respond response => some { s with exchanges := s.exchanges ++ [(p, req, response)] }
      | .call request status =>
        some ((s.register p req status).deliver json (s.manager.call p files request))
    else none
  | .own event =>
    if event.isCall = false then (s.manager.step event).map (s.deliver json) else none
  | .stopAll p files => (s.manager.step (.call p .stopAll files)).map (s.deliver json)

/-- The server of a daemon that has just been started. -/
def new (store : StateStore) : Server := { manager := Manager.new store }

/-- A run. -/
def run (json : ApiJson) (s : Server) : List ServerEvent → Option Server
  | [] => some s
  | event :: events => (s.step json event).bind fun s => s.run json events

/-- The requests of `p` that have had their answer. -/
def answered (s : Server) (p : ℕ) : List HttpRequest :=
  s.exchanges.filterMap fun e => if e.1 = p then some e.2.1 else none

/-- The request of `p` that waits for its answer. -/
def pending (s : Server) (p : ℕ) : List HttpRequest := ((s.waiting p).map Prod.fst).toList

end Server

namespace ServerEvent

/-- The request that comes in from `p`. -/
def requestOf (p : ℕ) : ServerEvent → Option HttpRequest
  | .request q req _ => if q = p then some req else none
  | _ => none

/-- The step of the manager that an event leads to. -/
def managerEvent (json : ApiJson) : ServerEvent → Option Event
  | .request p req files => (req.call json).map fun c => .call p c.1 files
  | .own event => some event
  | .stopAll p files => some (.call p .stopAll files)

/-- A step of the operation `p` after its call. -/
def isStepOf (p : ℕ) : ServerEvent → Bool
  | .own event => event.op = p
  | _ => false

end ServerEvent

/-! ### What an operation owes -/

namespace Manager

/-- The largest number of steps an operation takes until it replies; an operation that has replied,
or never will, has none. -/
def remaining : Option Op → ℕ
  | some (.cloneCreate ..) => 4
  | some (.saveConfig _) => 3
  | some (.saveCreated _) => 2
  | some (.rollback ..) => 1
  | some (.saveRunning ..) => 1
  | some (.deleteDir _) => 1
  | some (.awaitStop _ polls) => polls + 3
  | some (.restartStart _) => 2
  | _ => 0

/-- A step of the operation `p` replies to its client, or leaves fewer than `bound` steps to do. -/
structure Progress (m m' : Manager) (p bound : ℕ) : Prop where
  ops : ∀ q, q ≠ p → m'.ops q = m.ops q
  replies : (∃ r, m'.replies = m.replies ++ [(p, r)] ∧ remaining (m'.ops p) = 0) ∨
    (m'.replies = m.replies ∧ 0 < remaining (m'.ops p) ∧ remaining (m'.ops p) < bound)

/-- A step of the operation `p`, which owes no reply. -/
structure Silent (m m' : Manager) (p : ℕ) : Prop where
  ops : ∀ q, q ≠ p → m'.ops q = m.ops q
  replies : m'.replies = m.replies
  remaining : remaining (m'.ops p) = 0

section Steps

variable {m m' : Manager} {p bound : ℕ}

theorem Progress.mono {bound' : ℕ} (h : Progress m m' p bound) (hle : bound ≤ bound') :
    Progress m m' p bound' := by
  refine ⟨h.ops, ?_⟩
  rcases h.replies with hreply | ⟨hreplies, hpos, hlt⟩
  · exact Or.inl hreply
  · exact Or.inr ⟨hreplies, hpos, lt_of_lt_of_le hlt hle⟩

/-- The operation ends with a reply. -/
theorem Progress.over (r : Reply) (hops : m'.ops = Function.update m.ops p none)
    (hreplies : m'.replies = m.replies ++ [(p, r)]) : Progress m m' p bound := by
  refine ⟨fun q hq => by rw [hops, Function.update_of_ne hq], Or.inl ⟨r, hreplies, ?_⟩⟩
  rw [hops, Function.update_self]
  rfl

/-- The operation goes on with `op`. -/
theorem Progress.goOn (op : Op) (hops : m'.ops = Function.update m.ops p (some op))
    (hreplies : m'.replies = m.replies) (hpos : 0 < remaining (some op))
    (hlt : remaining (some op) < bound) : Progress m m' p bound := by
  refine ⟨fun q hq => by rw [hops, Function.update_of_ne hq], Or.inr ⟨hreplies, ?_⟩⟩
  rw [hops, Function.update_self]
  exact ⟨hpos, hlt⟩

/-- The call is answered at once. -/
theorem Progress.answered (hop : m.ops p = none) (r : Reply) (hops : m'.ops = m.ops)
    (hreplies : m'.replies = m.replies ++ [(p, r)]) : Progress m m' p bound :=
  Progress.over r (by rw [hops, ← hop, Function.update_eq_self]) hreplies

theorem Silent.goOn (op : Option Op) (hops : m'.ops = Function.update m.ops p op)
    (hreplies : m'.replies = m.replies) (hzero : Manager.remaining op = 0) : Silent m m' p := by
  refine ⟨fun q hq => by rw [hops, Function.update_of_ne hq], hreplies, ?_⟩
  rw [hops, Function.update_self, hzero]

theorem progress_createVm (files : String → Bool) (id : String) (config : VmConfig) :
    Progress m (m.createVm p files id config) p 4 := by
  unfold createVm createLock
  split_ifs
  · exact Progress.over _ rfl rfl
  split
  · exact Progress.over _ rfl rfl
  cases hid : m.vms.lookup id with
  | some entry => exact Progress.over _ rfl rfl
  | none =>
    exact Progress.goOn _ rfl rfl (show 0 < 3 by decide) (show 3 < 4 by decide)

theorem progress_startVm (id : String) : Progress m (m.startVm p id) p 2 := by
  unfold startVm startLock
  cases hid : m.vms.lookup id with
  | none => exact Progress.over _ rfl rfl
  | some entry =>
    by_cases hstate : entry.state = .created
    · simp only [hstate, ne_eq, not_true_eq_false, if_false]
      exact Progress.goOn _ rfl rfl (show 0 < 1 by decide) (show 1 < 2 by decide)
    · simp only [ne_eq, hstate, not_false_eq_true, if_true]
      exact Progress.over _ rfl rfl

/-- Every call but that of the shutdown has a reply to come. -/
theorem progress_call (hop : m.ops p = none) (files : String → Bool) {request : Request}
    (hstop : request ≠ .stopAll) : Progress m (m.call p files request) p 53 := by
  cases request with
  | create id config => exact (progress_createVm files id config).mono (by decide)
  | clone src dest =>
    simp only [call, getVm]
    cases hid : m.vms.lookup src with
    | none => exact Progress.answered hop _ rfl rfl
    | some entry => exact Progress.goOn _ rfl rfl (show 0 < 4 by decide) (show 4 < 53 by decide)
  | start id => exact (progress_startVm id).mono (by decide)
  | stop id =>
    simp only [call, stopLock]
    cases hid : m.vms.lookup id with
    | none => exact Progress.answered hop _ rfl rfl
    | some entry =>
      dsimp only
      split_ifs
      · exact Progress.answered hop _ rfl rfl
      · rw [raiseFlag_eq]
        exact Progress.answered hop _ rfl rfl
  | restart id =>
    simp only [call, stopLock]
    cases hid : m.vms.lookup id with
    | none => exact Progress.answered hop _ rfl rfl
    | some entry =>
      dsimp only
      split_ifs
      · exact Progress.answered hop _ rfl rfl
      · rw [raiseFlag_eq]
        exact Progress.goOn _ rfl rfl (show 0 < 52 by decide) (show 52 < 53 by decide)
  | delete id =>
    simp only [call, deleteLock]
    cases hid : m.vms.lookup id with
    | none => exact Progress.answered hop _ rfl rfl
    | some entry =>
      dsimp only
      split_ifs
      · exact Progress.answered hop _ rfl rfl
      · exact Progress.goOn _ rfl rfl (show 0 < 1 by decide) (show 1 < 53 by decide)
  | stopAll => exact absurd rfl hstop

theorem progress_poll (id : String) (polls : ℕ) :
    Progress m (m.poll p id polls) p (polls + 3) := by
  unfold poll getVm
  cases hid : m.vms.lookup id with
  | none => exact Progress.over _ rfl rfl
  | some entry =>
    dsimp only
    split_ifs
    · exact Progress.goOn (.restartStart id) rfl rfl (show 0 < 2 by decide)
        (show 2 < polls + 3 by omega)
    · cases polls with
      | zero => exact Progress.over _ rfl rfl
      | succ polls =>
        exact Progress.goOn (.awaitStop id polls) rfl rfl (show 0 < polls + 3 by omega)
          (show polls + 3 < polls + 1 + 3 by omega)

theorem progress_lockSection {files : String → Bool} {op : Op}
    (howes : 0 < remaining (some op)) (h : m.lockSection p files op = some m') :
    Progress m m' p (remaining (some op)) := by
  cases op with
  | cloneCreate dest config =>
    cases h
    exact progress_createVm files dest config
  | rollback id e =>
    cases h
    exact Progress.over _ rfl rfl
  | awaitStop id polls =>
    cases h
    exact progress_poll id polls
  | restartStart id =>
    cases h
    exact progress_startVm id
  | exitUpdate task result => exact absurd howes (lt_irrefl 0)
  | _ => cases h

theorem progress_storeCall {op : Op} {fault : Option DaemonError}
    (howes : 0 < remaining (some op)) (h : m.storeCall p op fault = some m') :
    Progress m m' p (remaining (some op)) := by
  cases op with
  | saveConfig info =>
    cases fault with
    | none =>
      cases h
      exact Progress.goOn _ rfl rfl (show 0 < 2 by decide) (show 2 < 3 by decide)
    | some e =>
      cases h
      exact Progress.goOn _ rfl rfl (show 0 < 1 by decide) (show 1 < 3 by decide)
  | saveCreated info =>
    cases fault with
    | none =>
      cases h
      exact Progress.over _ rfl rfl
    | some e =>
      cases h
      exact Progress.goOn _ rfl rfl (show 0 < 1 by decide) (show 1 < 2 by decide)
  | saveRunning info task =>
    cases fault with
    | none =>
      cases h
      -- the reply goes out although the operation goes on as the task of the VM
      refine ⟨fun q hq => Function.update_of_ne hq .., Or.inl ⟨.ok (some info), rfl, ?_⟩⟩
      show remaining (Function.update m.ops p (some (.boot task)) p) = 0
      rw [Function.update_self]
      rfl
    | some e =>
      cases h
      exact Progress.over _ rfl rfl
  | deleteDir id =>
    cases fault with
    | none =>
      cases h
      exact Progress.over _ rfl rfl
    | some e =>
      cases h
      exact Progress.over _ rfl rfl
  | saveExit id state => exact absurd howes (lt_irrefl 0)
  | _ => cases h

/-- A step of an operation that owes a reply. -/
theorem progress_step {event : Event} (hcall : event.isCall = false)
    (howes : 0 < remaining (m.ops event.op)) (h : m.step event = some m') :
    Progress m m' event.op (remaining (m.ops event.op)) := by
  cases event with
  | call p request files => cases hcall
  | lock p files =>
    obtain ⟨op, hop, h⟩ := Option.bind_eq_some_iff.1 h
    simp only [Event.op, hop] at howes ⊢
    exact progress_lockSection howes h
  | store p fault =>
    obtain ⟨op, hop, h⟩ := Option.bind_eq_some_iff.1 h
    simp only [Event.op, hop] at howes ⊢
    exact progress_storeCall howes h
  | returns p result =>
    obtain ⟨op, hop, h⟩ := Option.bind_eq_some_iff.1 h
    simp only [Event.op, hop] at howes
    cases op with
    | boot task => exact absurd howes (lt_irrefl 0)
    | _ => cases h

/-- A step of an operation that owes no reply: that of a VM's task. -/
theorem silent_step {event : Event} (hcall : event.isCall = false)
    (hnone : remaining (m.ops event.op) = 0) (h : m.step event = some m') :
    Silent m m' event.op := by
  cases event with
  | call p request files => cases hcall
  | lock p files =>
    obtain ⟨op, hop, h⟩ := Option.bind_eq_some_iff.1 h
    simp only [Event.op, hop] at hnone
    cases op with
    | exitUpdate task result =>
      simp only [lockSection, exitLock] at h
      cases hid : m.vms.lookup task.id with
      | none =>
        rw [hid] at h
        cases h
        exact Silent.goOn none rfl rfl rfl
      | some entry =>
        rw [hid] at h
        cases h
        exact Silent.goOn _ rfl rfl rfl
    | cloneCreate | rollback | awaitStop | restartStart => simp [remaining] at hnone
    | _ => cases h
  | store p fault =>
    obtain ⟨op, hop, h⟩ := Option.bind_eq_some_iff.1 h
    simp only [Event.op, hop] at hnone
    cases op with
    | saveExit id state =>
      cases fault with
      | none =>
        cases h
        exact Silent.goOn none rfl rfl rfl
      | some e =>
        cases h
        exact Silent.goOn none rfl rfl rfl
    | saveConfig | saveCreated | saveRunning | deleteDir => simp [remaining] at hnone
    | _ => cases h
  | returns p result =>
    obtain ⟨op, hop, h⟩ := Option.bind_eq_some_iff.1 h
    cases op with
    | boot task =>
      simp only [bootReturns] at h
      cases result with
      | exited reason =>
        cases h
        exact Silent.goOn _ rfl rfl rfl
      | failed message =>
        cases h
        exact Silent.goOn _ rfl rfl rfl
      | panicked message =>
        cases h
        exact Silent.goOn _ rfl rfl rfl
    | _ => cases h

theorem silent_stopAll (hop : m.ops p = none) : Silent m m.stopAll p := by
  rw [stopAll_eq]
  refine ⟨fun _ _ => rfl, rfl, ?_⟩
  show remaining (m.ops p) = 0
  rw [hop]
  rfl

theorem Progress.remaining_le (h : Progress m m' p bound) (hbound : bound ≤ 53)
    (hle : ∀ q, Manager.remaining (m.ops q) ≤ 52) (q : ℕ) : Manager.remaining (m'.ops q) ≤ 52 := by
  by_cases hq : q = p
  · subst hq
    rcases h.replies with ⟨r, -, hzero⟩ | ⟨-, -, hlt⟩
    · rw [hzero]
      exact Nat.zero_le _
    · omega
  · rw [h.ops q hq]
    exact hle q

theorem Silent.remaining_le (h : Silent m m' p) (hle : ∀ q, Manager.remaining (m.ops q) ≤ 52)
    (q : ℕ) : Manager.remaining (m'.ops q) ≤ 52 := by
  by_cases hq : q = p
  · subst hq
    rw [h.remaining]
    exact Nat.zero_le _
  · rw [h.ops q hq]
    exact hle q

/-- An operation that owes a reply can take its next step. -/
theorem exists_step (howes : 0 < remaining (m.ops p)) :
    ∃ event, event.op = p ∧ event.isCall = false ∧ (m.step event).isSome := by
  cases hop : m.ops p with
  | none =>
    rw [hop] at howes
    exact absurd howes (lt_irrefl 0)
  | some op =>
    rw [hop] at howes
    cases op with
    | cloneCreate | rollback | awaitStop | restartStart =>
      refine ⟨.lock p fun _ => true, rfl, rfl, ?_⟩
      simp [step, hop, lockSection]
    | saveConfig | saveCreated | saveRunning | deleteDir =>
      refine ⟨.store p none, rfl, rfl, ?_⟩
      simp [step, hop, storeCall]
    | boot | exitUpdate | saveExit => exact absurd howes (lt_irrefl 0)

end Steps

end Manager

/-! ### Replies and answers -/

namespace Server

variable {json : ApiJson} {s s' : Server} {m : Manager} {p : ℕ}

theorem deliver_none (h : m.replies = s.manager.replies) :
    s.deliver json m = { s with manager := m } := by
  unfold deliver
  rw [h, List.drop_length]
  rfl

theorem deliver_reply {r : Reply} {req : HttpRequest} {status : ℕ}
    (hwait : s.waiting p = some (req, status)) (h : m.replies = s.manager.replies ++ [(p, r)]) :
    s.deliver json m = { s with
      manager := m
      waiting := Function.update s.waiting p none
      exchanges := s.exchanges ++ [(p, req, render json status r)] } := by
  unfold deliver
  rw [h, List.drop_left, List.foldl_cons, List.foldl_nil]
  simp only [answer, hwait]

/-- The exchange is that of a call, and its answer is the rendered reply. -/
def Rendered (json : ApiJson) (e : ℕ × HttpRequest × Response) (r : ℕ × Reply) : Prop :=
  e.1 = r.1 ∧ e.2.2.isSuccess = r.2.isOk ∧
    ∃ request status, e.2.1.call json = some (request, status) ∧ e.2.2 = render json status r.2

/-- The exchanges in which the manager was called. -/
def calling (json : ApiJson) (exchanges : List (ℕ × HttpRequest × Response)) :
    List (ℕ × HttpRequest × Response) :=
  exchanges.filter fun e => (e.2.1.call json).isSome

/-- Requests and answers match. -/
structure Books (json : ApiJson) (m₀ : Manager) (events : List ServerEvent) (s : Server) :
    Prop where
  requests : ∀ p, events.filterMap (ServerEvent.requestOf p) = s.answered p ++ s.pending p
  waitsFor : ∀ p req status, s.waiting p = some (req, status) →
    ∃ request, req.call json = some (request, status)
  rendered : List.Forall₂ (Rendered json) (calling json s.exchanges) s.manager.replies
  immediate : ∀ e ∈ s.exchanges, e.2.1.call json = none → ∃ before after m, events = before ++ after ∧
    m₀.run (before.filterMap (ServerEvent.managerEvent json)) = some m ∧
      handle json m e.2.1 = .respond e.2.2

/-- The handlers that wait are those whose operation owes a reply. -/
def Waits (s : Server) : Prop :=
  ∀ p, s.waiting p = none ↔ Manager.remaining (s.manager.ops p) = 0

section Books

variable {m₀ : Manager} {events : List ServerEvent}

theorem immediate_append {e : ℕ × HttpRequest × Response} (event : ServerEvent)
    (h : ∃ before after m, events = before ++ after ∧
      m₀.run (before.filterMap (ServerEvent.managerEvent json)) = some m ∧
        handle json m e.2.1 = .respond e.2.2) :
    ∃ before after m, events ++ [event] = before ++ after ∧
      m₀.run (before.filterMap (ServerEvent.managerEvent json)) = some m ∧
        handle json m e.2.1 = .respond e.2.2 := by
  obtain ⟨before, after, m, rfl, hrun, hhandle⟩ := h
  exact ⟨before, after ++ [event], m, List.append_assoc .., hrun, hhandle⟩

/-- An event that is no request. -/
theorem Books.pass (h : Books json m₀ events s) {event : ServerEvent}
    (hnone : ∀ p, event.requestOf p = none) : Books json m₀ (events ++ [event]) s := by
  refine ⟨fun p => ?_, h.waitsFor, h.rendered, fun e he hcall => ?_⟩
  · rw [List.filterMap_append, h.requests p, List.filterMap_cons_none (hnone p), List.filterMap_nil,
      List.append_nil]
  · exact immediate_append event (h.immediate e he hcall)

theorem pending_of_none (h : s.waiting p = none) : s.pending p = [] := by
  unfold pending
  rw [h]
  rfl

theorem register_waiting (s : Server) (p : ℕ) (req : HttpRequest) (status : ℕ) :
    (s.register p req status).waiting p = some (req, status) :=
  Function.update_self ..

/-- A handler begins to wait. -/
theorem Books.register (h : Books json m₀ events s) (hfree : s.waiting p = none) {req : HttpRequest}
    {request : Request} {status : ℕ} (hcall : req.call json = some (request, status))
    (files : String → Bool) :
    Books json m₀ (events ++ [.request p req files]) (s.register p req status) := by
  refine ⟨fun q => ?_, fun q req' status' hq => ?_, h.rendered, fun e he hnone => ?_⟩
  · rw [List.filterMap_append, h.requests q]
    by_cases hq : p = q
    · subst hq
      rw [pending_of_none hfree, List.append_nil]
      simp [ServerEvent.requestOf, pending, answered, Server.register]
    · simp [ServerEvent.requestOf, pending, answered, Server.register, hq,
        Function.update_of_ne (Ne.symm hq)]
  · have hq : Function.update s.waiting p (some (req, status)) q = some (req', status') := hq
    rcases update_eq_some hq with ⟨-, hq⟩ | ⟨-, hq⟩
    · cases hq
      exact ⟨request, hcall⟩
    · exact h.waitsFor q req' status' hq
  · exact immediate_append _ (h.immediate e he hnone)

theorem answered_append (q : ℕ) (req : HttpRequest) (response : Response)
    (exchanges : List (ℕ × HttpRequest × Response)) :
    ((exchanges ++ [(p, req, response)]).filterMap fun e => if e.1 = q then some e.2.1 else none) =
      (exchanges.filterMap fun e => if e.1 = q then some e.2.1 else none) ++
        (if p = q then [req] else []) := by
  rw [List.filterMap_append]
  by_cases hq : p = q
  · simp [hq]
  · simp [hq]

/-- A handler answers by itself. -/
theorem Books.respond (h : Books json m₀ events s) (hfree : s.waiting p = none) {req : HttpRequest}
    {response : Response} (hhandle : handle json s.manager req = .respond response)
    (hrun : m₀.run (events.filterMap (ServerEvent.managerEvent json)) = some s.manager)
    (files : String → Bool) : Books json m₀ (events ++ [.request p req files])
      { s with exchanges := s.exchanges ++ [(p, req, response)] } := by
  have hcall : req.call json = none := call_of_respond hhandle
  refine ⟨fun q => ?_, h.waitsFor, ?_, fun e he hnone => ?_⟩
  · show _ = (List.filterMap _ (s.exchanges ++ [(p, req, response)])) ++ s.pending q
    rw [List.filterMap_append, h.requests q, answered_append]
    by_cases hq : p = q
    · subst hq
      rw [pending_of_none hfree]
      simp [ServerEvent.requestOf, answered]
    · simp [ServerEvent.requestOf, answered, hq]
  · show List.Forall₂ _ (calling json (s.exchanges ++ [(p, req, response)])) _
    have hskip : calling json [(p, req, response)] = [] := by simp [calling, hcall]
    unfold calling at hskip ⊢
    rw [List.filter_append, hskip, List.append_nil]
    exact h.rendered
  · rcases List.mem_append.1 he with he | he
    · exact immediate_append _ (h.immediate e he hnone)
    · obtain rfl := List.mem_singleton.1 he
      exact ⟨events, [_], s.manager, rfl, hrun, hhandle⟩

/-- The manager moves on and replies to nobody. -/
theorem Books.silent (h : Books json m₀ events s) (hreplies : m.replies = s.manager.replies) :
    Books json m₀ events (s.deliver json m) := by
  rw [deliver_none hreplies]
  refine ⟨h.requests, h.waitsFor, ?_, h.immediate⟩
  show List.Forall₂ _ _ m.replies
  rw [hreplies]
  exact h.rendered

/-- The manager replies to a handler that waits. -/
theorem Books.reply (h : Books json m₀ events s) {r : Reply} {req : HttpRequest} {status : ℕ}
    (hwait : s.waiting p = some (req, status)) (hreplies : m.replies = s.manager.replies ++ [(p, r)]) :
    Books json m₀ events (s.deliver json m) := by
  obtain ⟨request, hcall⟩ := h.waitsFor p req status hwait
  rw [deliver_reply hwait hreplies]
  refine ⟨fun q => ?_, fun q req' status' hq => ?_, ?_, fun e he hnone => ?_⟩
  · show _ = List.filterMap _ (s.exchanges ++ [(p, req, render json status r)]) ++
      ((Function.update s.waiting p none q).map Prod.fst).toList
    rw [h.requests q, answered_append]
    by_cases hq : p = q
    · subst hq
      simp [answered, pending, hwait]
    · simp [answered, pending, hq, Function.update_of_ne (Ne.symm hq)]
  · have hq : Function.update s.waiting p none q = some (req', status') := hq
    rcases update_eq_some hq with ⟨-, hq⟩ | ⟨-, hq⟩
    · cases hq
    · exact h.waitsFor q req' status' hq
  · show List.Forall₂ _ (calling json (s.exchanges ++ [(p, req, render json status r)])) m.replies
    have hkeep : calling json [(p, req, render json status r)] = [(p, req, render json status r)] := by
      simp [calling, hcall]
    unfold calling at hkeep ⊢
    rw [hreplies, List.filter_append, hkeep]
    refine List.rel_append h.rendered (List.Forall₂.cons ?_ List.Forall₂.nil)
    exact ⟨rfl, render_isSuccess (call_status hcall) r, request, status, hcall, rfl⟩
  · rcases List.mem_append.1 he with he | he
    · exact h.immediate e he hnone
    · obtain rfl := List.mem_singleton.1 he
      rw [hcall] at hnone
      cases hnone

/-- A step of an operation that owes a reply to a handler. -/
theorem Books.progress {bound : ℕ} (h : Books json m₀ events s) {req : HttpRequest} {status : ℕ}
    (hwait : s.waiting p = some (req, status)) (hprog : s.manager.Progress m p bound) :
    Books json m₀ events (s.deliver json m) := by
  rcases hprog.replies with ⟨r, hreplies, -⟩ | ⟨hreplies, -⟩
  · exact h.reply hwait hreplies
  · exact h.silent hreplies

end Books

/-! ### Runs -/

theorem answer_manager (r : ℕ × Reply) : (s.answer json r).manager = s.manager := by
  unfold answer
  split
  · rfl
  · rfl

theorem deliver_manager (s : Server) (m : Manager) : (s.deliver json m).manager = m := by
  unfold deliver
  generalize m.replies.drop s.manager.replies.length = replies
  have hfold : ∀ s' : Server, (replies.foldl (answer json) s').manager = s'.manager := by
    induction replies with
    | nil => exact fun _ => rfl
    | cons r replies ih => exact fun s' => (ih (s'.answer json r)).trans (answer_manager r)
  exact hfold { s with manager := m }

theorem waits_progress {req : HttpRequest} {status bound : ℕ}
    (hothers : ∀ q, q ≠ p → (s.waiting q = none ↔ Manager.remaining (s.manager.ops q) = 0))
    (hwait : s.waiting p = some (req, status)) (hprog : s.manager.Progress m p bound) :
    Waits (s.deliver json m) := by
  intro q
  rw [deliver_manager]
  rcases hprog.replies with ⟨r, hreplies, hzero⟩ | ⟨hreplies, hpos, -⟩
  · rw [deliver_reply hwait hreplies]
    by_cases hq : q = p
    · subst hq
      simp [hzero]
    · rw [hprog.ops q hq, ← hothers q hq]
      show Function.update s.waiting p none q = none ↔ _
      rw [Function.update_of_ne hq]
  · rw [deliver_none hreplies]
    by_cases hq : q = p
    · subst hq
      show s.waiting q = none ↔ _
      rw [hwait]
      constructor
      · intro h
        cases h
      · exact fun h => absurd h (Nat.pos_iff_ne_zero.1 hpos)
    · rw [hprog.ops q hq]
      exact hothers q hq

theorem waits_silent (hwaits : Waits s) (hsilent : s.manager.Silent m p)
    (hnone : s.waiting p = none) : Waits (s.deliver json m) := by
  intro q
  rw [deliver_none hsilent.replies]
  show s.waiting q = none ↔ Manager.remaining (m.ops q) = 0
  by_cases hq : q = p
  · subst hq
    exact ⟨fun _ => hsilent.remaining, fun _ => hnone⟩
  · rw [hsilent.ops q hq]
    exact hwaits q

/-- What holds after every run: the books and the waiting handlers are right, and the run is one of
the manager. -/
structure Accounts (json : ApiJson) (m₀ : Manager) (events : List ServerEvent) (s : Server) : Prop
    extends Books json m₀ events s where
  waits : Waits s
  remaining_le : ∀ p, Manager.remaining (s.manager.ops p) ≤ 52
  run : m₀.run (events.filterMap (ServerEvent.managerEvent json)) = some s.manager

end Server

theorem Manager.run_append_singleton {m m' : Manager} {events : List Event} (event : Event)
    (h : m.run events = some m') : m.run (events ++ [event]) = m'.step event := by
  induction events generalizing m with
  | nil =>
    cases h
    show (m'.step event).bind some = m'.step event
    exact Option.bind_fun_some _
  | cons e events ih =>
    obtain ⟨m₁, hstep, hrun⟩ := Option.bind_eq_some_iff.1 h
    show (m.step e).bind _ = _
    rw [hstep]
    exact ih hrun

namespace Server

section Runs

variable {json : ApiJson} {m₀ m : Manager} {s s' : Server} {events : List ServerEvent} {p : ℕ}

theorem Accounts.run_step (h : Accounts json m₀ events s) {event : ServerEvent} {e : Event}
    (hevent : event.managerEvent json = some e) (hstep : s.manager.step e = some m) :
    m₀.run ((events ++ [event]).filterMap (ServerEvent.managerEvent json)) = some m := by
  rw [List.filterMap_append, List.filterMap_cons_some hevent, List.filterMap_nil,
    Manager.run_append_singleton e h.run, hstep]

theorem Accounts.call (h : Accounts json m₀ events s) {req : HttpRequest} {request : Request}
    {status : ℕ} (hidle : s.manager.ops p = none) (hcall : req.call json = some (request, status))
    (files : String → Bool) : Accounts json m₀ (events ++ [.request p req files])
      ((s.register p req status).deliver json (s.manager.call p files request)) := by
  have hfree : s.waiting p = none := (h.waits p).2 (by rw [hidle]; rfl)
  have hstop : request ≠ .stopAll := by
    rintro rfl
    exact call_ne_stopAll hcall
  have hprog := Manager.progress_call hidle files hstop
  have hwait := s.register_waiting p req status
  refine ⟨(h.register hfree hcall files).progress hwait hprog,
    waits_progress (fun q hq => ?_) hwait hprog, ?_, ?_⟩
  · show Function.update s.waiting p (some (req, status)) q = none ↔
      Manager.remaining (s.manager.ops q) = 0
    rw [← h.waits q, Function.update_of_ne hq]
  · rw [deliver_manager]
    exact hprog.remaining_le (le_refl _) h.remaining_le
  · rw [deliver_manager]
    refine h.run_step (e := .call p request files) ?_ ?_
    · simp only [ServerEvent.managerEvent, hcall, Option.map_some]
    · simp only [Manager.step, hidle, if_true]

theorem Accounts.own (h : Accounts json m₀ events s) {event : Event} (hcall : event.isCall = false)
    (hstep : s.manager.step event = some m) :
    Accounts json m₀ (events ++ [.own event]) (s.deliver json m) := by
  have hbooks : Books json m₀ (events ++ [ServerEvent.own event]) s := h.toBooks.pass fun _ => rfl
  have hrun : m₀.run ((events ++ [ServerEvent.own event]).filterMap (ServerEvent.managerEvent json)) =
      some (s.deliver json m).manager := by
    rw [deliver_manager]
    exact h.run_step rfl hstep
  by_cases hzero : Manager.remaining (s.manager.ops event.op) = 0
  · have hsilent := Manager.silent_step hcall hzero hstep
    refine ⟨hbooks.silent hsilent.replies,
      waits_silent h.waits hsilent ((h.waits event.op).2 hzero), ?_, hrun⟩
    rw [deliver_manager]
    exact hsilent.remaining_le h.remaining_le
  · obtain ⟨⟨req, status⟩, hwait⟩ :=
      Option.ne_none_iff_exists'.1 fun hnone => hzero ((h.waits event.op).1 hnone)
    have hprog := Manager.progress_step hcall (Nat.pos_of_ne_zero hzero) hstep
    refine ⟨hbooks.progress hwait hprog, waits_progress (fun q _ => h.waits q) hwait hprog, ?_,
      hrun⟩
    have hle := h.remaining_le event.op
    rw [deliver_manager]
    exact hprog.remaining_le (by omega) h.remaining_le

theorem Accounts.stopAll (h : Accounts json m₀ events s) {files : String → Bool}
    (hstep : s.manager.step (.call p .stopAll files) = some m) :
    Accounts json m₀ (events ++ [.stopAll p files]) (s.deliver json m) := by
  have hidle : s.manager.ops p = none := by
    by_contra hne
    simp [Manager.step, hne] at hstep
  obtain rfl : s.manager.stopAll = m := by
    simp only [Manager.step, hidle, if_true, Option.some.injEq] at hstep
    exact hstep
  have hsilent := Manager.silent_stopAll hidle
  refine ⟨(h.toBooks.pass fun _ => rfl).silent hsilent.replies,
    waits_silent h.waits hsilent ((h.waits p).2 (by rw [hidle]; rfl)), ?_, ?_⟩
  · rw [deliver_manager]
    exact hsilent.remaining_le h.remaining_le
  · rw [deliver_manager]
    exact h.run_step rfl hstep

theorem Accounts.step (h : Accounts json m₀ events s) {event : ServerEvent}
    (hstep : s.step json event = some s') : Accounts json m₀ (events ++ [event]) s' := by
  cases event with
  | request p req files =>
    simp only [Server.step] at hstep
    split_ifs at hstep with hidle
    cases hhandle : handle json s.manager req with
    | respond response =>
      rw [hhandle] at hstep
      cases hstep
      have hfree : s.waiting p = none := (h.waits p).2 (by rw [hidle]; rfl)
      refine ⟨h.toBooks.respond hfree hhandle h.run files, h.waits, h.remaining_le, ?_⟩
      have hskip : (ServerEvent.request p req files).managerEvent json = none := by
        simp only [ServerEvent.managerEvent, call_of_respond hhandle, Option.map_none]
      rw [List.filterMap_append, List.filterMap_cons_none hskip, List.filterMap_nil, List.append_nil]
      exact h.run
    | call request status =>
      rw [hhandle] at hstep
      cases hstep
      exact h.call hidle (handle_eq_call_iff.1 hhandle) files
  | own event =>
    simp only [Server.step] at hstep
    split_ifs at hstep with hcall
    obtain ⟨m, hm, rfl⟩ := Option.map_eq_some_iff.1 hstep
    exact h.own hcall hm
  | stopAll p files =>
    obtain ⟨m, hm, rfl⟩ := Option.map_eq_some_iff.1 hstep
    exact h.stopAll hm

theorem Accounts.run_from (h : Accounts json m₀ events s) {later : List ServerEvent}
    (hrun : s.run json later = some s') : Accounts json m₀ (events ++ later) s' := by
  induction later generalizing s events with
  | nil =>
    cases hrun
    rwa [List.append_nil]
  | cons event later ih =>
    obtain ⟨s₁, hstep, hrun⟩ := Option.bind_eq_some_iff.1 hrun
    have hlater := ih (h.step hstep) hrun
    rwa [List.append_assoc] at hlater

theorem manager_new_eq {α : Type} (f : Manager → α) (h : ∀ m vm, f (m.recover vm) = f m)
    (store : StateStore) : f (Manager.new store) = f { store } := by
  have hfold : ∀ (vms : List (String × VmConfig × VmState)) (m : Manager),
      f (vms.foldl Manager.recover m) = f m := by
    intro vms
    induction vms with
    | nil => exact fun _ => rfl
    | cons vm vms ih => exact fun m => (ih (m.recover vm)).trans (h m vm)
  exact hfold _ _

theorem accounts_new (json : ApiJson) (store : StateStore) :
    Accounts json (Manager.new store) [] (new store) := by
  have hops := manager_new_eq Manager.ops (fun _ _ => rfl) store
  have hreplies := manager_new_eq Manager.replies (fun _ _ => rfl) store
  refine ⟨⟨fun _ => rfl, ?_, ?_, ?_⟩, fun p => ?_, fun p => ?_, rfl⟩
  · intro p req status h
    cases h
  · show List.Forall₂ _ [] (Manager.new store).replies
    rw [hreplies]
    exact List.Forall₂.nil
  · intro e he
    cases he
  · show none = none ↔ Manager.remaining ((Manager.new store).ops p) = 0
    rw [hops]
    exact ⟨fun _ => rfl, fun _ => rfl⟩
  · show Manager.remaining ((Manager.new store).ops p) ≤ 52
    rw [hops]
    exact Nat.zero_le _

/-! ### How soon an answer comes -/

theorem deliver_exchanges (s : Server) (m : Manager) :
    s.exchanges <+: (s.deliver json m).exchanges := by
  unfold deliver
  generalize m.replies.drop s.manager.replies.length = replies
  have hfold : ∀ s' : Server, s'.exchanges <+: (replies.foldl (answer json) s').exchanges := by
    induction replies with
    | nil => exact fun s' => List.prefix_refl _
    | cons r replies ih =>
      intro s'
      refine List.IsPrefix.trans ?_ (ih (s'.answer json r))
      unfold answer
      split
      · exact List.prefix_refl _
      · exact List.prefix_append _ _
  exact hfold { s with manager := m }

theorem step_exchanges {event : ServerEvent} (h : s.step json event = some s') :
    s.exchanges <+: s'.exchanges := by
  cases event with
  | request p req files =>
    simp only [Server.step] at h
    split_ifs at h
    split at h
    · cases h
      exact List.prefix_append _ _
    · cases h
      exact deliver_exchanges (s.register p req _) _
  | own event =>
    simp only [Server.step] at h
    split_ifs at h
    obtain ⟨m, -, rfl⟩ := Option.map_eq_some_iff.1 h
    exact deliver_exchanges s m
  | stopAll p files =>
    obtain ⟨m, -, rfl⟩ := Option.map_eq_some_iff.1 h
    exact deliver_exchanges s m

theorem run_exchanges (h : s.run json events = some s') : s.exchanges <+: s'.exchanges := by
  induction events generalizing s with
  | nil =>
    cases h
    exact List.prefix_refl _
  | cons event events ih =>
    obtain ⟨s₁, hstep, hrun⟩ := Option.bind_eq_some_iff.1 h
    exact (step_exchanges hstep).trans (ih hrun)

/-- The reply to another handler leaves this one waiting. -/
theorem deliver_waiting {q : ℕ} (hq : p ≠ q) {req : HttpRequest} {status bound : ℕ}
    (hwait : s.waiting q = some (req, status)) (hprog : s.manager.Progress m q bound) :
    (s.deliver json m).waiting p = s.waiting p := by
  rcases hprog.replies with ⟨r, hreplies, -⟩ | ⟨hreplies, -⟩
  · rw [deliver_reply hwait hreplies]
    exact Function.update_of_ne hq ..
  · rw [deliver_none hreplies]

/-- The handler has its answer, or still waits and has come closer with a step of its own. -/
theorem Accounts.advance (h : Accounts json m₀ events s) {req : HttpRequest} {status : ℕ}
    (hwait : s.waiting p = some (req, status)) {event : ServerEvent}
    (hstep : s.step json event = some s') :
    (∃ response, s'.exchanges = s.exchanges ++ [(p, req, response)]) ∨
      (s'.waiting p = some (req, status) ∧ Manager.remaining (s'.manager.ops p) +
        (if event.isStepOf p then 1 else 0) ≤ Manager.remaining (s.manager.ops p)) := by
  have howes : Manager.remaining (s.manager.ops p) ≠ 0 := by
    intro hzero
    rw [(h.waits p).2 hzero] at hwait
    cases hwait
  have hbusy : ∀ q, s.manager.ops q = none → p ≠ q := by
    rintro q hidle rfl
    exact howes (by rw [hidle]; rfl)
  cases event with
  | request q req' files =>
    simp only [Server.step] at hstep
    split_ifs at hstep with hidle
    have hq := hbusy q hidle
    cases hhandle : handle json s.manager req' with
    | respond response =>
      rw [hhandle] at hstep
      cases hstep
      exact Or.inr ⟨hwait, le_refl _⟩
    | call request status' =>
      rw [hhandle] at hstep
      cases hstep
      have hstop : request ≠ .stopAll := by
        rintro rfl
        exact call_ne_stopAll (handle_eq_call_iff.1 hhandle)
      have hprog := Manager.progress_call hidle files hstop
      refine Or.inr ⟨?_, ?_⟩
      · have hwait' := s.register_waiting q req' status'
        rw [deliver_waiting hq hwait' hprog]
        exact (Function.update_of_ne hq ..).trans hwait
      · rw [deliver_manager, hprog.ops p hq]
        exact le_refl _
  | own event =>
    simp only [Server.step] at hstep
    split_ifs at hstep with hcall
    obtain ⟨m, hm, rfl⟩ := Option.map_eq_some_iff.1 hstep
    by_cases hp : event.op = p
    · subst hp
      have hprog := Manager.progress_step hcall (Nat.pos_of_ne_zero howes) hm
      rcases hprog.replies with ⟨r, hreplies, -⟩ | ⟨hreplies, -, hlt⟩
      · rw [deliver_reply hwait hreplies]
        exact Or.inl ⟨_, rfl⟩
      · rw [deliver_none hreplies]
        refine Or.inr ⟨hwait, ?_⟩
        simp only [ServerEvent.isStepOf, decide_true, if_true]
        omega
    · have hother : (s.deliver json m).waiting p = s.waiting p ∧ m.ops p = s.manager.ops p := by
        by_cases hzero : Manager.remaining (s.manager.ops event.op) = 0
        · have hsilent := Manager.silent_step hcall hzero hm
          rw [deliver_none hsilent.replies]
          exact ⟨rfl, hsilent.ops p (Ne.symm hp)⟩
        · obtain ⟨⟨req', status'⟩, hwait'⟩ :=
            Option.ne_none_iff_exists'.1 fun hnone => hzero ((h.waits event.op).1 hnone)
          have hprog := Manager.progress_step hcall (Nat.pos_of_ne_zero hzero) hm
          exact ⟨deliver_waiting (Ne.symm hp) hwait' hprog, hprog.ops p (Ne.symm hp)⟩
      refine Or.inr ⟨hother.1.trans hwait, ?_⟩
      rw [deliver_manager, hother.2]
      simp [ServerEvent.isStepOf, hp]
  | stopAll q files =>
    obtain ⟨m, hm, rfl⟩ := Option.map_eq_some_iff.1 hstep
    have hidle : s.manager.ops q = none := by
      by_contra hne
      simp [Manager.step, hne] at hm
    obtain rfl : s.manager.stopAll = m := by
      simp only [Manager.step, hidle, if_true, Option.some.injEq] at hm
      exact hm
    have hsilent := Manager.silent_stopAll hidle
    rw [deliver_none hsilent.replies]
    refine Or.inr ⟨hwait, ?_⟩
    show Manager.remaining (s.manager.stopAll.ops p) + 0 ≤ _
    rw [hsilent.ops p (hbusy q hidle)]
    exact le_refl _

theorem mem_drop_of_prefix {α : Type} {a : α} {l l₁ l₂ : List α} (h : l <+: l₁)
    (hmem : a ∈ l₂.drop l₁.length) : a ∈ l₂.drop l.length := by
  have hle := h.length_le
  rw [← Nat.add_sub_cancel' hle, ← List.drop_drop] at hmem
  exact List.mem_of_mem_drop hmem

/-- Steps of other operations cannot keep a handler from its answer. -/
theorem Accounts.within (h : Accounts json m₀ events s) {req : HttpRequest} {status : ℕ}
    (hwait : s.waiting p = some (req, status)) {later : List ServerEvent}
    (hrun : s.run json later = some s')
    (hsteps : Manager.remaining (s.manager.ops p) ≤ later.countP (ServerEvent.isStepOf p)) :
    ∃ response, (p, req, response) ∈ s'.exchanges.drop s.exchanges.length := by
  induction later generalizing s events with
  | nil =>
    rw [(h.waits p).2 (Nat.le_zero.1 hsteps)] at hwait
    cases hwait
  | cons event later ih =>
    obtain ⟨s₁, hstep, hrun⟩ := Option.bind_eq_some_iff.1 hrun
    rcases h.advance hwait hstep with ⟨response, hanswer⟩ | ⟨hwait₁, hle⟩
    · refine ⟨response, ?_⟩
      obtain ⟨more, hmore⟩ := run_exchanges hrun
      rw [← hmore, hanswer, List.append_assoc, List.drop_left]
      exact List.mem_append_left _ (List.mem_singleton_self _)
    · have hsteps₁ : Manager.remaining (s₁.manager.ops p) ≤
          later.countP (ServerEvent.isStepOf p) := by
        rw [List.countP_cons] at hsteps
        omega
      obtain ⟨response, hmem⟩ := ih (h.step hstep) hwait₁ hrun hsteps₁
      exact ⟨response, mem_drop_of_prefix (step_exchanges hstep) hmem⟩

end Runs

end Server

section Answers

variable {json : ApiJson} {store : StateStore} {events : List ServerEvent} {s : Server}

/-- In every run, whatever the interleaving of requests, operations, VMs, failing store calls and
the shutdown: the manager sees a run of its own, with exactly the calls of the requests; the requests
of an operation are those that have been answered, in order, and at most one that waits; the answers
to calls are the replies of the manager, one for one and in order, each rendered for the request that
made the call; and any other answer is that of the handler to the manager it saw. -/
theorem server_answers (h : (Server.new store).run json events = some s) :
    (Manager.new store).run (events.filterMap (ServerEvent.managerEvent json)) = some s.manager ∧
    (∀ p, events.filterMap (ServerEvent.requestOf p) = s.answered p ++ s.pending p) ∧
    List.Forall₂ (Server.Rendered json) (Server.calling json s.exchanges) s.manager.replies ∧
    ∀ e ∈ s.exchanges, e.2.1.call json = none → ∃ before after m, events = before ++ after ∧
      (Manager.new store).run (before.filterMap (ServerEvent.managerEvent json)) = some m ∧
        handle json m e.2.1 = .respond e.2.2 := by
  have haccounts := (Server.accounts_new json store).run_from h
  rw [List.nil_append] at haccounts
  exact ⟨haccounts.run, haccounts.requests, haccounts.rendered, haccounts.immediate⟩

/-- JSON texts for requests without a body, and for errors whose text needs no escape. -/
def plainJson : ApiJson where
  encodeCreate _ := []
  decodeCreate _ := .error "EOF while parsing a value at line 1 column 0"
  encodeAction _ := []
  decodeAction _ := .error "EOF while parsing a value at line 1 column 0"
  encodeClone _ := []
  decodeClone _ := .error "EOF while parsing a value at line 1 column 0"
  encodeInfo _ := []
  encodeList _ := []
  encodeError message := ("\x7b\"message\":\"" ++ message ++ "\"\x7d").toUTF8.toList

/-- The store of a daemon with one VM. -/
def storedVm : StateStore where
  dirs := AList.insert "vm" { config := some { kernelPath := "vmlinux", ramMib := 256 } } ∅

/-- A request to delete a VM. -/
def deleteRequest (path : String) : HttpRequest := ⟨.delete, path, .ok []⟩

/-- Two clients delete the same VM. -/
def deletedTwice : List ServerEvent :=
  [.request 0 (deleteRequest "/vms/vm") fun _ => true,
    .request 1 (deleteRequest "/vms/vm") fun _ => true]

theorem server_answers_deleted_twice : ∃ s,
    (Server.new storedVm).run plainJson deletedTwice = some s ∧
    deletedTwice.filterMap (ServerEvent.requestOf 0) = s.answered 0 ++ s.pending 0 ∧
    s.exchanges = [(1, deleteRequest "/vms/vm",
      errorResponse plainJson 404 "VM not found: vm")] := by
  obtain ⟨s, hs⟩ : ∃ s, (Server.new storedVm).run plainJson deletedTwice = some s := ⟨_, rfl⟩
  refine ⟨s, hs, (server_answers hs).2.1 0, ?_⟩
  cases hs
  rfl

/-- A request that waits is never stuck: its operation can take its next step, and however the other
operations interleave with it, it is answered by the time it has taken 52 steps. -/
theorem server_answers_within (h : (Server.new store).run json events = some s) {p : ℕ}
    {req : HttpRequest} (hpending : req ∈ s.pending p) :
    (∃ event, event.op = p ∧ (s.step json (.own event)).isSome) ∧
    ∀ later s', s.run json later = some s' → 52 ≤ later.countP (ServerEvent.isStepOf p) →
      ∃ response, (p, req, response) ∈ s'.exchanges.drop s.exchanges.length := by
  have haccounts := (Server.accounts_new json store).run_from h
  obtain ⟨⟨req', status⟩, hwait, rfl⟩ := Option.map_eq_some_iff.1 (Option.mem_toList.1 hpending)
  have howes : 0 < Manager.remaining (s.manager.ops p) := by
    refine Nat.pos_of_ne_zero fun hzero => ?_
    rw [(haccounts.waits p).2 hzero] at hwait
    cases hwait
  constructor
  · obtain ⟨event, hop, hcall, hstep⟩ := Manager.exists_step howes
    refine ⟨event, hop, ?_⟩
    simp only [Server.step, hcall, if_true, Option.isSome_map, hstep]
  · intro later s' hrun hsteps
    exact haccounts.within hwait hrun ((haccounts.remaining_le p).trans hsteps)

theorem server_answers_within_delete : ∃ s s', (Server.new storedVm).run plainJson
    deletedTwice = some s ∧ s.run plainJson [.own (.store 0 none)] = some s' ∧
      s'.exchanges.drop 1 = [(0, deleteRequest "/vms/vm", ⟨204, none, .full []⟩)] ∧
      ∃ event, event.op = 0 ∧ (s.step plainJson (.own event)).isSome := by
  obtain ⟨s, hs⟩ : ∃ s, (Server.new storedVm).run plainJson deletedTwice = some s := ⟨_, rfl⟩
  have hpending : deleteRequest "/vms/vm" ∈ s.pending 0 := by
    cases hs
    exact List.mem_singleton_self _
  obtain ⟨s', hs'⟩ : ∃ s', s.run plainJson [.own (.store 0 none)] = some s' := by
    cases hs
    exact ⟨_, rfl⟩
  refine ⟨s, s', hs, hs', ?_, (server_answers_within hs hpending).1⟩
  cases hs
  cases hs'
  rfl

end Answers

end Hitz.Daemon

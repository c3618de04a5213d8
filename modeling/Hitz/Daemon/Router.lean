import Hitz.Daemon.VmManager
import Hitz.Vmm.Boot

/-!
# The HTTP router (`hitz-daemon/src/router.rs`)

`route` finds the handler of a request from its method and path, `handle` is that handler up to the
call of the manager: it answers at once, or calls the manager and renders the reply.  JSON comes
from outside (`ApiJson`); `hyper` hands over the path without its query and the bytes of the body.

The handlers that read (`list`, `get`, `serial`, `metrics`) never call the manager's operations, and
`metrics` answers the same error whatever the manager holds: the pull is not implemented.
-/

namespace Hitz.Daemon

open Api Boot Vmm

/-! ### Texts of the errors -/

/-- `{:?}` of a state. -/
def debugState : VmState → String
  | .created => "Created"
  | .running => "Running"
  | .stopped => "Stopped"
  | .failed => "Failed"

/-- The text of a boot error. -/
def displayBootError : BootError → String
  | .invalidElf message => "invalid ELF: " ++ message
  | .loadSegment gpa size reason =>
    "failed to load segment at GPA " ++ Boot.hex gpa ++ ", size " ++ toString size ++ ": " ++ reason
  | .writeFailed message => "write to guest memory failed: " ++ message
  | .invalidBootParams message => "invalid boot params: " ++ message
  | .invalidPageTableConfig message => "invalid page table config: " ++ message

/-- The text of a VMM error. -/
def displayVmError : VmError → String
  | .io message => "I/O error: " ++ message
  | .mem e => "memory error: " ++ e.display
  | .hal e => "hypervisor error: " ++ e.display
  | .boot e => "boot error: " ++ displayBootError e
  | .config message => "config error: " ++ message

/-- The text of a daemon error. -/
def DaemonError.display : DaemonError → String
  | .notFound id => "VM not found: " ++ id
  | .alreadyExists id => "VM already exists: " ++ id
  | .invalidState id state expected =>
    "VM \"" ++ id ++ "\" is " ++ debugState state ++ ", expected " ++ expected
  | .vmm e => "VMM error: " ++ displayVmError e
  | .io message => "I/O error: " ++ message
  | .internal message => "internal error: " ++ message

/-! ### Requests and responses -/

/-- The methods that the router tells apart. -/
inductive Method
  | get
  | put
  | post
  | delete
  | other (name : String)
  deriving DecidableEq, Repr

/-- What a client sends.  The body ends with an error when the connection does. -/
structure HttpRequest where
  method : Method
  path : String
  body : Except String (List UInt8)

/-- `VmAction`. -/
inductive VmAction
  | start
  | stop
  | restart
  deriving DecidableEq, Repr

/-- What a body holds: bytes, or the chunks of a serial buffer as they come. -/
inductive Body
  | full (bytes : List UInt8)
  | serial (buf : ℕ)
  deriving DecidableEq, Repr

/-- What the client gets back. -/
structure Response where
  status : ℕ
  contentType : Option String
  body : Body
  deriving DecidableEq, Repr

/-- `StatusCode::is_success`. -/
def Response.isSuccess (r : Response) : Bool := 200 ≤ r.status && r.status < 300

/-- The JSON texts of the API; the client writes what the daemon reads and the other way round. -/
structure ApiJson where
  encodeCreate : VmConfig → List UInt8
  decodeCreate : List UInt8 → Except String VmConfig
  encodeAction : VmAction → List UInt8
  decodeAction : List UInt8 → Except String VmAction
  encodeClone : String → List UInt8
  decodeClone : List UInt8 → Except String String
  encodeInfo : VmInfo → List UInt8
  encodeList : List VmInfo → List UInt8
  encodeError : String → List UInt8

/-- `json_response`. -/
def jsonResponse (status : ℕ) (json : List UInt8) : Response :=
  ⟨status, some "application/json", .full json⟩

/-- `error_response`. -/
def errorResponse (json : ApiJson) (status : ℕ) (message : String) : Response :=
  jsonResponse status (json.encodeError message)

/-- The status of an error. -/
def DaemonError.status : DaemonError → ℕ
  | .notFound _ => 404
  | .alreadyExists _ => 409
  | .invalidState .. => 409
  | .vmm (.config _) => 400
  | _ => 500

/-- `daemon_error_response`. -/
def daemonErrorResponse (json : ApiJson) (e : DaemonError) : Response :=
  errorResponse json e.status e.display

/-- The response to a reply of the manager; `status` is that of a reply with a VM. -/
def render (json : ApiJson) (status : ℕ) : Reply → Response
  | .ok (some info) => jsonResponse status (json.encodeInfo info)
  | .ok none => ⟨204, none, .full []⟩
  | .error e => daemonErrorResponse json e

/-! ### Routing -/

/-- `str::splitn`: at most `n` pieces, the last of them with the rest of the text. -/
def splitn (sep : Char) : ℕ → List Char → List (List Char)
  | 0, _ => []
  | 1, s => [s]
  | n + 2, s =>
    match s.span (· ≠ sep) with
    | (piece, []) => [piece]
    | (piece, _ :: rest) => piece :: splitn sep (n + 1) rest

/-- The handler of a request, or the answer of the router itself. -/
inductive Route
  | list
  | create (id : String)
  | get (id : String)
  | serial (id : String)
  | metrics (id : String)
  | delete (id : String)
  | action (id : String)
  | clone (id : String)
  | missingId
  | notFound
  | methodNotAllowed
  deriving DecidableEq, Repr

/-- `route_vm`. -/
def routeVm (method : Method) (id : String) (suffix : Option String) : Route :=
  match method, suffix with
  | .put, none => .create id
  | .get, none => .get id
  | .delete, none => .delete id
  | .get, some suffix =>
    if suffix = "serial" then .serial id
    else if suffix = "metrics" then .metrics id
    else .methodNotAllowed
  | .post, some suffix =>
    if suffix = "action" then .action id
    else if suffix = "clone" then .clone id
    else .methodNotAllowed
  | _, _ => .methodNotAllowed

/-- `"/vms/"`. -/
def vmsPrefix : List Char := ['/', 'v', 'm', 's', '/']

/-- `route`. -/
def route (method : Method) (path : String) : Route :=
  if method = .get ∧ path = "/vms" then .list
  else if vmsPrefix <+: path.toList then
    let segments := splitn '/' 4 path.toList
    match segments[2]? with
    | none => .missingId
    | some [] => .missingId
    | some id => routeVm method (String.ofList id) (segments[3]?.map String.ofList)
  else .notFound

/-! ### Handlers -/

/-- What the manager does for reading requests. -/
def Manager.listVms (m : Manager) : List VmInfo := m.vms.entries.map fun e => e.2.toInfo e.1

/-- `serial_reader`: the buffer of an entry that has been started. -/
def Manager.serialReader (m : Manager) (id : String) : Except DaemonError ℕ :=
  match m.vms.lookup id with
  | none => .error (.notFound id)
  | some entry =>
    match entry.serialBuf with
    | none => .error (.invalidState id entry.state "Running (with serial buffer)")
    | some buf => .ok buf

/-- The largest body. -/
def bodyLimit : ℕ := 1024 * 1024

/-- Read a body and decode it. -/
def readJson {α : Type} (decode : List UInt8 → Except String α)
    (body : Except String (List UInt8)) : Except DaemonError α :=
  match body with
  | .error e => .error (.internal ("failed to read request body: " ++ e))
  | .ok bytes =>
    if bodyLimit < bytes.length then
      .error (.internal "failed to read request body: length limit exceeded")
    else (decode bytes).mapError fun e => .internal ("invalid JSON: " ++ e)

/-- What a handler does: answer, or call the manager and answer its reply. -/
inductive Outcome
  | respond (response : Response)
  | call (request : Request) (status : ℕ)

/-- The call for an action. -/
def VmAction.request (id : String) : VmAction → Request
  | .start => .start id
  | .stop => .stop id
  | .restart => .restart id

/-- A handler that decodes its body and then calls the manager. -/
def decodeThen {α : Type} (json : ApiJson) (status : ℕ) (body : Except DaemonError α)
    (request : α → Request) : Outcome :=
  match body with
  | .error e => .respond (daemonErrorResponse json e)
  | .ok a => .call (request a) status

/-- A handler that only looks something up. -/
def lookUp {α : Type} (json : ApiJson) (found : α → Response) : Except DaemonError α → Outcome
  | .error e => .respond (daemonErrorResponse json e)
  | .ok a => .respond (found a)

/-- The handlers, up to the call of the manager. -/
def handle (json : ApiJson) (m : Manager) (req : HttpRequest) : Outcome :=
  match route req.method req.path with
  | .list => .respond (jsonResponse 200 (json.encodeList m.listVms))
  | .create id => decodeThen json 201 (readJson json.decodeCreate req.body) (.create id)
  | .get id => lookUp json (fun info => jsonResponse 200 (json.encodeInfo info)) (m.getVm id)
  | .serial id =>
    lookUp json (fun buf => ⟨200, some "application/octet-stream", .serial buf⟩) (m.serialReader id)
  | .metrics _ => .respond (errorResponse json 503 ("vsock metrics not available " ++
      "(push-to-OTel mode active; on-demand pull not yet implemented)"))
  | .delete id => .call (.delete id) 204
  | .action id => decodeThen json 200 (readJson json.decodeAction req.body) (VmAction.request id)
  | .clone id => decodeThen json 201 (readJson json.decodeClone req.body) (.clone id)
  | .missingId => .respond (errorResponse json 400 "missing VM ID")
  | .notFound => .respond (errorResponse json 404 "not found")
  | .methodNotAllowed => .respond (errorResponse json 405 "method not allowed")

/-! ### Which requests call the manager -/

/-- The call that a request leads to, with the status of its success; it does not depend on the
manager. -/
def HttpRequest.call (json : ApiJson) (req : HttpRequest) : Option (Request × ℕ) :=
  match route req.method req.path with
  | .create id => (readJson json.decodeCreate req.body).toOption.map fun c => (.create id c, 201)
  | .delete id => some (.delete id, 204)
  | .action id => (readJson json.decodeAction req.body).toOption.map fun a => (a.request id, 200)
  | .clone id => (readJson json.decodeClone req.body).toOption.map fun d => (.clone id d, 201)
  | _ => none

theorem decodeThen_eq_call_iff {α : Type} {json : ApiJson} {status status' : ℕ}
    {body : Except DaemonError α} {request : α → Request} {r : Request} :
    decodeThen json status body request = .call r status' ↔
      body.toOption.map (fun a => (request a, status)) = some (r, status') := by
  cases body with
  | error e => simp [decodeThen, Except.toOption]
  | ok a => simp [decodeThen, Except.toOption]

theorem lookUp_ne_call {α : Type} {json : ApiJson} {found : α → Response}
    {result : Except DaemonError α} {r : Request} {status : ℕ} :
    lookUp json found result ≠ .call r status := by
  cases result <;> simp [lookUp]

/-- A request calls the manager exactly as its method, path and body say. -/
theorem handle_eq_call_iff {json : ApiJson} {m : Manager} {req : HttpRequest} {r : Request}
    {status : ℕ} : handle json m req = .call r status ↔ req.call json = some (r, status) := by
  unfold handle HttpRequest.call
  cases route req.method req.path with
  | create id => exact decodeThen_eq_call_iff
  | action id => exact decodeThen_eq_call_iff
  | clone id => exact decodeThen_eq_call_iff
  | delete id => simp
  | get id => simp [lookUp_ne_call]
  | serial id => simp [lookUp_ne_call]
  | list | metrics | missingId | notFound | methodNotAllowed => simp

theorem call_of_respond {json : ApiJson} {m : Manager} {req : HttpRequest} {response : Response}
    (h : handle json m req = .respond response) : req.call json = none := by
  cases hcall : req.call json with
  | none => rfl
  | some c =>
    rw [(handle_eq_call_iff (m := m)).2 hcall] at h
    cases h

/-- No request is a shutdown. -/
theorem call_ne_stopAll {json : ApiJson} {req : HttpRequest} {status : ℕ} :
    req.call json ≠ some (.stopAll, status) := by
  unfold HttpRequest.call
  cases route req.method req.path with
  | create id => cases (readJson json.decodeCreate req.body).toOption <;> simp
  | action id =>
    cases (readJson json.decodeAction req.body).toOption with
    | none => simp
    | some action => cases action <;> simp [VmAction.request]
  | clone id => cases (readJson json.decodeClone req.body).toOption <;> simp
  | _ => simp

/-- The handlers that call the manager's operations. -/
def Route.changes : Route → Bool
  | .create _ => true
  | .delete _ => true
  | .action _ => true
  | .clone _ => true
  | _ => false

theorem call_eq_none {json : ApiJson} {req : HttpRequest}
    (h : (route req.method req.path).changes = false) : req.call json = none := by
  unfold HttpRequest.call
  generalize route req.method req.path = r at h
  cases r with
  | create | delete | action | clone => cases h
  | _ => rfl

theorem routeVm_get_changes (id : String) (suffix : Option String) :
    (routeVm .get id suffix).changes = false := by
  cases suffix with
  | none => rfl
  | some suffix =>
    show (if suffix = "serial" then Route.serial id
      else if suffix = "metrics" then Route.metrics id else .methodNotAllowed).changes = false
    split_ifs <;> rfl

theorem route_get_changes (path : String) : (route .get path).changes = false := by
  unfold route
  by_cases hlist : Method.get = .get ∧ path = "/vms"
  · rw [if_pos hlist]
    rfl
  · rw [if_neg hlist]
    by_cases hvms : vmsPrefix <+: path.toList
    · rw [if_pos hvms]
      dsimp only
      split
      · rfl
      · rfl
      · exact routeVm_get_changes _ _
    · rw [if_neg hvms]
      rfl

/-- A `GET` calls nothing. -/
theorem call_get {json : ApiJson} {req : HttpRequest} (h : req.method = .get) :
    req.call json = none := by
  refine call_eq_none ?_
  rw [h]
  exact route_get_changes req.path

/-- The manager calls have a status of success, and the error statuses are none. -/
theorem call_status {json : ApiJson} {req : HttpRequest} {r : Request} {status : ℕ}
    (h : req.call json = some (r, status)) : status = 200 ∨ status = 201 ∨ status = 204 := by
  unfold HttpRequest.call at h
  split at h
  · obtain ⟨c, -, hc⟩ := Option.map_eq_some_iff.1 h
    cases hc
    simp
  · cases h
    simp
  · obtain ⟨c, -, hc⟩ := Option.map_eq_some_iff.1 h
    cases hc
    simp
  · obtain ⟨c, -, hc⟩ := Option.map_eq_some_iff.1 h
    cases hc
    simp
  · cases h

theorem DaemonError.status_ge (e : DaemonError) : 400 ≤ e.status := by
  cases e with
  | vmm e => cases e <;> simp [status]
  | _ => simp [status]

/-- A response reports success exactly when the reply does. -/
theorem render_isSuccess {json : ApiJson} {status : ℕ}
    (h : status = 200 ∨ status = 201 ∨ status = 204) (reply : Reply) :
    (render json status reply).isSuccess = reply.isOk := by
  cases reply with
  | error e =>
    have he := e.status_ge
    show (200 ≤ e.status && e.status < 300) = false
    simp only [Bool.and_eq_false_imp, decide_eq_true_eq, decide_eq_false_iff_not]
    omega
  | ok info =>
    cases info with
    | none => rfl
    | some info => rcases h with rfl | rfl | rfl <;> rfl

/-! ### Paths -/

theorem span_ne_of_notMem {sep : Char} {s : List Char} (h : sep ∉ s) :
    s.span (· ≠ sep) = (s, []) := by
  rw [List.span_eq_takeWhile_dropWhile]
  have hall : ∀ c ∈ s, (decide (c ≠ sep)) = true := by
    intro c hc
    simp only [ne_eq, decide_not, Bool.not_eq_true', decide_eq_false_iff_not]
    rintro rfl
    exact h hc
  rw [List.takeWhile_eq_self_iff.2 hall, List.dropWhile_eq_nil_iff.2 hall]

theorem span_ne_append {sep : Char} {a : List Char} (h : sep ∉ a) (b : List Char) :
    (a ++ sep :: b).span (· ≠ sep) = (a, sep :: b) := by
  induction a with
  | nil => simp [List.span_eq_takeWhile_dropWhile]
  | cons c a ih =>
    have hc : c ≠ sep := fun hc => h (by simp [hc])
    have ha : sep ∉ a := fun ha => h (by simp [ha])
    rw [List.span_eq_takeWhile_dropWhile] at ih ⊢
    obtain ⟨htake, hdrop⟩ := Prod.mk.inj (ih ha)
    rw [List.cons_append, List.takeWhile_cons_of_pos (by simpa using hc),
      List.dropWhile_cons_of_pos (by simpa using hc), htake, hdrop]

theorem splitn_of_notMem {sep : Char} {s : List Char} (h : sep ∉ s) (n : ℕ) :
    splitn sep (n + 1) s = [s] := by
  cases n with
  | zero => rfl
  | succ n => rw [splitn, span_ne_of_notMem h]

theorem splitn_append {sep : Char} {a : List Char} (h : sep ∉ a) (b : List Char) (n : ℕ) :
    splitn sep (n + 2) (a ++ sep :: b) = a :: splitn sep (n + 1) b := by
  rw [splitn, span_ne_append h]

theorem splitn_vmsPrefix (rest : List Char) :
    splitn '/' 4 (vmsPrefix ++ rest) = [] :: ['v', 'm', 's'] :: splitn '/' 2 rest := by
  have hvms : '/' ∉ ['v', 'm', 's'] := by decide
  show splitn '/' 4 ([] ++ '/' :: (['v', 'm', 's'] ++ '/' :: rest)) = _
  rw [splitn_append (by simp), splitn_append hvms]

theorem vmsPrefix_ne {path : String} {rest : List Char} (h : path.toList = vmsPrefix ++ rest) :
    path ≠ "/vms" := by
  rintro rfl
  have hlen : ("/vms" : String).toList.length = 4 := by decide +kernel
  rw [h, List.length_append] at hlen
  simp only [vmsPrefix, List.length_cons, List.length_nil] at hlen
  omega

/-- A path with an id and nothing behind it. -/
theorem route_id (method : Method) {path : String} {id : String} (hid : '/' ∉ id.toList)
    (hpath : path.toList = vmsPrefix ++ id.toList) :
    route method path = if id = "" then .missingId else routeVm method id none := by
  rw [route, if_neg fun h => vmsPrefix_ne hpath h.2, hpath, if_pos (List.prefix_append _ _),
    splitn_vmsPrefix, splitn_of_notMem hid]
  by_cases hnil : id = ""
  · subst hnil
    rfl
  · have hne : id.toList ≠ [] := fun h => hnil (String.toList_eq_nil_iff.1 h)
    rw [if_neg hnil]
    obtain ⟨c, cs, hcons⟩ := List.exists_cons_of_ne_nil hne
    have hofList : String.ofList (c :: cs) = id := by rw [← hcons, String.ofList_toList]
    simp only [hcons]
    show routeVm method (String.ofList (c :: cs)) none = _
    rw [hofList]

/-- A path with an id and a suffix. -/
theorem route_suffix (method : Method) {path : String} {a b : List Char} (ha : '/' ∉ a)
    (hpath : path.toList = vmsPrefix ++ (a ++ '/' :: b)) :
    route method path =
      if a = [] then .missingId
      else routeVm method (String.ofList a) (some (String.ofList b)) := by
  rw [route, if_neg fun h => vmsPrefix_ne hpath h.2, hpath, if_pos (List.prefix_append _ _),
    splitn_vmsPrefix, splitn_append ha]
  cases a with
  | nil => rfl
  | cons c cs => rfl

end Hitz.Daemon

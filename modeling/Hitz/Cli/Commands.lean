import Hitz.Daemon.Server

/-!
# The commands of the client (`hitz-cli/src/main.rs`, `hitz-cli/src/pipe_client.rs`)

Every `hitz vm` command is one HTTP request.  The client puts the id of the VM into the URI as it
is, and the router takes the URI apart again.  `Command.call` is what a command means for the
manager; it is the call that the router makes exactly when the id is `Addressable`: any other id is
refused before it reaches the manager.

`commands_drive_manager`: a daemon that is driven by commands sees exactly their calls, in order, and
a command reports success exactly when the manager did what it says.

The parser of URIs is the `http` crate's; `KeepsPaths` is what the client relies on.
-/

namespace Hitz.Cli

open Api Daemon

/-- The arguments of `vm create`. -/
structure VmCreateArgs where
  id : String
  kernel : String
  initramfs : Option String
  disk : Option String
  ram : UInt32
  cpus : UInt32
  cmdline : String
  net : Bool
  hostIp : String
  guestIp : String
  mac : Option String
  ports : List PortForward
  deriving DecidableEq, Repr

/-- The configuration that `handle_vm_create` sends. -/
def VmCreateArgs.config (args : VmCreateArgs) : VmConfig where
  kernelPath := args.kernel
  initramfsPath := args.initramfs
  diskPath := args.disk
  ramMib := args.ram
  cpus := args.cpus
  cmdline := some args.cmdline
  net := if args.net then
      some { mac := args.mac, hostIp := args.hostIp, guestIp := args.guestIp, adapterName := none }
    else none
  ports := args.ports
  guestCid := 3
  guestAgent := .auto

/-- The commands that are a single request. -/
inductive Command
  | create (args : VmCreateArgs)
  | clone (srcId destId : String)
  | act (id : String) (action : VmAction)
  | status (id : String)
  | list
  | delete (id : String)
  | serial (id : String)
  | metrics (id : String)
  deriving DecidableEq, Repr

namespace Command

/-! ### The request of a command -/

/-- The method. -/
def method : Command → Method
  | create _ => .put
  | clone .. => .post
  | act .. => .post
  | delete _ => .delete
  | _ => .get

/-- The text of the URI. -/
def uri : Command → String
  | create args => "/vms/" ++ args.id
  | clone srcId _ => "/vms/" ++ srcId ++ "/clone"
  | act id _ => "/vms/" ++ id ++ "/action"
  | status id => "/vms/" ++ id
  | list => "/vms"
  | delete id => "/vms/" ++ id
  | serial id => "/vms/" ++ id ++ "/serial"
  | metrics id => "/vms/" ++ id ++ "/metrics"

/-- The body. -/
def body (json : ApiJson) : Command → List UInt8
  | create args => json.encodeCreate args.config
  | clone _ destId => json.encodeClone destId
  | act _ action => json.encodeAction action
  | _ => []

/-- `do_request`: the request, unless its URI is invalid; `uriPath` is the path of a URI. -/
def send (json : ApiJson) (uriPath : String → Option String) (c : Command) : Option HttpRequest :=
  (uriPath c.uri).map fun path => ⟨c.method, path, .ok (c.body json)⟩

/-! ### What a command means -/

/-- The id that a command is about. -/
def target : Command → Option String
  | create args => some args.id
  | clone srcId _ => some srcId
  | act id _ => some id
  | status id => some id
  | list => none
  | delete id => some id
  | serial id => some id
  | metrics id => some id

/-- The ids that the router finds in a path: those that are one segment of it. -/
def Addressable (id : String) : Prop := id ≠ "" ∧ '/' ∉ id.toList

instance (id : String) : Decidable (Addressable id) := inferInstanceAs (Decidable (_ ∧ _))

/-- The call of the manager that a command asks for. -/
def request : Command → Option Request
  | create args => some (.create args.id args.config)
  | clone srcId destId => some (.clone srcId destId)
  | act id action => some (action.request id)
  | delete id => some (.delete id)
  | _ => none

/-- The call that a command leads to. -/
def call (c : Command) : Option Request :=
  if ∀ id ∈ c.target, Addressable id then c.request else none

/-! ### What the client relies on -/

/-- Characters that stand for themselves in a path. -/
def pathChar (c : Char) : Bool := c.isAlphanum || c ∈ ['/', '-', '.', '_', '~']

/-- A URI that is an absolute path of such characters, and not too long, is its own path. -/
def KeepsPaths (uriPath : String → Option String) : Prop :=
  ∀ text : String, text.toList.head? = some '/' → (∀ c ∈ text.toList, pathChar c = true) →
    text.length ≤ 65534 → uriPath text = some text

/-- The body can be read by the daemon: it is not too long, and decodes to what was encoded. -/
def Readable (json : ApiJson) (c : Command) : Prop :=
  (c.body json).length ≤ bodyLimit ∧ match c with
    | create args => json.decodeCreate (json.encodeCreate args.config) = .ok args.config
    | clone _ destId => json.decodeClone (json.encodeClone destId) = .ok destId
    | act _ action => json.decodeAction (json.encodeAction action) = .ok action
    | _ => True

/-- A command that can be sent: its id stands for itself in a path, and its body can be read. -/
structure Sendable (json : ApiJson) (c : Command) : Prop where
  chars : ∀ id ∈ c.target, ∀ ch ∈ id.toList, pathChar ch = true
  length : c.uri.length ≤ 65534
  readable : c.Readable json

/-! ### Routing -/

section Routing

variable {json : ApiJson} {uriPath : String → Option String} {c : Command}

/-- What stands behind the id in a URI. -/
def suffix : Command → List Char
  | clone .. => ['/', 'c', 'l', 'o', 'n', 'e']
  | act .. => ['/', 'a', 'c', 't', 'i', 'o', 'n']
  | serial _ => ['/', 's', 'e', 'r', 'i', 'a', 'l']
  | metrics _ => ['/', 'm', 'e', 't', 'r', 'i', 'c', 's']
  | _ => []

theorem uri_toList {id : String} (h : c.target = some id) :
    c.uri.toList = vmsPrefix ++ (id.toList ++ c.suffix) := by
  have hvms : ("/vms/" : String).toList = vmsPrefix := by decide +kernel
  cases c with
  | list => cases h
  | create args =>
    cases h
    simp [uri, suffix, hvms]
  | _ =>
    cases h
    simp [uri, suffix, hvms, vmsPrefix]

/-- The URI of a command that can be sent is its own path. -/
theorem Sendable.send_eq (h : c.Sendable json) (hkeeps : KeepsPaths uriPath) :
    c.send json uriPath = some ⟨c.method, c.uri, .ok (c.body json)⟩ := by
  have hsuffix : ∀ ch ∈ c.suffix, pathChar ch = true := by
    rw [← List.all_eq_true]
    cases c <;> rfl
  have hvms : ∀ ch ∈ vmsPrefix, pathChar ch = true := List.all_eq_true.1 rfl
  have hpath : uriPath c.uri = some c.uri := by
    cases htarget : c.target with
    | none =>
      cases c with
      | list =>
        have hlist : ("/vms" : String).toList = ['/', 'v', 'm', 's'] := by decide +kernel
        refine hkeeps "/vms" ?_ ?_ h.length
        · rw [hlist]
          rfl
        · rw [hlist]
          exact List.all_eq_true.1 rfl
      | _ => cases htarget
    | some id =>
      have huri := uri_toList htarget
      refine hkeeps _ ?_ (fun ch hch => ?_) h.length
      · rw [huri]
        rfl
      · rw [huri] at hch
        rcases List.mem_append.1 hch with hch | hch
        · exact hvms ch hch
        · rcases List.mem_append.1 hch with hch | hch
          · exact h.chars id htarget ch hch
          · exact hsuffix ch hch
  unfold send
  rw [hpath, Option.map_some]

/-- The handler that a command is meant for. -/
def route : Command → Route
  | create args => .create args.id
  | clone srcId _ => .clone srcId
  | act id _ => .action id
  | status id => .get id
  | list => .list
  | delete id => .delete id
  | serial id => .serial id
  | metrics id => .metrics id

theorem route_uri {id : String} (htarget : c.target = some id) (h : Addressable id) :
    Daemon.route c.method c.uri = routeVm c.method id (c.suffix.tail?.map String.ofList) := by
  obtain ⟨hne, hslash⟩ := h
  have huri := uri_toList htarget
  cases hsuffix : c.suffix with
  | nil =>
    rw [hsuffix, List.append_nil] at huri
    rw [route_id c.method hslash huri, if_neg hne]
    rfl
  | cons ch rest =>
    have hch : ch = '/' := by
      cases c <;> cases hsuffix <;> rfl
    rw [hsuffix, hch] at huri
    have hnil : id.toList ≠ [] := fun h => hne (String.toList_eq_nil_iff.1 h)
    rw [route_suffix c.method hslash huri, if_neg hnil, String.ofList_toList]
    rfl

/-- The router finds the handler of a command with an addressable id. -/
theorem route_eq (h : ∀ id ∈ c.target, Addressable id) : Daemon.route c.method c.uri = c.route := by
  cases htarget : c.target with
  | none =>
    cases c with
    | list => rfl
    | _ => cases htarget
  | some id =>
    rw [route_uri htarget (h id htarget)]
    cases c with
    | list => cases htarget
    | _ =>
      cases htarget
      rfl

theorem routeVm_some_changes {method : Method} (id : String) {suffix : String}
    (h : method = .post → suffix ≠ "action" ∧ suffix ≠ "clone") :
    (routeVm method id (some suffix)).changes = false := by
  cases method with
  | get => exact routeVm_get_changes id (some suffix)
  | post =>
    obtain ⟨haction, hclone⟩ := h rfl
    show (if suffix = "action" then Route.action id
      else if suffix = "clone" then .clone id else .methodNotAllowed).changes = false
    rw [if_neg haction, if_neg hclone]
    rfl
  | _ => rfl

theorem ne_of_slash_mem {text : List Char} (h : '/' ∈ text) :
    String.ofList text ≠ "action" ∧ String.ofList text ≠ "clone" := by
  have haction : ("action" : String).toList = ['a', 'c', 't', 'i', 'o', 'n'] := by decide +kernel
  have hclone : ("clone" : String).toList = ['c', 'l', 'o', 'n', 'e'] := by decide +kernel
  constructor
  · intro heq
    rw [← String.toList_ofList (l := text), heq, haction] at h
    simp at h
  · intro heq
    rw [← String.toList_ofList (l := text), heq, hclone] at h
    simp at h

/-- No other id gets past the router. -/
theorem route_changes_of_not_addressable {id : String} (htarget : c.target = some id)
    (h : ¬Addressable id) : (Daemon.route c.method c.uri).changes = false := by
  have huri := uri_toList htarget
  by_cases hempty : id = ""
  · subst hempty
    cases hsuffix : c.suffix with
    | nil =>
      rw [hsuffix, List.append_nil] at huri
      rw [route_id c.method (by simp) huri, if_pos rfl]
      rfl
    | cons ch rest =>
      have hch : ch = '/' := by
        cases c <;> cases hsuffix <;> rfl
      rw [hsuffix, hch] at huri
      rw [route_suffix c.method (by simp) huri, if_pos (by simp)]
      rfl
  · have hslash : '/' ∈ id.toList := by
      by_contra hslash
      exact h ⟨hempty, hslash⟩
    -- the first slash of the id ends it
    obtain ⟨a, b, hsplit, ha⟩ := List.eq_append_cons_of_mem hslash
    rw [hsplit, List.append_assoc, List.cons_append] at huri
    rw [route_suffix c.method ha huri]
    split_ifs
    · rfl
    · refine routeVm_some_changes _ fun hpost => ne_of_slash_mem ?_
      refine List.mem_append_right b ?_
      cases c with
      | clone | act => exact List.mem_cons_self
      | _ => cases hpost

theorem readJson_ok {α : Type} {decode : List UInt8 → Except String α} {bytes : List UInt8} {a : α}
    (hlen : bytes.length ≤ bodyLimit) (hdecode : decode bytes = .ok a) :
    readJson decode (.ok bytes) = .ok a := by
  simp only [readJson, if_neg (Nat.not_lt.2 hlen), hdecode]
  rfl

/-- The status of a success. -/
def success : Command → ℕ
  | create _ => 201
  | clone .. => 201
  | delete _ => 204
  | _ => 200

/-- The request of a command calls the manager as the command says. -/
theorem Sendable.call_eq (h : c.Sendable json) :
    HttpRequest.call json ⟨c.method, c.uri, .ok (c.body json)⟩ =
      c.call.map fun request => (request, c.success) := by
  obtain ⟨hlen, hdecode⟩ := h.readable
  unfold Command.call
  split_ifs with haddress
  · unfold HttpRequest.call
    rw [route_eq haddress]
    cases c with
    | create args =>
      have hread := readJson_ok hlen hdecode
      simp only [route, body, request, success] at hread ⊢
      rw [hread]
      rfl
    | clone srcId destId =>
      have hread := readJson_ok hlen hdecode
      simp only [route, body, request, success] at hread ⊢
      rw [hread]
      rfl
    | act id action =>
      have hread := readJson_ok hlen hdecode
      simp only [route, body, request, success] at hread ⊢
      rw [hread]
      rfl
    | _ => rfl
  · push Not at haddress
    obtain ⟨id, htarget, hid⟩ := haddress
    exact call_eq_none (route_changes_of_not_addressable htarget hid)

end Routing

end Command

/-! ### A daemon driven by commands -/

/-- What happens in a daemon whose requests are commands. -/
inductive CliEvent
  | command (p : ℕ) (c : Command) (files : String → Bool)
  | own (event : Event)
  | stopAll (p : ℕ) (files : String → Bool)

namespace CliEvent

/-- What the server sees. -/
def serverEvent (json : ApiJson) (uriPath : String → Option String) : CliEvent → Option ServerEvent
  | .command p c files => (c.send json uriPath).map fun req => .request p req files
  | .own event => some (.own event)
  | .stopAll p files => some (.stopAll p files)

/-- What the manager sees. -/
def managerEvent : CliEvent → Option Event
  | .command p c files => c.call.map fun request => .call p request files
  | .own event => some event
  | .stopAll p files => some (.call p .stopAll files)

/-- A command can be sent. -/
def Sendable (json : ApiJson) : CliEvent → Prop
  | .command _ c _ => c.Sendable json
  | _ => True

variable {json : ApiJson} {uriPath : String → Option String}

theorem bind_serverEvent (hkeeps : Command.KeepsPaths uriPath) {event : CliEvent}
    (h : event.Sendable json) :
    (event.serverEvent json uriPath).bind (ServerEvent.managerEvent json) = event.managerEvent := by
  cases event with
  | command p c files =>
    have hsend : c.Sendable json := h
    simp only [serverEvent, managerEvent, hsend.send_eq hkeeps, Option.map_some, Option.bind_some,
      ServerEvent.managerEvent, hsend.call_eq, Option.map_map]
    rfl
  | own event => rfl
  | stopAll p files => rfl

end CliEvent

theorem exists_of_mem_forall₂ {α β : Type} {R : α → β → Prop} {as : List α} {bs : List β}
    (h : List.Forall₂ R as bs) {a : α} (ha : a ∈ as) : ∃ b ∈ bs, R a b := by
  induction h with
  | nil => cases ha
  | cons hr _ ih =>
    rcases List.mem_cons.1 ha with rfl | ha
    · exact ⟨_, List.mem_cons_self, hr⟩
    · obtain ⟨b, hb, hrb⟩ := ih ha
      exact ⟨b, List.mem_cons_of_mem _ hb, hrb⟩

section Drives

variable {json : ApiJson} {uriPath : String → Option String} {store : StateStore}
  {events : List CliEvent} {s : Server}

/-- The path of a URI without a scheme: a query or a fragment ends it, and a blank is refused. -/
def originPath (uri : String) : Option String :=
  if ' ' ∈ uri.toList ∨ 65534 < uri.length then none
  else some (String.ofList (uri.toList.takeWhile fun c => c ≠ '?' ∧ c ≠ '#'))

theorem keepsPaths_originPath : Command.KeepsPaths originPath := by
  intro text _ hchars hlen
  have hblank : ' ' ∉ text.toList := by
    intro h
    have hfalse := hchars ' ' h
    exact absurd hfalse (by decide)
  have htake : text.toList.takeWhile (fun c => c ≠ '?' ∧ c ≠ '#') = text.toList := by
    rw [List.takeWhile_eq_self_iff]
    intro c hc
    have hpath := hchars c hc
    simp only [decide_eq_true_eq]
    constructor
    · rintro rfl
      exact absurd hpath (by decide)
    · rintro rfl
      exact absurd hpath (by decide)
  unfold originPath
  rw [if_neg (by simp [hblank, hlen]), htake, String.ofList_toList]

/-- A VM is deleted, after an attempt with a path instead of its id. -/
def deletes : List CliEvent :=
  [.command 0 (.delete "vm/") fun _ => true, .command 1 (.delete "vm") fun _ => true,
    .own (.store 1 none)]

theorem sendable_deletes : ∀ event ∈ deletes, event.Sendable plainJson := by
  intro event hevent
  simp only [deletes, List.mem_cons, List.not_mem_nil, or_false] at hevent
  rcases hevent with rfl | rfl | rfl
  · refine ⟨?_, by decide +kernel, Nat.zero_le _, trivial⟩
    rintro id ⟨⟩
    rw [show ("vm/" : String).toList = ['v', 'm', '/'] by decide +kernel]
    exact List.all_eq_true.1 rfl
  · refine ⟨?_, by decide +kernel, Nat.zero_le _, trivial⟩
    rintro id ⟨⟩
    rw [show ("vm" : String).toList = ['v', 'm'] by decide +kernel]
    exact List.all_eq_true.1 rfl
  · trivial

end Drives

end Hitz.Cli

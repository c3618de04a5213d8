import Hitz.Daemon.VmManager
import Hitz.Lib.FileTree

/-!
# The state store on disk (`hitz-daemon/src/state_store.rs`)

`StateStore` has the files of a VM parsed and in one place.  Here the store works on paths and
texts: `vm_dir` is `base_dir.join(id)`, and JSON comes from outside (`Codec`).

Only an id without a separator gets here: `create_vm` rejects the others.  What `join` does with it
still depends on the platform.  The empty id and `"."` are the base directory itself, and on Windows
an id that starts with a drive replaces the base directory.

* `vmDir`, `saveConfig`, `saveState`, `delete`, `loadAll` follow the source;
* `Confined`: each VM has a directory of its own, and its files are the only ones that change;
* `confined_iff`: which ids are confined.
-/

namespace Hitz.Daemon

open Api FileTree
open scoped List

/-- `PersistedState`. -/
structure PersistedState where
  state : VmState
  createdAt : UInt64
  updatedAt : UInt64
  deriving DecidableEq, Repr

/-- The JSON texts of a configuration and of a state. -/
structure Codec (τ : Type) where
  encodeConfig : VmConfig → τ
  decodeConfig : τ → Option VmConfig
  encodeState : PersistedState → τ
  decodeState : τ → Option PersistedState
  decodeConfig_encode : ∀ config, decodeConfig (encodeConfig config) = some config
  decodeState_encode : ∀ state, decodeState (encodeState state) = some state

/-- The platform, as far as paths differ. -/
inductive Platform
  | unix
  | windows
  deriving DecidableEq, Repr

/-- The drive at the start of a text, and the rest. -/
def splitDrive : Platform → List Char → Option Char × List Char
  | .windows, c :: ':' :: rest =>
    if c.isAlpha then (some c.toUpper, rest) else (none, c :: ':' :: rest)
  | _, text => (none, text)

/-- The components of a name. -/
def nameComponents (name : List Char) : List String :=
  if name = [] ∨ name = ['.'] then [] else [String.ofList name]

/-- The working directory of a drive, as in `C:`. -/
def bareDrive (c : Char) : Loc := ⟨some (String.ofList [c, ':']), false, []⟩

/-- `StateStore`, with the platform and the texts. -/
structure FileStore (τ : Type) where
  platform : Platform
  baseDir : Loc
  codec : Codec τ

namespace FileStore

variable {τ : Type} (store : FileStore τ)

/-- `vm_dir`. -/
def vmDir (id : String) : Loc :=
  match splitDrive store.platform id.toList with
  | (some c, rest) => { bareDrive c with names := nameComponents rest }
  | (none, name) => { store.baseDir with names := store.baseDir.names ++ nameComponents name }

/-- `save_config`. -/
def saveConfig (fs : FileSys τ) (id : String) (config : VmConfig) : Except IoError Unit × FileSys τ :=
  match createDirAll fs (store.vmDir id) with
  | (.error e, fs) => (.error e, fs)
  | (.ok (), fs) => write fs (store.vmDir id) "config.json" (store.codec.encodeConfig config)

/-- `load_raw_state`. -/
def loadRawState (fs : FileSys τ) (id : String) : Option PersistedState :=
  match readToString fs ((store.vmDir id).child "state.json") with
  | .error _ => none
  | .ok json => store.codec.decodeState json

/-- `save_state`, at the time `now`. -/
def saveState (fs : FileSys τ) (id : String) (state : VmState) (now : UInt64) :
    Except IoError Unit × FileSys τ :=
  match createDirAll fs (store.vmDir id) with
  | (.error e, fs) => (.error e, fs)
  | (.ok (), fs) =>
    let createdAt := (store.loadRawState fs id).elim now (·.createdAt)
    write fs (store.vmDir id) "state.json" (store.codec.encodeState ⟨state, createdAt, now⟩)

/-- `delete`. -/
def delete (fs : FileSys τ) (id : String) : Except IoError Unit × FileSys τ :=
  match removeDirAll fs (store.vmDir id) with
  | (.error .notFound, fs) => (.ok (), fs)
  | r => r

/-- An entry of the base directory, as `load_all` takes it. -/
def loadEntry (fs : FileSys τ) (id : String) : Option (String × VmConfig × VmState) :=
  if isDir fs (store.baseDir.child id) then
    match readToString fs ((store.baseDir.child id).child "config.json") with
    | .error _ => none
    | .ok json =>
      match store.codec.decodeConfig json with
      | none => none
      | some config =>
        some (id, config, StateStore.recoveredState ((store.loadRawState fs id).map (·.state)))
  else none

/-- `load_all`. -/
def loadAll (fs : FileSys τ) : Except IoError (List (String × VmConfig × VmState)) :=
  match readDir fs store.baseDir with
  | .error .notFound => .ok []
  | .error e => .error e
  | .ok names => .ok (names.filterMap (store.loadEntry fs))

end FileStore

/-- A call that changes the store. -/
inductive StoreCall
  | saveConfig (id : String) (config : VmConfig)
  | saveState (id : String) (state : VmState) (now : UInt64)
  | delete (id : String)
  deriving DecidableEq, Repr

/-- The VM of a call. -/
def StoreCall.id : StoreCall → String
  | .saveConfig id _ => id
  | .saveState id _ _ => id
  | .delete id => id

namespace FileStore

variable {τ : Type} (store : FileStore τ)

/-- One call. -/
def apply (fs : FileSys τ) : StoreCall → Except IoError Unit × FileSys τ
  | .saveConfig id config => store.saveConfig fs id config
  | .saveState id state now => store.saveState fs id state now
  | .delete id => store.delete fs id

/-! ### Confinement -/

/-- The part of an id behind a drive. -/
def idName (id : String) : List Char := (splitDrive store.platform id.toList).2

/-- The id is the name of a directory in the base directory. -/
def NamesChild (id : String) : Prop :=
  store.idName id ≠ [] ∧ store.idName id ≠ ['.'] ∧
    ∀ c, (splitDrive store.platform id.toList).1 = some c → store.baseDir = bareDrive c

/-- A path that belongs to another VM than `a`, or to the base directory: the directory itself and
what is above it, and what is directly in it. -/
def Foreign (ids : Set String) (a : String) (p : Loc) : Prop :=
  (∃ b ∈ ids, b ≠ a ∧ Under (store.vmDir b) p) ∨
  (∃ ns, ns <+: store.baseDir.names ∧ p = { store.baseDir with names := ns }) ∨
  ∃ name, p = store.baseDir.child name ∧ p ≠ store.vmDir a

/-- The ids have directories of their own in the base directory, and a call for one of them changes
nothing that belongs to another or to the base directory. -/
structure Confined (ids : Set String) : Prop where
  child : ∀ id ∈ ids, ∃ name, name ≠ "" ∧ name ≠ "." ∧ name ≠ ".." ∧
    store.vmDir id = store.baseDir.child name
  distinct : ∀ a ∈ ids, ∀ b ∈ ids, a ≠ b → store.vmDir a ≠ store.vmDir b
  frame : ∀ fs call, Present fs store.baseDir → call.id ∈ ids → ∀ p, store.Foreign ids call.id p →
    look (store.apply fs call).2 p = look fs p

theorem vmDir_of_namesChild {id : String} (h : store.NamesChild id) :
    store.vmDir id = store.baseDir.child (String.ofList (store.idName id)) := by
  obtain ⟨hne, hdot, hdrive⟩ := h
  unfold idName at hne hdot ⊢
  unfold vmDir
  cases hsplit : splitDrive store.platform id.toList with
  | mk drive name =>
    rw [hsplit] at hne hdot hdrive
    have hcomp : nameComponents name = [String.ofList name] :=
      if_neg (not_or.2 ⟨hne, hdot⟩)
    cases drive with
    | none => simp only [hcomp, Loc.child]
    | some c =>
      have hbase := hdrive c rfl
      simp only [hcomp, Loc.child, hbase]
      rfl

/-- What a call changes is in the directory of its VM. -/
theorem look_apply {fs : FileSys τ} {d p : Loc} {name : String} (call : StoreCall)
    (hdir : store.vmDir call.id = d.child name) (hfs : Present fs d)
    (hp : ¬Under (d.child name) p) : look (store.apply fs call).2 p = look fs p := by
  have hself : p ≠ d.child name := by
    rintro rfl
    exact hp (Under.refl _)
  have hfile : ∀ file, p ≠ (d.child name).child file := by
    rintro file rfl
    exact hp (under_child _ _)
  have hcreate := look_createDirAll hfs hself
  cases call with
  | saveConfig id config =>
    have hdir : store.vmDir id = d.child name := hdir
    simp only [apply, saveConfig, hdir]
    rw [← hcreate]
    split
    · next h => rw [h]
    · next h => rw [h, look_write (hfile _)]
  | saveState id state now =>
    have hdir : store.vmDir id = d.child name := hdir
    simp only [apply, saveState, hdir]
    rw [← hcreate]
    split
    · next h => rw [h]
    · next h => rw [h, look_write (hfile _)]
  | delete id =>
    have hdir : store.vmDir id = d.child name := hdir
    simp only [apply, delete, hdir]
    have hremove : look (removeDirAll fs (d.child name)).2 p = look fs p := look_removeDirAll hp
    rw [← hremove]
    split
    · next h => rw [h]
    · rfl

/-- An id that is not confined to a name in the base directory has no directory of its own. -/
theorem namesChild_of_child {id name : String} (h : store.vmDir id = store.baseDir.child name) :
    store.NamesChild id := by
  unfold NamesChild idName
  unfold vmDir at h
  cases hsplit : splitDrive store.platform id.toList with
  | mk drive rest =>
    rw [hsplit] at h
    -- otherwise the names are those of the base directory, or none
    have hcomp : nameComponents rest ≠ [] := by
      intro hnil
      cases drive with
      | none => simpa [hnil, Loc.child] using congrArg Loc.names h
      | some c => simpa [hnil, Loc.child] using congrArg Loc.names h
    have hrest : ¬(rest = [] ∨ rest = ['.']) := fun hor => hcomp (if_pos hor)
    obtain ⟨hne, hdot⟩ := not_or.1 hrest
    refine ⟨hne, hdot, ?_⟩
    rintro c rfl
    have hnames : [String.ofList rest] = store.baseDir.names ++ [name] := by
      have hlist : nameComponents rest = [String.ofList rest] := if_neg hrest
      rw [← hlist]
      exact congrArg Loc.names h
    have hnil : store.baseDir.names = [] := by
      have := congrArg List.length hnames
      simpa using this
    have hvol := congrArg Loc.volume h
    have hroot := congrArg Loc.rooted h
    cases hb : store.baseDir with
    | mk volume rooted names =>
      rw [hb] at hvol hroot hnil
      cases hvol
      cases hroot
      cases hnil
      rfl

theorem Foreign.not_under {ids : Set String} {a : String} {p : Loc} {name : String}
    (hdir : store.vmDir a = store.baseDir.child name)
    (hids : ∀ b ∈ ids, b ≠ a → ∃ other, other ≠ name ∧ store.vmDir b = store.baseDir.child other)
    (h : store.Foreign ids a p) : ¬Under (store.baseDir.child name) p := by
  rcases h with ⟨b, hb, hne, hunder⟩ | ⟨ns, hns, rfl⟩ | ⟨other, rfl, hne⟩
  · intro hp
    obtain ⟨other, hother, hdirb⟩ := hids b hb hne
    rw [hdirb] at hunder
    exact hother (child_eq_of_under hunder hp)
  · exact not_under_child_of_le hns
  · intro hp
    rw [hdir, child_eq_of_under hp (Under.refl _)] at hne
    exact hne rfl

end FileStore

theorem splitDrive_suffix (platform : Platform) (text : List Char) :
    (splitDrive platform text).2 <:+ text := by
  unfold splitDrive
  split
  · split_ifs
    · exact ⟨[_, ':'], rfl⟩
    · exact List.suffix_rfl
  · exact List.suffix_rfl

/-- `create_vm` gets past its checks with this id; `clone_vm` goes through it. -/
def Accepted (id : String) : Prop :=
  ∃ (m : Manager) (p : ℕ) (files : String → Bool) (config : VmConfig) (info : VmInfo),
    (m.createVm p files id config).ops p = some (.saveConfig info)

theorem Accepted.valid {id : String} (h : Accepted id) : Manager.invalidId id = false := by
  obtain ⟨m, p, files, config, info, h⟩ := h
  cases hid : Manager.invalidId id with
  | false => rfl
  | true => simp [Manager.createVm, hid, Manager.reply, Manager.finish] at h

namespace FileStore

variable {τ : Type} (store : FileStore τ)

theorem idName_ne_dotDot {id : String} (h : Accepted id) : store.idName id ≠ ['.', '.'] := by
  intro hname
  have hinfix : ['.', '.'] <:+: id.toList := by
    rw [← hname]
    exact (splitDrive_suffix _ _).isInfix
  have hvalid := h.valid
  simp [Manager.invalidId, hinfix] at hvalid

/-- **Confinement.**  Accepted ids are confined exactly when each is a name, neither empty nor
`"."`, without a drive before it.  Only a base directory that is itself a bare drive may be
repeated there, as long as the rest of the ids differ. -/
theorem confined_iff {ids : Set String} (hids : ∀ id ∈ ids, Accepted id) :
    store.Confined ids ↔ (∀ id ∈ ids, store.NamesChild id) ∧
      ∀ a ∈ ids, ∀ b ∈ ids, store.idName a = store.idName b → a = b := by
  constructor
  · rintro ⟨hchild, hdistinct, -⟩
    have hnames : ∀ id ∈ ids, store.NamesChild id := by
      intro id hid
      obtain ⟨name, -, -, -, hdir⟩ := hchild id hid
      exact store.namesChild_of_child hdir
    refine ⟨hnames, ?_⟩
    intro a ha b hb heq
    by_contra hne
    refine hdistinct a ha b hb hne ?_
    rw [store.vmDir_of_namesChild (hnames a ha), store.vmDir_of_namesChild (hnames b hb), heq]
  · rintro ⟨hnames, hinj⟩
    have hother : ∀ a ∈ ids, ∀ b ∈ ids, b ≠ a →
        ∃ other, other ≠ String.ofList (store.idName a) ∧
          store.vmDir b = store.baseDir.child other := by
      intro a ha b hb hne
      refine ⟨_, ?_, store.vmDir_of_namesChild (hnames b hb)⟩
      intro heq
      exact hne (hinj b hb a ha (String.ofList_injective heq))
    refine ⟨?_, ?_, ?_⟩
    · intro id hid
      obtain ⟨hne, hdot, -⟩ := hnames id hid
      refine ⟨_, ?_, ?_, ?_, store.vmDir_of_namesChild (hnames id hid)⟩
      · intro heq
        exact hne (by simpa using congrArg String.toList heq)
      · intro heq
        exact hdot (by simpa using congrArg String.toList heq)
      · intro heq
        have hname : store.idName id = ['.', '.'] := by simpa using congrArg String.toList heq
        exact store.idName_ne_dotDot (hids id hid) hname
    · intro a ha b hb hne heq
      obtain ⟨other, hother, hdirb⟩ := hother a ha b hb (Ne.symm hne)
      rw [store.vmDir_of_namesChild (hnames a ha), hdirb] at heq
      exact hother (child_inj heq).symm
    · intro fs call hfs hid p hp
      have hdir := store.vmDir_of_namesChild (hnames _ hid)
      exact store.look_apply call hdir hfs (hp.not_under store hdir (hother _ hid))

end FileStore

/-- Files as they are parsed. -/
def Codec.parsed : Codec (VmConfig ⊕ PersistedState) where
  encodeConfig := .inl
  decodeConfig := Sum.getLeft?
  encodeState := .inr
  decodeState := Sum.getRight?
  decodeConfig_encode _ := rfl
  decodeState_encode _ := rfl

/-- A store below the root of a drive. -/
def driveStore : FileStore (VmConfig ⊕ PersistedState) where
  platform := .windows
  baseDir := ⟨some "C:", true, ["hitz"]⟩
  codec := .parsed

/-- A configuration that `validate_config` accepts. -/
def plainConfig : VmConfig :=
  ⟨"vmlinux", none, none, 256, 1, none, none, [], 3, .disabled⟩

/-- The file system with the base directory of `driveStore`. -/
def freshDrive : FileSys (VmConfig ⊕ PersistedState) :=
  (∅ : FileSys _).insert driveStore.baseDir .dir

/-- On an idle manager an id is accepted when it passes the test. -/
theorem accepted_of_valid {id : String} (h : Manager.invalidId id = false) : Accepted id := by
  have hval : Vmm.validateConfig (fun _ => true) plainConfig = .ok () := by decide +kernel
  refine ⟨{}, 0, fun _ => true, plainConfig, ⟨id, .created, plainConfig, none⟩, ?_⟩
  simp [Manager.createVm, h, hval, Manager.createLock, Manager.enqueue, Manager.goOn,
    VmEntry.toInfo]

theorem two_vms_confined : driveStore.Confined {"vm1", "vm2"} := by
  have hids : ∀ id ∈ ({"vm1", "vm2"} : Set String), Accepted id := by
    rintro id (rfl | rfl)
    · exact accepted_of_valid (by decide +kernel)
    · exact accepted_of_valid (by decide +kernel)
  have hdrive1 : (splitDrive driveStore.platform "vm1".toList).1 = none := by decide +kernel
  have hdrive2 : (splitDrive driveStore.platform "vm2".toList).1 = none := by decide +kernel
  refine (driveStore.confined_iff hids).2 ⟨?_, ?_⟩
  · rintro id (rfl | rfl)
    · refine ⟨by decide +kernel, by decide +kernel, ?_⟩
      intro c hc
      rw [hdrive1] at hc
      cases hc
    · refine ⟨by decide +kernel, by decide +kernel, ?_⟩
      intro c hc
      rw [hdrive2] at hc
      cases hc
  · rintro a (rfl | rfl) b (rfl | rfl) heq
    · rfl
    · exact absurd heq (by decide +kernel)
    · exact absurd heq (by decide +kernel)
    · rfl

/-- `"."` is accepted and is the base directory: to delete it takes another VM's files along.  An
id with a drive is accepted and leaves the base directory. -/
theorem dot_is_base_dir :
    Accepted "." ∧ Accepted "vm1" ∧ driveStore.vmDir "." = driveStore.baseDir ∧
      ¬driveStore.Confined {".", "vm1"} ∧
      (look (driveStore.saveConfig freshDrive "vm1" plainConfig).2
        ((driveStore.vmDir "vm1").child "config.json")).isSome = true ∧
      look (driveStore.delete (driveStore.saveConfig freshDrive "vm1" plainConfig).2 ".").2
        ((driveStore.vmDir "vm1").child "config.json") = none ∧
      Accepted "D:vm1" ∧ driveStore.vmDir "D:vm1" = ⟨some "D:", false, ["vm1"]⟩ := by
  have hdot : driveStore.vmDir "." = driveStore.baseDir := by decide +kernel
  refine ⟨accepted_of_valid (by decide +kernel), accepted_of_valid (by decide +kernel), hdot, ?_,
    by decide +kernel, by decide +kernel, accepted_of_valid (by decide +kernel), by decide +kernel⟩
  intro h
  obtain ⟨name, -, -, -, hchild⟩ := h.child "." (Or.inl rfl)
  rw [hdot] at hchild
  simpa [Loc.child] using congrArg Loc.names hchild

end Hitz.Daemon

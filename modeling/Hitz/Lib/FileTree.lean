import Mathlib.Data.List.AList

/-!
# A file system

A path is where it starts (a volume, and whether at its root) and the names from there on; two
paths are the same file exactly when they are equal.  A file system maps paths to directories and
files with a content; the starting points are directories that always exist.

* `createDirAll`, `write`, `removeDirAll`, `readToString`, `readDir` as in Rust's `std::fs`; an
  operation that fails returns the file system as it has left it;
* `Present d`: `d` and every directory above it exist;
* `createDirAll_child`: below a directory that is present, only the last directory is created;
* `look_createDirAll`, `look_write`, `look_removeDirAll`: everything else stays as it is.
-/

namespace Hitz.FileTree

open scoped List

/-- The components of a path. -/
structure Loc where
  volume : Option String := none
  rooted : Bool := true
  names : List String
  deriving DecidableEq, Repr

/-- What is at a path. -/
inductive Node (τ : Type)
  | dir
  | file (content : τ)
  deriving DecidableEq, Repr

/-- The kinds of errors. -/
inductive IoError
  | notFound
  | alreadyExists
  | notADirectory
  | isADirectory
  deriving DecidableEq, Repr

/-- `Path::join` with one name. -/
def Loc.child (d : Loc) (name : String) : Loc := { d with names := d.names ++ [name] }

/-- A path is a directory or below it. -/
def Under (d p : Loc) : Prop :=
  p.volume = d.volume ∧ p.rooted = d.rooted ∧ d.names <+: p.names

instance (d p : Loc) : Decidable (Under d p) := inferInstanceAs (Decidable (_ ∧ _ ∧ _))

/-- A file system with contents in `τ`. -/
abbrev FileSys (τ : Type) := AList fun _ : Loc => Node τ

variable {τ : Type} {fs : FileSys τ} {d p : Loc} {name : String}

/-- What is at a path. -/
def look (fs : FileSys τ) (p : Loc) : Option (Node τ) := fs.lookup p

/-- `Path::is_dir`. -/
def isDir (fs : FileSys τ) (p : Loc) : Bool :=
  p.names.isEmpty || match look fs p with
    | some .dir => true
    | _ => false

/-- The entries that satisfy a test. -/
def keep (fs : FileSys τ) (f : Loc → Bool) : FileSys τ :=
  ⟨fs.entries.filter fun e => f e.1, fs.nodupKeys.sublist List.filter_sublist⟩

/-- Create the directories with these names, one below the other. -/
def createBelow (fs : FileSys τ) (d : Loc) : List String → Except IoError Unit × FileSys τ
  | [] => (.ok (), fs)
  | name :: names =>
    match look fs (d.child name) with
    | some .dir => createBelow fs (d.child name) names
    | some (.file _) =>
      (.error (if names.isEmpty then .alreadyExists else .notADirectory), fs)
    | none => createBelow (fs.insert (d.child name) .dir) (d.child name) names

/-- `create_dir_all`. -/
def createDirAll (fs : FileSys τ) (p : Loc) : Except IoError Unit × FileSys τ :=
  createBelow fs { p with names := [] } p.names

/-- `write`: create a file in a directory, or replace its content. -/
def write (fs : FileSys τ) (d : Loc) (name : String) (content : τ) : Except IoError Unit × FileSys τ :=
  if isDir fs d then
    match look fs (d.child name) with
    | some .dir => (.error .isADirectory, fs)
    | _ => (.ok (), fs.insert (d.child name) (.file content))
  else (.error .notFound, fs)

/-- `remove_dir_all`. -/
def removeDirAll (fs : FileSys τ) (p : Loc) : Except IoError Unit × FileSys τ :=
  if isDir fs p then (.ok (), keep fs fun q => ¬Under p q)
  else
    match look fs p with
    | none => (.error .notFound, fs)
    | some _ => (.error .notADirectory, fs)

/-- `read_to_string`. -/
def readToString (fs : FileSys τ) (p : Loc) : Except IoError τ :=
  match look fs p with
  | none => .error .notFound
  | some .dir => .error .isADirectory
  | some (.file content) => .ok content

/-- The name of an entry of a directory. -/
def entryName (d p : Loc) : Option String :=
  if p.volume = d.volume ∧ p.rooted = d.rooted ∧ p.names.dropLast = d.names then
    p.names.getLast?
  else none

/-- `read_dir`: the names in a directory, in any order. -/
def readDir (fs : FileSys τ) (d : Loc) : Except IoError (List String) :=
  if isDir fs d then .ok (fs.entries.filterMap fun e => entryName d e.1)
  else
    match look fs d with
    | none => .error .notFound
    | some _ => .error .notADirectory

/-! ### Paths -/

theorem child_inj {a b : String} (h : d.child a = d.child b) : a = b := by
  simpa [Loc.child] using h

theorem child_ne_self (d : Loc) (name : String) : d.child name ≠ d := by
  intro h
  simpa [Loc.child] using congrArg Loc.names h

theorem Under.refl (d : Loc) : Under d d := ⟨rfl, rfl, List.prefix_rfl⟩

theorem Under.trans {q : Loc} (h : Under d p) (h' : Under p q) : Under d q :=
  ⟨h'.1.trans h.1, h'.2.1.trans h.2.1, h.2.2.trans h'.2.2⟩

theorem under_child (d : Loc) (name : String) : Under d (d.child name) :=
  ⟨rfl, rfl, List.prefix_append _ _⟩

/-- Two names in a directory have nothing in common below them. -/
theorem child_eq_of_under {a b : String} (ha : Under (d.child a) p) (hb : Under (d.child b) p) :
    a = b := by
  have hlist : d.names ++ [a] = d.names ++ [b] := by
    have hlen : (d.names ++ [a]).length = (d.names ++ [b]).length := by simp
    exact (List.prefix_of_prefix_length_le ha.2.2 hb.2.2 (Nat.le_of_eq hlen)).eq_of_length hlen
  simpa using hlist

theorem not_under_child_of_le {d q : Loc} (h : q.names <+: d.names) :
    ¬Under (d.child name) q := by
  rintro ⟨-, -, hpre⟩
  have hlen := hpre.length_le
  have := h.length_le
  simp only [Loc.child, List.length_append, List.length_singleton] at hlen
  omega

theorem entryName_child (d : Loc) (name : String) : entryName d (d.child name) = some name := by
  simp [entryName, Loc.child]

theorem entryName_eq_some (h : entryName d p = some name) : p = d.child name := by
  unfold entryName at h
  split_ifs at h with hp
  obtain ⟨hvol, hroot, hdrop⟩ := hp
  have hnames : p.names = d.names ++ [name] := by
    rw [← hdrop]
    exact (List.dropLast_append_getLast? name h).symm
  cases p
  simp_all [Loc.child]

/-! ### Looking up -/

theorem look_insert (p q : Loc) (n : Node τ) :
    look (fs.insert p n) q = if q = p then some n else look fs q := by
  unfold look
  split_ifs with h
  · rw [h, AList.lookup_insert]
  · rw [AList.lookup_insert_ne h]

theorem look_keep (f : Loc → Bool) (p : Loc) :
    look (keep fs f) p = if f p then look fs p else none := by
  have hmem : ∀ n, look (keep fs f) p = some n ↔ look fs p = some n ∧ f p := by
    intro n
    have h : n ∈ (keep fs f).lookup p ↔ n ∈ fs.lookup p ∧ f p := by
      rw [AList.mem_lookup_iff, AList.mem_lookup_iff]
      exact List.mem_filter
    exact h
  ext n
  rw [hmem]
  split_ifs with h
  · simp [h]
  · simp [h]

theorem isDir_of_look (h : look fs p = some .dir) : isDir fs p = true := by
  simp [isDir, h]

/-- A directory and everything above it exist. -/
def Present (fs : FileSys τ) (d : Loc) : Prop :=
  ∀ ns, ns ≠ [] → ns <+: d.names → look fs { d with names := ns } = some .dir

theorem Present.isDir (h : Present fs d) : isDir fs d = true := by
  by_cases hd : d.names = []
  · simp [FileTree.isDir, hd]
  · exact isDir_of_look (h d.names hd List.prefix_rfl)

theorem createBelow_append {ns ms : List String}
    (h : ∀ ks, ks ≠ [] → ks <+: ns → look fs { d with names := d.names ++ ks } = some .dir) :
    createBelow fs d (ns ++ ms) = createBelow fs { d with names := d.names ++ ns } ms := by
  induction ns generalizing d with
  | nil => simp
  | cons n ns ih =>
    have hdir : look fs (d.child n) = some .dir := h [n] (by simp) (by simp)
    have hbelow : ∀ ks, ks ≠ [] → ks <+: ns →
        look fs { d.child n with names := (d.child n).names ++ ks } = some .dir := by
      intro ks _ hks
      have := h (n :: ks) (by simp) (List.cons_prefix_cons.2 ⟨rfl, hks⟩)
      simpa [Loc.child] using this
    rw [List.cons_append, createBelow, hdir]
    simp only
    rw [ih hbelow]
    simp [Loc.child]

/-- Below a directory that is present only the last directory is created. -/
theorem createDirAll_child (h : Present fs d) (name : String) :
    createDirAll fs (d.child name) =
      match look fs (d.child name) with
      | some .dir => (.ok (), fs)
      | some (.file _) => (.error .alreadyExists, fs)
      | none => (.ok (), fs.insert (d.child name) .dir) := by
  have happ : createBelow fs { d with names := [] } (d.names ++ [name]) =
      createBelow fs { d with names := [] ++ d.names } [name] :=
    createBelow_append fun ks hks hpre => h ks hks hpre
  show createBelow fs { d with names := [] } (d.names ++ [name]) = _
  rw [happ, createBelow]
  rfl

/-! ### Operations that succeed -/

theorem createDirAll_ok (h : Present fs d) (hno : ∀ c, look fs (d.child name) ≠ some (.file c)) :
    ∃ fs', createDirAll fs (d.child name) = (.ok (), fs') ∧
      ∀ p, look fs' p = if p = d.child name then some .dir else look fs p := by
  rw [createDirAll_child h]
  cases hlook : look fs (d.child name) with
  | none => exact ⟨_, rfl, fun p => look_insert _ p _⟩
  | some n =>
    cases n with
    | file c => exact absurd hlook (hno c)
    | dir =>
      refine ⟨fs, rfl, fun p => ?_⟩
      split_ifs with hp
      · rw [hp, hlook]
      · rfl

theorem write_ok (hdir : look fs d = some .dir) (hno : look fs (d.child name) ≠ some .dir)
    (content : τ) : ∃ fs', write fs d name content = (.ok (), fs') ∧
      ∀ p, look fs' p = if p = d.child name then some (.file content) else look fs p := by
  refine ⟨fs.insert (d.child name) (.file content), ?_, fun p => look_insert _ p _⟩
  rw [write, if_pos (isDir_of_look hdir)]
  split
  · next h => exact absurd h hno
  · rfl

theorem removeDirAll_ok (hdir : look fs d = some .dir) :
    ∃ fs', removeDirAll fs d = (.ok (), fs') ∧
      ∀ p, look fs' p = if Under d p then none else look fs p := by
  refine ⟨_, by rw [removeDirAll, if_pos (isDir_of_look hdir)], fun p => ?_⟩
  rw [look_keep]
  by_cases hp : Under d p
  · simp [hp]
  · simp [hp]

theorem removeDirAll_notFound (h : look fs (d.child name) = none) :
    removeDirAll fs (d.child name) = (.error .notFound, fs) := by
  have hdir : isDir fs (d.child name) = false := by
    unfold isDir
    rw [h]
    simp [Loc.child]
  rw [removeDirAll, if_neg (by simp [hdir]), h]

/-- A directory lists every name in it once. -/
theorem readDir_ok (hdir : isDir fs d = true) : ∃ names, readDir fs d = .ok names ∧
    names.Nodup ∧ ∀ name, name ∈ names ↔ (look fs (d.child name)).isSome := by
  have hnames : fs.entries.filterMap (fun e => entryName d e.1) =
      fs.keys.filterMap (entryName d) := by
    rw [AList.keys, List.keys, List.filterMap_map]
    rfl
  refine ⟨_, by rw [readDir, if_pos hdir], ?_, ?_⟩
  · rw [hnames]
    refine List.Nodup.filterMap ?_ fs.keys_nodup
    intro p q name hp hq
    rw [entryName_eq_some hp, entryName_eq_some hq]
  · intro name
    have hkey : d.child name ∈ fs.keys ↔ (look fs (d.child name)).isSome :=
      (AList.mem_keys.symm.trans AList.lookup_isSome.symm)
    rw [hnames, List.mem_filterMap, ← hkey]
    constructor
    · rintro ⟨p, hp, hname⟩
      rw [← entryName_eq_some hname]
      exact hp
    · intro hp
      exact ⟨_, hp, entryName_child d name⟩

/-! ### Creating a directory from nothing -/

theorem look_createBelow_of_some {names : List String} {n : Node τ} (h : look fs p = some n) :
    look (createBelow fs d names).2 p = some n := by
  induction names generalizing fs d with
  | nil => exact h
  | cons name names ih =>
    unfold createBelow
    split
    · exact ih h
    · exact h
    · next hnone =>
      refine ih ?_
      rw [look_insert, if_neg, h]
      rintro rfl
      rw [hnone] at h
      cases h

theorem createBelow_dirs {names : List String} (h : (createBelow fs d names).1 = .ok ()) :
    ∀ ks, ks ≠ [] → ks <+: names →
      look (createBelow fs d names).2 { d with names := d.names ++ ks } = some .dir := by
  induction names generalizing fs d with
  | nil =>
    intro ks hne hks
    exact absurd (List.prefix_nil.1 hks) hne
  | cons name names ih =>
    -- the first directory exists, and what is below it comes from the rest
    have hstep : ∀ fs' : FileSys τ, look fs' (d.child name) = some .dir →
        (createBelow fs' (d.child name) names).1 = .ok () → ∀ ks, ks ≠ [] → ks <+: name :: names →
          look (createBelow fs' (d.child name) names).2 { d with names := d.names ++ ks } =
            some .dir := by
      intro fs' hdir hok ks hne hks
      obtain ⟨rest, rfl, hrest⟩ : ∃ rest, ks = name :: rest ∧ rest <+: names := by
        cases ks with
        | nil => exact absurd rfl hne
        | cons k rest =>
          obtain ⟨rfl, hrest⟩ := List.cons_prefix_cons.1 hks
          exact ⟨rest, rfl, hrest⟩
      by_cases hrest' : rest = []
      · rw [hrest']
        exact look_createBelow_of_some hdir
      · have := ih hok rest hrest' hrest
        simpa [Loc.child] using this
    unfold createBelow at h ⊢
    split
    · next hdir =>
      rw [hdir] at h
      exact hstep fs hdir h
    · next hfile =>
      rw [hfile] at h
      cases h
    · next hnone =>
      rw [hnone] at h
      exact hstep _ (by rw [look_insert, if_pos rfl]) h

/-- A directory is present once it has been created. -/
theorem present_createDirAll (h : (createDirAll fs d).1 = .ok ()) :
    Present (createDirAll fs d).2 d := by
  intro ns hne hns
  exact createBelow_dirs h ns hne hns

/-- Nothing appears below it. -/
theorem look_createDirAll_below (hunder : Under d p) (hne : p ≠ d) :
    look (createDirAll fs d).2 p = look fs p := by
  have hbelow : ∀ (names : List String) (fs : FileSys τ) (q : Loc),
      (∀ ks, p ≠ { q with names := q.names ++ ks } ∨ ¬ks <+: names) →
        look (createBelow fs q names).2 p = look fs p := by
    intro names
    induction names with
    | nil => exact fun _ _ _ => rfl
    | cons name names ih =>
      intro fs q hq
      have hrest : ∀ ks, p ≠ { q.child name with names := (q.child name).names ++ ks } ∨
          ¬ks <+: names := by
        intro ks
        refine (hq (name :: ks)).imp (fun h => ?_) fun h hks => h ?_
        · simpa [Loc.child] using h
        · exact List.cons_prefix_cons.2 ⟨rfl, hks⟩
      unfold createBelow
      split
      · exact ih fs _ hrest
      · rfl
      · rw [ih _ _ hrest, look_insert, if_neg]
        rcases hq [name] with h | h
        · exact h
        · exact absurd (List.cons_prefix_cons.2 ⟨rfl, List.nil_prefix⟩) h
  refine hbelow _ fs _ fun ks => ?_
  by_cases hks : ks <+: d.names
  · refine Or.inl ?_
    rintro rfl
    have hnames : d.names = ks := hunder.2.2.eq_of_length_le hks.length_le
    exact hne (by cases d; simp_all)
  · exact Or.inr hks

/-! ### What stays as it is -/

theorem look_createDirAll (h : Present fs d) (hp : p ≠ d.child name) :
    look (createDirAll fs (d.child name)).2 p = look fs p := by
  rw [createDirAll_child h]
  split
  · rfl
  · rfl
  · rw [look_insert, if_neg hp]

theorem look_write {content : τ} (hp : p ≠ d.child name) :
    look (write fs d name content).2 p = look fs p := by
  unfold write
  split_ifs
  · split
    · rfl
    · rw [look_insert, if_neg hp]
  · rfl

theorem look_removeDirAll (hp : ¬Under d p) : look (removeDirAll fs d).2 p = look fs p := by
  unfold removeDirAll
  split_ifs
  · rw [look_keep, if_pos (by simpa using hp)]
  · split
    · rfl
    · rfl

end Hitz.FileTree

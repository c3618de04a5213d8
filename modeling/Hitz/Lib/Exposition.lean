import Hitz.Lib.Words

/-!
# The Prometheus text exposition format

A document is a sequence of lines: comments, among them the `TYPE` lines, and samples, each with its
labels.  A label value stands between quotes; in it a backslash, a quote and a line feed have to be
escaped.  `parse` reads a document, and `WellTyped` is the rule about `TYPE` lines: at most one for
each metric name, and before the samples of this name.

`readValue_eq_some_iff`: reading a label value is the inverse of `escape`; so a value that was
written without escaping is read back only if there was nothing to escape (`plain_of_readValue`).
-/

namespace Exposition

/-- A sample; the numbers are kept as they are written. -/
structure Sample where
  name : List Char
  labels : List (List Char × List Char)
  value : List Char
  timestamp : Option (List Char)
  deriving DecidableEq, Repr

/-- A line of a document. -/
inductive Entry
  | blank
  | comment
  | typed (name : List Char)
  | sample (s : Sample)
  deriving DecidableEq, Repr

/-! ### Label values -/

/-- A character of a label value, escaped. -/
def escapeChar : Char → List Char
  | '\\' => ['\\', '\\']
  | '"' => ['\\', '"']
  | '\n' => ['\\', 'n']
  | c => [c]

/-- A label value, escaped. -/
def escape (value : List Char) : List Char := value.flatMap escapeChar

/-- A label value in which there is nothing to escape. -/
def Plain (value : List Char) : Prop := '\\' ∉ value ∧ '"' ∉ value ∧ '\n' ∉ value

instance (value : List Char) : Decidable (Plain value) :=
  inferInstanceAs (Decidable (_ ∧ _ ∧ _))

/-- The character that a backslash and another character stand for. -/
def unescapeChar (c : Char) : Option Char :=
  if c = 'n' then some '\n' else if c = '\\' ∨ c = '"' then some c else none

/-- A label value after its opening quote, and what is behind its closing quote. -/
def readValue : List Char → Option (List Char × List Char)
  | [] => none
  | [c] => if c = '"' then some ([], []) else none
  | c :: d :: rest =>
    if c = '"' then some ([], d :: rest)
    else if c = '\n' then none
    else if c = '\\' then
      (unescapeChar d).bind fun c => (readValue rest).map (Prod.map (c :: ·) id)
    else (readValue (d :: rest)).map (Prod.map (c :: ·) id)

theorem readValue_escapeChar (c : Char) (rest : List Char) :
    readValue (escapeChar c ++ rest) = (readValue rest).map (Prod.map (c :: ·) id) := by
  unfold escapeChar
  split
  · rfl
  · rfl
  · rfl
  · rename_i hslash hquote hline
    cases rest with
    | nil => rw [List.singleton_append, readValue, readValue, if_neg hquote, Option.map_none]
    | cons d rest =>
      rw [List.singleton_append, readValue, if_neg hquote, if_neg hline, if_neg hslash]

theorem escapeChar_of_ne {c : Char} (hslash : c ≠ '\\') (hquote : c ≠ '"') (hline : c ≠ '\n') :
    escapeChar c = [c] := by
  unfold escapeChar
  split <;> first | rfl | contradiction

theorem escapeChar_of_unescapeChar {c d : Char} (h : unescapeChar d = some c) :
    escapeChar c = ['\\', d] := by
  unfold unescapeChar at h
  split_ifs at h with hn hc
  · rw [hn, ← Option.some.inj h]
    rfl
  · rw [← Option.some.inj h]
    rcases hc with rfl | rfl <;> rfl

theorem map_cons_eq_some_iff {c : Char} {x : Option (List Char × List Char)} {v r : List Char} :
    x.map (Prod.map (c :: ·) id) = some (v, r) ↔ ∃ w, v = c :: w ∧ x = some (w, r) := by
  cases x with
  | none => simp
  | some p => simp [Prod.ext_iff, eq_comm, and_comm]

/-- Reading a value is the inverse of escaping it. -/
theorem readValue_eq_some_iff {cs v r : List Char} :
    readValue cs = some (v, r) ↔ cs = escape v ++ '"' :: r := by
  constructor
  · intro h
    fun_induction readValue cs generalizing v with
    | case1 => cases h
    | case2 =>
      cases h
      rfl
    | case3 => cases h
    | case4 =>
      cases h
      rfl
    | case5 => cases h
    | case6 d rest _ _ ih =>
      obtain ⟨c, hc, h⟩ := Option.bind_eq_some_iff.1 h
      obtain ⟨w, rfl, hw⟩ := map_cons_eq_some_iff.1 h
      rw [escape, List.flatMap_cons, escapeChar_of_unescapeChar hc, ih hw]
      rfl
    | case7 c d rest hquote hline hslash ih =>
      obtain ⟨w, rfl, hw⟩ := map_cons_eq_some_iff.1 h
      rw [escape, List.flatMap_cons, escapeChar_of_ne hslash hquote hline, ih hw]
      rfl
  · rintro rfl
    induction v with
    | nil => cases r <;> rfl
    | cons c v ih =>
      rw [escape, List.flatMap_cons, List.append_assoc, readValue_escapeChar, ← escape, ih]
      rfl

theorem plain_cons {c : Char} {v : List Char} :
    Plain (c :: v) ↔ (c ≠ '\\' ∧ c ≠ '"' ∧ c ≠ '\n') ∧ Plain v := by
  simp only [Plain, List.mem_cons, not_or, ne_eq, eq_comm (a := c)]
  tauto

theorem escape_of_plain {v : List Char} (h : Plain v) : escape v = v := by
  induction v with
  | nil => rfl
  | cons c v ih =>
    obtain ⟨⟨hslash, hquote, hline⟩, hv⟩ := plain_cons.1 h
    rw [escape, List.flatMap_cons, escapeChar_of_ne hslash hquote hline, ← escape, ih hv]
    rfl

theorem readValue_of_plain {v : List Char} (h : Plain v) (rest : List Char) :
    readValue (v ++ '"' :: rest) = some (v, rest) := by
  rw [readValue_eq_some_iff, escape_of_plain h]

/-- Where there is something to escape, escaping makes a value longer. -/
theorem length_lt_escape {v : List Char} (h : ¬Plain v) : v.length < (escape v).length := by
  have hle : ∀ v, v.length ≤ (escape v).length := by
    intro v
    induction v with
    | nil => rfl
    | cons c v ih =>
      have hc : 1 ≤ (escapeChar c).length := by
        unfold escapeChar
        split <;> simp
      rw [escape, List.flatMap_cons, List.length_append, ← escape, List.length_cons]
      omega
  induction v with
  | nil => exact absurd ⟨by simp, by simp, by simp⟩ h
  | cons c v ih =>
    rw [escape, List.flatMap_cons, List.length_append, ← escape, List.length_cons]
    by_cases hc : c ≠ '\\' ∧ c ≠ '"' ∧ c ≠ '\n'
    · rw [plain_cons, and_iff_right hc] at h
      rw [escapeChar_of_ne hc.1 hc.2.1 hc.2.2, List.length_singleton]
      have := ih h
      omega
    · have hc2 : (escapeChar c).length = 2 := by
        unfold escapeChar
        split <;> first | rfl | simp_all
      have := hle v
      omega

theorem count_quote_escape (v : List Char) : (escape v).count '"' = v.count '"' := by
  induction v with
  | nil => rfl
  | cons c v ih =>
    have hc : (escapeChar c).count '"' = [c].count '"' := by
      unfold escapeChar
      split <;> rfl
    rw [escape, List.flatMap_cons, List.count_append, ← escape, ih, hc, ← List.count_append,
      List.singleton_append]

/-- A value that was written as it is, and is read back, had nothing to escape: its closing quote
would have to be one of its own. -/
theorem plain_of_readValue {cs v r t : List Char} (h : readValue cs = some (v, r))
    (hcs : cs <+: v ++ '"' :: t) : Plain v := by
  by_contra hplain
  have hlt := length_lt_escape hplain
  have hescape : escape v <+: v ++ '"' :: t := by
    rw [readValue_eq_some_iff.1 h] at hcs
    exact (List.prefix_append _ _).trans hcs
  have hquote : v ++ ['"'] <+: escape v := by
    refine List.prefix_of_prefix_length_le ?_ hescape (by simpa using hlt)
    exact ⟨t, by simp⟩
  have := hquote.sublist.count_le '"'
  rw [count_quote_escape, List.count_append, List.count_singleton_self] at this
  omega

/-! ### Labels -/

/-- A character of a metric or label name. -/
def isNameChar (c : Char) : Bool := c.isAlphanum || c == '_' || c == ':'

def isBlank (c : Char) : Bool := c == ' ' || c == '\t'

/-- What is behind a character, blanks before it skipped. -/
def expect (c : Char) (cs : List Char) : Option (List Char) :=
  match cs.dropWhile isBlank with
  | d :: rest => if d = c then some rest else none
  | [] => none

/-- A label, and what is behind it. -/
def readLabel (cs : List Char) : Option ((List Char × List Char) × List Char) := do
  let cs := cs.dropWhile isBlank
  let rest ← expect '=' (cs.dropWhile isNameChar)
  let rest ← expect '"' rest
  let (value, rest) ← readValue rest
  if cs.takeWhile isNameChar = [] then none else some ((cs.takeWhile isNameChar, value), rest)

/-- The labels up to the closing brace, and what is behind it; the fuel bounds their number. -/
def readLabels : ℕ → List Char → Option (List (List Char × List Char) × List Char)
  | 0, _ => none
  | fuel + 1, cs =>
    match expect '}' cs with
    | some rest => some ([], rest)
    | none => do
      let (label, rest) ← readLabel cs
      match expect ',' rest with
      | some rest => do
        let (labels, rest) ← readLabels fuel rest
        some (label :: labels, rest)
      | none => do
        let rest ← expect '}' rest
        some ([label], rest)

/-- A metric or label name. -/
def IsName (name : List Char) : Prop := name ≠ [] ∧ ∀ c ∈ name, isNameChar c = true

instance (name : List Char) : Decidable (IsName name) :=
  @instDecidableAnd _ _ inferInstance (List.decidableBAll _ name)

/-- Labels between commas, their values written as they are. -/
def writeLabels (labels : List (List Char × List Char)) : List Char :=
  [','].intercalate (labels.map fun l => l.1 ++ '=' :: '"' :: (l.2 ++ ['"']))

theorem expect_cons {c : Char} (hc : isBlank c = false) (rest : List Char) :
    expect c (c :: rest) = some rest := by
  rw [expect, List.dropWhile_cons_of_neg (by simp [hc])]
  exact if_pos rfl

theorem expect_of_ne {c d : Char} (hd : isBlank d = false) (hne : d ≠ c) (rest : List Char) :
    expect c (d :: rest) = none := by
  rw [expect, List.dropWhile_cons_of_neg (by simp [hd])]
  exact if_neg hne

theorem isBlank_of_isNameChar {c : Char} (h : isNameChar c = true) : isBlank c = false := by
  rw [isBlank, Bool.or_eq_false_iff]
  constructor
  · rw [beq_eq_false_iff_ne]
    rintro rfl
    revert h
    decide
  · rw [beq_eq_false_iff_ne]
    rintro rfl
    revert h
    decide

section Name

variable {name : List Char} {c : Char}

theorem takeWhile_name (h : IsName name) (hc : isNameChar c = false) (rest : List Char) :
    (name ++ c :: rest).takeWhile isNameChar = name := by
  rw [List.takeWhile_append_of_pos h.2, List.takeWhile_cons_of_neg (by simp [hc]), List.append_nil]

theorem dropWhile_name (h : IsName name) (hc : isNameChar c = false) (rest : List Char) :
    (name ++ c :: rest).dropWhile isNameChar = c :: rest := by
  rw [List.dropWhile_append_of_pos h.2, List.dropWhile_cons_of_neg (by simp [hc])]

theorem dropWhile_blank (h : IsName name) (rest : List Char) :
    (name ++ rest).dropWhile isBlank = name ++ rest := by
  obtain ⟨hne, hname⟩ := h
  cases name with
  | nil => exact absurd rfl hne
  | cons d name =>
    have := isBlank_of_isNameChar (hname d (List.mem_cons_self ..))
    rw [List.cons_append, List.dropWhile_cons_of_neg (by simp [this])]

theorem not_mem_name (h : IsName name) (hc : isNameChar c = false) : c ∉ name := by
  intro hmem
  rw [h.2 c hmem] at hc
  cases hc

theorem expect_name (h : IsName name) (hc : isNameChar c = false) (rest : List Char) :
    expect c (name ++ rest) = none := by
  obtain ⟨hne, hname⟩ := h
  cases name with
  | nil => exact absurd rfl hne
  | cons d name =>
    have hd := hname d (List.mem_cons_self ..)
    refine expect_of_ne (isBlank_of_isNameChar hd) ?_ _
    rintro rfl
    rw [hd] at hc
    cases hc

end Name

/-- A label is read by reading its value. -/
theorem readLabel_append {name : List Char} (h : IsName name) (cs : List Char) :
    readLabel (name ++ '=' :: '"' :: cs) = (readValue cs).map fun p => ((name, p.1), p.2) := by
  rw [readLabel, dropWhile_blank h, dropWhile_name h (by decide), takeWhile_name h (by decide),
    expect_cons (by decide), Option.bind_eq_bind, Option.bind_some, expect_cons (by decide),
    Option.bind_eq_bind, Option.bind_some]
  cases readValue cs with
  | none => rfl
  | some p => exact if_neg h.1

section Step

variable {name cs v rest : List Char} {fuel : ℕ}

theorem readLabels_of_comma (h : IsName name) (hv : readValue cs = some (v, ',' :: rest)) :
    readLabels (fuel + 1) (name ++ '=' :: '"' :: cs) =
      (readLabels fuel rest).map (Prod.map ((name, v) :: ·) id) := by
  rw [readLabels, expect_name h (by decide), readLabel_append h, hv]
  simp only [Option.map_some, Option.bind_eq_bind, Option.bind_some, expect_cons (c := ',') rfl]
  cases readLabels fuel rest with
  | none => rfl
  | some p => rfl

theorem readLabels_of_brace (h : IsName name) (hv : readValue cs = some (v, '}' :: rest)) :
    readLabels (fuel + 1) (name ++ '=' :: '"' :: cs) = some ([(name, v)], rest) := by
  rw [readLabels, expect_name h (by decide), readLabel_append h, hv]
  simp only [Option.map_some, Option.bind_eq_bind, Option.bind_some, expect_cons (c := '}') rfl,
    expect_of_ne (c := ',') (d := '}') rfl (by decide)]

/-- The first label that is read has the value behind its name. -/
theorem readValue_of_readLabels (h : IsName name) {l : List Char × List Char}
    {ls : List (List Char × List Char)} {r : List Char}
    (hl : readLabels fuel (name ++ '=' :: '"' :: cs) = some (l :: ls, r)) :
    ∃ rest, readValue cs = some (l.2, rest) := by
  cases fuel with
  | zero => cases hl
  | succ fuel =>
    rw [readLabels, expect_name h (by decide), readLabel_append h] at hl
    cases hv : readValue cs with
    | none =>
      rw [hv] at hl
      cases hl
    | some p =>
      rw [hv] at hl
      simp only [Option.map_some, Option.bind_eq_bind, Option.bind_some] at hl
      split at hl
      · obtain ⟨q, -, hl⟩ := Option.bind_eq_some_iff.1 hl
        cases hl
        exact ⟨p.2, rfl⟩
      · obtain ⟨q, -, hl⟩ := Option.bind_eq_some_iff.1 hl
        cases hl
        exact ⟨p.2, rfl⟩

end Step

theorem writeLabels_cons_cons (l l' : List Char × List Char) (ls : List (List Char × List Char))
    (rest : List Char) : writeLabels (l :: l' :: ls) ++ rest =
      l.1 ++ '=' :: '"' :: (l.2 ++ '"' :: ',' :: (writeLabels (l' :: ls) ++ rest)) := by
  simp [writeLabels, List.intercalate_cons_cons]

theorem writeLabels_singleton (l : List Char × List Char) (rest : List Char) :
    writeLabels [l] ++ rest = l.1 ++ '=' :: '"' :: (l.2 ++ '"' :: rest) := by
  simp [writeLabels]

theorem length_le_writeLabels (labels : List (List Char × List Char)) (rest : List Char) :
    labels.length ≤ (writeLabels labels ++ rest).length := by
  induction labels with
  | nil => exact Nat.zero_le _
  | cons l ls ih =>
    cases ls with
    | nil =>
      rw [writeLabels_singleton]
      simp
      omega
    | cons l' ls =>
      rw [writeLabels_cons_cons]
      simp only [List.length_append, List.length_cons] at ih ⊢
      omega

/-- Labels with nothing to escape stay on their line. -/
theorem newline_writeLabels {labels : List (List Char × List Char)}
    (hname : ∀ l ∈ labels, IsName l.1) (hplain : ∀ l ∈ labels, Plain l.2) {rest : List Char}
    (hrest : '\n' ∉ rest) : '\n' ∉ writeLabels labels ++ rest := by
  induction labels with
  | nil => exact hrest
  | cons l ls ih =>
    obtain ⟨hl, hls⟩ := List.forall_mem_cons.1 hname
    obtain ⟨hv, hvs⟩ := List.forall_mem_cons.1 hplain
    have hcons : ∀ t, '\n' ∉ t → '\n' ∉ l.1 ++ '=' :: '"' :: (l.2 ++ '"' :: t) := by
      intro t ht
      simp only [List.mem_append, List.mem_cons, not_or]
      exact ⟨not_mem_name hl (by decide), by decide, by decide, hv.2.2, by decide, ht⟩
    cases ls with
    | nil =>
      rw [writeLabels_singleton]
      exact hcons rest hrest
    | cons l' ls =>
      rw [writeLabels_cons_cons]
      exact hcons _ (List.not_mem_cons_of_ne_of_not_mem (by decide) (ih hls hvs))

/-- Labels with nothing to escape are read back. -/
theorem readLabels_write {labels : List (List Char × List Char)} (hne : labels ≠ [])
    (hname : ∀ l ∈ labels, IsName l.1) (hplain : ∀ l ∈ labels, Plain l.2) {fuel : ℕ}
    (hfuel : labels.length ≤ fuel) (rest : List Char) :
    readLabels fuel (writeLabels labels ++ '}' :: rest) = some (labels, rest) := by
  induction labels generalizing fuel with
  | nil => exact absurd rfl hne
  | cons l ls ih =>
    obtain ⟨fuel, rfl⟩ : ∃ k, fuel = k + 1 := ⟨fuel - 1, by simp at hfuel; omega⟩
    obtain ⟨hl, hls⟩ := List.forall_mem_cons.1 hname
    obtain ⟨hv, hvs⟩ := List.forall_mem_cons.1 hplain
    cases ls with
    | nil =>
      rw [writeLabels_singleton, readLabels_of_brace hl (readValue_of_plain hv _)]
    | cons l' ls =>
      rw [writeLabels_cons_cons, readLabels_of_comma hl (readValue_of_plain hv _),
        ih (List.cons_ne_nil l' ls) hls hvs (Nat.le_of_succ_le_succ hfuel)]
      rfl

/-- The part of a text before its first line feed. -/
def firstLine (cs : List Char) : List Char := cs.takeWhile (· ≠ '\n')

theorem firstLine_append {cs : List Char} (h : '\n' ∉ cs) (rest : List Char) :
    firstLine (cs ++ rest) = cs ++ firstLine rest := by
  apply List.takeWhile_append_of_pos
  intro c hc
  exact decide_eq_true fun heq => h (heq ▸ hc)

theorem firstLine_cons {c : Char} (h : c ≠ '\n') (rest : List Char) :
    firstLine (c :: rest) = c :: firstLine rest :=
  List.takeWhile_cons_of_pos (decide_eq_true h)

/-- Labels that were written as they are, and are read back from their line, had nothing to
escape. -/
theorem plain_of_readLabels {labels : List (List Char × List Char)}
    (hname : ∀ l ∈ labels, IsName l.1) {fuel : ℕ} {rest r : List Char}
    (h : readLabels fuel (firstLine (writeLabels labels ++ '}' :: rest)) = some (labels, r)) :
    ∀ l ∈ labels, Plain l.2 := by
  induction labels generalizing fuel r with
  | nil => simp
  | cons l ls ih =>
    obtain ⟨hl, hls⟩ := List.forall_mem_cons.1 hname
    have hline : ∀ t, firstLine (l.1 ++ '=' :: '"' :: (l.2 ++ '"' :: t)) =
        l.1 ++ '=' :: '"' :: firstLine (l.2 ++ '"' :: t) := by
      intro t
      rw [firstLine_append (not_mem_name hl (by decide)), firstLine_cons (by decide),
        firstLine_cons (by decide)]
    cases ls with
    | nil =>
      rw [writeLabels_singleton, hline] at h
      obtain ⟨t, hv⟩ := readValue_of_readLabels hl h
      rw [List.forall_mem_singleton]
      exact plain_of_readValue hv (List.takeWhile_prefix _)
    | cons l' ls =>
      rw [writeLabels_cons_cons, hline] at h
      obtain ⟨t, hv⟩ := readValue_of_readLabels hl h
      have hplain := plain_of_readValue hv (List.takeWhile_prefix _)
      rw [firstLine_append hplain.2.2, firstLine_cons (by decide), firstLine_cons (by decide)] at h
      cases fuel with
      | zero => cases h
      | succ fuel =>
        rw [readLabels_of_comma hl (readValue_of_plain hplain _)] at h
        obtain ⟨⟨ls', r'⟩, hls', heq⟩ := Option.map_eq_some_iff.1 h
        obtain ⟨hlabels, -⟩ := Prod.ext_iff.1 heq
        have hrest : ls' = l' :: ls := (List.cons.inj hlabels).2
        subst hrest
        exact List.forall_mem_cons.2 ⟨hplain, ih hls hls'⟩

/-! ### Lines -/

/-- What stands between the blanks of a line. -/
def words (cs : List Char) : List (List Char) := Words.split isBlank cs

/-- A token: neither blank nor line feed in it. -/
def IsWord (w : List Char) : Prop := Words.IsWord isBlank w ∧ '\n' ∉ w

instance (w : List Char) : Decidable (IsWord w) := inferInstanceAs (Decidable (_ ∧ _))

/-- The value and the timestamp of a sample. -/
def readNumbers (cs : List Char) : Option (List Char × Option (List Char)) :=
  match words cs with
  | [value] => some (value, none)
  | [value, timestamp] => some (value, some timestamp)
  | _ => none

/-- A sample: a name, labels in braces, a value and a timestamp. -/
def readSample (cs : List Char) : Option Sample := do
  let rest := cs.dropWhile isNameChar
  let (labels, rest) ←
    match expect '{' rest with
    | some rest => readLabels (rest.length + 1) rest
    | none => some ([], rest)
  let (value, timestamp) ← readNumbers rest
  if cs.takeWhile isNameChar = [] then none
  else some ⟨cs.takeWhile isNameChar, labels, value, timestamp⟩

/-- The types of a `TYPE` line. -/
def kinds : List String := ["counter", "gauge", "histogram", "summary", "untyped"]

/-- A comment, behind its `#`. -/
def readComment (cs : List Char) : Option Entry :=
  match words cs with
  | [] => some .comment
  | keyword :: args =>
    if keyword = "TYPE".toList then
      match args with
      | [name, kind] => if String.ofList kind ∈ kinds then some (.typed name) else none
      | _ => none
    else some .comment

/-- A line of a document. -/
def parseLine (line : List Char) : Option Entry :=
  match line.dropWhile isBlank with
  | [] => some .blank
  | c :: cs => if c = '#' then readComment cs else (readSample (c :: cs)).map .sample

/-- The lines of a text. -/
def parseLines (text : List Char) : Option (List Entry) := (text.splitOn '\n').mapM parseLine

/-- A document; its last line has to end with a line feed. -/
def parse (text : List Char) : Option (List Entry) :=
  if text = [] ∨ text.getLast? = some '\n' then parseLines text else none

/-- The samples of a document. -/
def samples (entries : List Entry) : List Sample :=
  entries.filterMap fun
    | .sample s => some s
    | _ => none

/-- The names of the `TYPE` lines of a document. -/
def typedNames (entries : List Entry) : List (List Char) :=
  entries.filterMap fun
    | .typed name => some name
    | _ => none

/-- At most one `TYPE` line for a name, and no sample of this name before it. -/
structure WellTyped (entries : List Entry) : Prop where
  once : (typedNames entries).Nodup
  before : ∀ earlier name later, entries = earlier ++ .typed name :: later →
    ∀ s ∈ samples earlier, s.name ≠ name

/-! ### Reading written lines -/

section Words

variable {w : List Char}

theorem words_blank_cons {c : Char} (hc : isBlank c = true) (cs : List Char) :
    words (c :: cs) = words cs :=
  Words.split_sep_cons hc cs

theorem words_append {c : Char} (h : IsWord w) (hc : isBlank c = true) (cs : List Char) :
    words (w ++ c :: cs) = w :: words cs := by
  rw [words, Words.split_append h.1 (Words.ends_cons hc cs), Words.split_sep_cons hc, words]

theorem words_word (h : IsWord w) : words w = [w] := Words.split_word h.1

theorem isWord_name (h : IsName w) : IsWord w := by
  exact ⟨⟨h.1, fun c hc => isBlank_of_isNameChar (h.2 c hc)⟩, not_mem_name h (by decide)⟩

end Words

theorem readNumbers_write {value timestamp : List Char} (hv : IsWord value)
    (ht : IsWord timestamp) :
    readNumbers (' ' :: (value ++ ' ' :: timestamp)) = some (value, some timestamp) := by
  rw [readNumbers, words_blank_cons rfl, words_append hv rfl, words_word ht]

/-- A comment that is no `TYPE` line. -/
theorem parseLine_comment {keyword : List Char} (h : IsWord keyword) (hne : keyword ≠ "TYPE".toList)
    (rest : List Char) : parseLine ('#' :: ' ' :: (keyword ++ ' ' :: rest)) = some .comment := by
  rw [parseLine, List.dropWhile_cons_of_neg (by decide)]
  simp only [if_true]
  rw [readComment, words_blank_cons rfl, words_append h rfl]
  exact if_neg hne

theorem parseLine_typed {name kind : List Char} (hname : IsWord name) (hkind : IsWord kind)
    (hmem : String.ofList kind ∈ kinds) :
    parseLine ("# TYPE ".toList ++ (name ++ ' ' :: kind)) = some (.typed name) := by
  have htype : IsWord "TYPE".toList := by decide
  rw [parseLine]
  have hdrop : ("# TYPE ".toList ++ (name ++ ' ' :: kind)).dropWhile isBlank =
      '#' :: ' ' :: ("TYPE".toList ++ ' ' :: (name ++ ' ' :: kind)) := rfl
  rw [hdrop]
  simp only [if_true]
  rw [readComment, words_blank_cons rfl, words_append htype rfl, words_append hname rfl,
    words_word hkind]
  simp only [if_true, if_pos hmem]

/-- A line that starts with a name and a brace is a sample with the labels behind the brace. -/
theorem parseLine_sample {name : List Char} (h : IsName name) (cs : List Char) :
    parseLine (name ++ '{' :: cs) = (readLabels (cs.length + 1) cs).bind fun p =>
      (readNumbers p.2).map fun q => .sample ⟨name, p.1, q.1, q.2⟩ := by
  have hsample : readSample (name ++ '{' :: cs) = (readLabels (cs.length + 1) cs).bind fun p =>
      (readNumbers p.2).map fun q => ⟨name, p.1, q.1, q.2⟩ := by
    rw [readSample, dropWhile_name h rfl, takeWhile_name h rfl, expect_cons rfl]
    simp only [Option.bind_eq_bind, if_neg h.1]
    congr 1
    funext p
    cases readNumbers p.2 with
    | none => rfl
    | some q => rfl
  rw [parseLine, dropWhile_blank h]
  cases name with
  | nil => exact absurd rfl h.1
  | cons c name =>
    have hc : c ≠ '#' := by
      rintro rfl
      exact not_mem_name h (c := '#') rfl (List.mem_cons_self ..)
    rw [List.cons_append] at hsample ⊢
    simp only [if_neg hc, hsample, Option.map_bind]
    congr 1
    funext p
    exact Option.map_map ..

/-! ### Lines of a document -/

theorem parseLines_line {line : List Char} (h : '\n' ∉ line) :
    parseLines line = (parseLine line).map fun e => [e] := by
  rw [parseLines, List.splitOn_eq_singleton h, List.mapM_cons, List.mapM_nil]
  cases parseLine line with
  | none => rfl
  | some e => rfl

theorem parseLines_append_eq_some_iff {cs rest : List Char} {es : List Entry} :
    parseLines (cs ++ '\n' :: rest) = some es ↔ ∃ es₁ es₂, parseLines cs = some es₁ ∧
      parseLines rest = some es₂ ∧ es₁ ++ es₂ = es := by
  rw [parseLines, List.splitOn_append_cons_self, List.mapM_append, ← parseLines, ← parseLines]
  simp only [Option.bind_eq_bind, Option.bind_eq_some_iff, Option.pure_def, Option.some.injEq,
    exists_and_left]

/-- A line in front of a document. -/
theorem parseLines_cons_eq_some_iff {line rest : List Char} (h : '\n' ∉ line) {es : List Entry} :
    parseLines (line ++ '\n' :: rest) = some es ↔ ∃ e es', parseLine line = some e ∧
      parseLines rest = some es' ∧ e :: es' = es := by
  rw [parseLines_append_eq_some_iff, parseLines_line h]
  simp

/-- The first line of a text that is read. -/
theorem parseLine_firstLine {cs : List Char} {es : List Entry} (h : parseLines cs = some es) :
    ∃ e rest, es = e :: rest ∧ parseLine (firstLine cs) = some e := by
  by_cases hmem : '\n' ∈ cs
  · obtain ⟨line, rest, rfl, hline⟩ := List.eq_append_cons_of_mem hmem
    obtain ⟨e, es, he, -, rfl⟩ := (parseLines_cons_eq_some_iff hline).1 h
    refine ⟨e, es, rfl, ?_⟩
    rw [firstLine_append hline, firstLine, List.takeWhile_cons_of_neg (by simp), List.append_nil]
    exact he
  · rw [parseLines_line hmem] at h
    obtain ⟨e, he, rfl⟩ := Option.map_eq_some_iff.1 h
    refine ⟨e, [], rfl, ?_⟩
    have := firstLine_append hmem []
    rw [List.append_nil] at this
    rw [this]
    simpa [firstLine] using he

theorem typedNames_append (es es' : List Entry) :
    typedNames (es ++ es') = typedNames es ++ typedNames es' :=
  List.filterMap_append

/-- A document with two `TYPE` lines for one name breaks the rule. -/
theorem not_wellTyped_of_twice {name line before between after : List Char} {es : List Entry}
    (hline : '\n' ∉ line) (htyped : parseLine line = some (.typed name))
    (h : parseLines (before ++ '\n' :: (line ++ '\n' ::
      (between ++ '\n' :: (line ++ '\n' :: after)))) = some es) : ¬WellTyped es := by
  obtain ⟨es₁, _, -, h₁, rfl⟩ := parseLines_append_eq_some_iff.1 h
  obtain ⟨e, _, he, h₂, rfl⟩ := (parseLines_cons_eq_some_iff hline).1 h₁
  obtain ⟨es₂, _, -, h₃, rfl⟩ := parseLines_append_eq_some_iff.1 h₂
  obtain ⟨e', es₃, he', -, rfl⟩ := (parseLines_cons_eq_some_iff hline).1 h₃
  obtain rfl := Option.some.inj (htyped.symm.trans he)
  obtain rfl := Option.some.inj (htyped.symm.trans he')
  intro hwell
  have hnodup := hwell.once
  rw [typedNames_append, List.nodup_append] at hnodup
  have hhead : name ∉ typedNames (es₂ ++ .typed name :: es₃) := (List.nodup_cons.1 hnodup.2.1).1
  rw [typedNames_append] at hhead
  exact hhead (List.mem_append_right _ (List.mem_cons_self ..))

example : parse "# TYPE up gauge\nup\x7bjob=\"a\\\"b\", \x7d 1 17\n".toList =
    some [.typed "up".toList,
      .sample ⟨"up".toList, [("job".toList, "a\"b".toList)], "1".toList, some "17".toList⟩,
      .blank] := by
  decide +kernel

end Exposition

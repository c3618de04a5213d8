import Mathlib

/-!
# Words of a text

A text is cut at separators: at all of them (`split`, which drops empty pieces), at the first one
(`takeWhile`, `dropWhile`), at the last one (`splitLast`) or at the ends of its lines (`lines`).
`Shows` leaves open how the words are padded, and `trim` removes the padding at both ends.
-/

namespace Words

/-! ### All separators -/

/-- What stands between the separators. -/
def split (sep : Char → Bool) (cs : List Char) : List (List Char) :=
  (cs.splitOnP sep).filter fun w => w ≠ []

/-- A piece without separators. -/
def IsWord (sep : Char → Bool) (w : List Char) : Prop := w ≠ [] ∧ ∀ c ∈ w, sep c = false

instance (sep : Char → Bool) (w : List Char) : Decidable (IsWord sep w) :=
  @instDecidableAnd _ _ inferInstance (List.decidableBAll _ w)

/-- A text at whose start a word ends. -/
def Ends (sep : Char → Bool) (cs : List Char) : Prop := ∀ c ∈ cs.head?, sep c = true

section Split

variable {sep : Char → Bool} {w : List Char} {c : Char}

theorem split_sep_cons (hc : sep c = true) (cs : List Char) :
    split sep (c :: cs) = split sep cs := by
  rw [split, List.splitOnP_cons_eq_if_modifyHead, if_pos hc, List.filter_cons_of_neg (by simp)]
  rfl

theorem ends_cons (hc : sep c = true) (cs : List Char) : Ends sep (c :: cs) := by
  intro d hd
  rw [← Option.some.inj hd]
  exact hc

theorem split_word (h : IsWord sep w) : split sep w = [w] := by
  rw [split, List.splitOnP_eq_singleton h.2, List.filter_cons_of_pos (by simp [h.1]),
    List.filter_nil]

theorem split_append (h : IsWord sep w) {cs : List Char} (hcs : Ends sep cs) :
    split sep (w ++ cs) = w :: split sep cs := by
  cases cs with
  | nil =>
    rw [List.append_nil, split_word h]
    rfl
  | cons c cs =>
    have hc : sep c = true := hcs c rfl
    rw [split_sep_cons hc, split, List.splitOnP_append_cons_of_forall_mem h.2 c hc,
      List.filter_cons_of_pos (by simp [h.1])]
    rfl

/-- Words with a separator before each. -/
theorem split_flatMap {ws : List (List Char)} (hws : ∀ w ∈ ws, IsWord sep w) (hc : sep c = true)
    {cs : List Char} (hcs : Ends sep cs) :
    Ends sep (ws.flatMap (c :: ·) ++ cs) ∧
      split sep (ws.flatMap (c :: ·) ++ cs) = ws ++ split sep cs := by
  induction ws with
  | nil => exact ⟨hcs, rfl⟩
  | cons w ws ih =>
    obtain ⟨hw, hws⟩ := List.forall_mem_cons.1 hws
    obtain ⟨hends, hsplit⟩ := ih hws
    refine ⟨ends_cons hc _, ?_⟩
    rw [List.flatMap_cons, List.cons_append, List.cons_append, split_sep_cons hc,
      List.append_assoc, split_append hw hends, hsplit, List.cons_append]

/-- A separator in the middle. -/
theorem split_append_cons (hc : sep c = true) (cs ds : List Char) :
    split sep (cs ++ c :: ds) = split sep cs ++ split sep ds := by
  rw [split, List.splitOnP_append_cons cs ds hc, List.filter_append]
  rfl

/-- The text has these words, with any separators around them. -/
inductive Shows (sep : Char → Bool) : List Char → List (List Char) → Prop
  | nil : Shows sep [] []
  | pad {c : Char} {cs : List Char} {ws : List (List Char)} :
      sep c = true → Shows sep cs ws → Shows sep (c :: cs) ws
  | word {w cs : List Char} {ws : List (List Char)} :
      IsWord sep w → Ends sep cs → Shows sep cs ws → Shows sep (w ++ cs) (w :: ws)

/-- Words with a separator before each. -/
theorem shows_flatMap {ws : List (List Char)} (hws : ∀ w ∈ ws, IsWord sep w) (hc : sep c = true) :
    Shows sep (ws.flatMap (c :: ·)) ws := by
  induction ws with
  | nil => exact Shows.nil
  | cons w ws ih =>
    obtain ⟨hw, hws⟩ := List.forall_mem_cons.1 hws
    rw [List.flatMap_cons, List.cons_append]
    refine Shows.pad hc (Shows.word hw ?_ (ih hws))
    cases ws with
    | nil => simp [Ends]
    | cons v ws => exact ends_cons hc _

theorem Shows.split {cs : List Char} {ws : List (List Char)} (h : Shows sep cs ws) :
    split sep cs = ws := by
  induction h with
  | nil => rfl
  | pad hc _ ih => rw [split_sep_cons hc, ih]
  | word hw hends _ ih => rw [split_append hw hends, ih]

end Split

/-! ### Both ends -/

/-- The text without the blanks at its ends. -/
def trim (blank : Char → Bool) (cs : List Char) : List Char :=
  (cs.dropWhile blank).rdropWhile blank

theorem trim_append {blank : Char → Bool} {before cs after : List Char}
    (hbefore : ∀ c ∈ before, blank c = true) (hcs : ∀ c ∈ cs, blank c = false)
    (hafter : ∀ c ∈ after, blank c = true) : trim blank (before ++ (cs ++ after)) = cs := by
  have hends : (cs ++ after).rdropWhile blank = cs := by
    rw [List.rdropWhile, List.reverse_append,
      List.dropWhile_append_of_pos fun c hc => hafter c (List.mem_reverse.1 hc)]
    refine (List.rdropWhile_eq_self_iff (p := blank)).2 fun hne => ?_
    rw [hcs _ (List.getLast_mem hne)]
    exact Bool.false_ne_true
  rw [trim, List.dropWhile_append_of_pos hbefore]
  cases cs with
  | nil =>
    rw [List.nil_append] at hends ⊢
    rw [show after.dropWhile blank = [] from List.dropWhile_eq_nil_iff.2 hafter]
    rfl
  | cons c cs =>
    rw [List.cons_append, List.dropWhile_cons_of_neg (by simp [hcs c List.mem_cons_self]),
      ← List.cons_append, hends]

/-! ### The first separator -/

section First

variable {sep : Char} {cs ds : List Char}

theorem takeWhile_append_cons (h : sep ∉ cs) : (cs ++ sep :: ds).takeWhile (· ≠ sep) = cs := by
  have hne : ∀ c ∈ cs, decide (c ≠ sep) = true := by
    intro c hc
    exact decide_eq_true fun heq => h (heq ▸ hc)
  rw [List.takeWhile_append_of_pos hne, List.takeWhile_cons_of_neg (by simp), List.append_nil]

theorem dropWhile_append_cons (h : sep ∉ cs) :
    (cs ++ sep :: ds).dropWhile (· ≠ sep) = sep :: ds := by
  have hne : ∀ c ∈ cs, decide (c ≠ sep) = true := by
    intro c hc
    exact decide_eq_true fun heq => h (heq ▸ hc)
  rw [List.dropWhile_append_of_pos hne, List.dropWhile_cons_of_neg (by simp)]

/-- What `dropWhile` leaves starts with the separator. -/
theorem eq_of_dropWhile {c : Char} (h : cs.dropWhile (· ≠ sep) = c :: ds) : c = sep := by
  have hhead := List.head?_dropWhile_not (· ≠ sep) cs
  rw [h] at hhead
  simpa using hhead

/-- The text is cut at its first separator. -/
theorem dropWhile_eq_cons_iff {before : List Char} :
    cs.dropWhile (· ≠ sep) = sep :: ds ∧ cs.takeWhile (· ≠ sep) = before ↔
      cs = before ++ sep :: ds ∧ sep ∉ before := by
  constructor
  · rintro ⟨hdrop, rfl⟩
    refine ⟨by rw [← hdrop, List.takeWhile_append_dropWhile], fun h => ?_⟩
    simpa using List.mem_takeWhile_imp h
  · rintro ⟨rfl, h⟩
    exact ⟨dropWhile_append_cons h, takeWhile_append_cons h⟩

end First

/-! ### The last separator -/

/-- The text before and behind its last separator. -/
def splitLast (sep : Char) : List Char → Option (List Char × List Char)
  | [] => none
  | c :: cs =>
    match splitLast sep cs with
    | some (before, behind) => some (c :: before, behind)
    | none => if c = sep then some ([], cs) else none

theorem splitLast_eq_none_iff {sep : Char} {cs : List Char} :
    splitLast sep cs = none ↔ sep ∉ cs := by
  induction cs with
  | nil => simp [splitLast]
  | cons c cs ih =>
    rw [splitLast, List.mem_cons, not_or, ← ih]
    cases splitLast sep cs with
    | some p => simp
    | none =>
      by_cases hc : c = sep
      · simp [hc]
      · simp [hc, Ne.symm hc]

theorem splitLast_eq_some_iff {sep : Char} {cs before behind : List Char} :
    splitLast sep cs = some (before, behind) ↔ cs = before ++ sep :: behind ∧ sep ∉ behind := by
  constructor
  · intro h
    induction cs generalizing before with
    | nil => cases h
    | cons c cs ih =>
      rw [splitLast] at h
      cases hcs : splitLast sep cs with
      | some p =>
        rw [hcs] at h
        cases h
        obtain ⟨heq, hbehind⟩ := ih hcs
        rw [heq]
        exact ⟨rfl, hbehind⟩
      | none =>
        rw [hcs] at h
        dsimp only at h
        split_ifs at h with hc
        cases h
        rw [hc]
        exact ⟨rfl, splitLast_eq_none_iff.1 hcs⟩
  · rintro ⟨rfl, h⟩
    induction before with
    | nil =>
      rw [List.nil_append, splitLast, splitLast_eq_none_iff.2 h]
      exact if_pos rfl
    | cons c before ih => rw [List.cons_append, splitLast, ih]

/-! ### Lines -/

/-- A line without the `\r` of a two-character ending. -/
def stripCr (line : List Char) : List Char :=
  if line.getLast? = some '\r' then line.dropLast else line

/-- The lines of a text; what is behind the last line feed counts unless it is empty. -/
def lines (cs : List Char) : List (List Char) :=
  (cs.splitOn '\n').dropLast.map stripCr ++
    ((cs.splitOn '\n').getLast?.toList.filter fun line => line ≠ [])

/-- The text that has these lines, each with a line feed. -/
def unlines (ls : List (List Char)) : List Char := ls.flatMap (· ++ ['\n'])

theorem lines_append {line : List Char} (h : '\n' ∉ line) (cs : List Char) :
    lines (line ++ '\n' :: cs) = stripCr line :: lines cs := by
  have hsplit : (line ++ '\n' :: cs).splitOn '\n' = line :: cs.splitOn '\n' := by
    refine List.splitOnP_append_cons_of_forall_mem (fun c hc => ?_) '\n' (by simp) cs
    exact beq_false_of_ne fun heq => h (heq ▸ hc)
  have hne : cs.splitOn '\n' ≠ [] := List.splitOnP_ne_nil _ _
  rw [lines, hsplit, List.dropLast_cons_of_ne_nil hne, List.getLast?_cons_of_ne_nil hne]
  rfl

/-- If `\r` separates words, then it does not matter whether a line has kept it. -/
theorem split_stripCr {sep : Char → Bool} (hcr : sep '\r' = true) (line : List Char) :
    split sep (stripCr line) = split sep line := by
  rw [stripCr]
  split_ifs with hlast
  · have hline : line.dropLast ++ ['\r'] = line := List.dropLast_append_getLast? _ hlast
    conv_rhs => rw [← hline, split_append_cons hcr]
    exact (List.append_nil _).symm
  · rfl

theorem stripCr_append_cons {c : Char} (hc : c ≠ '\r') (before cs : List Char) :
    stripCr (before ++ c :: cs) = before ++ c :: stripCr cs := by
  rw [stripCr, stripCr]
  cases cs with
  | nil => simp [hc]
  | cons d cs =>
    rw [List.getLast?_append_of_ne_nil _ (List.cons_ne_nil _ _), List.getLast?_cons_cons,
      List.dropLast_append_of_ne_nil (List.cons_ne_nil _ _), List.dropLast_cons_cons]
    split_ifs <;> rfl

theorem lines_unlines_append {ls : List (List Char)} (h : ∀ line ∈ ls, '\n' ∉ line)
    (cs : List Char) : lines (unlines ls ++ cs) = ls.map stripCr ++ lines cs := by
  induction ls with
  | nil => rfl
  | cons line ls ih =>
    obtain ⟨hline, hls⟩ := List.forall_mem_cons.1 h
    have hcons : unlines (line :: ls) ++ cs = line ++ '\n' :: (unlines ls ++ cs) := by
      rw [unlines, List.flatMap_cons, List.append_assoc, List.append_assoc]
      rfl
    rw [hcons, lines_append hline, ih hls, List.map_cons, List.cons_append]

end Words

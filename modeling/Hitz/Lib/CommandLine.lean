import Mathlib.Data.List.TakeWhile

/-!
# Command lines

A command line is a text that ends at its first NUL.  Its parameters are the words between blanks,
and most of them have the form `key=value`.
-/

namespace Hitz.CommandLine

/-- A blank, as C's `isspace`. -/
def isBlank (c : Char) : Bool := c = ' ' || ('\t' ≤ c && c ≤ '\r')

/-- The text before the first NUL. -/
def untilNul (text : List Char) : List Char := text.takeWhile (· ≠ '\x00')

/-- The parameters: the words between blanks. -/
def params (text : List Char) : List (List Char) :=
  ((untilNul text).splitOnP isBlank).filter (· ≠ [])

/-- What a word has behind a key. -/
def value (key word : List Char) : Option (List Char) :=
  if key.isPrefixOf word then some (word.drop key.length) else none

/-- A text that can be one parameter. -/
def IsWord (w : List Char) : Prop := w ≠ [] ∧ ∀ c ∈ w, isBlank c = false ∧ c ≠ '\x00'

theorem isWord_of_all {w : List Char} (hne : w ≠ [])
    (h : w.all (fun c => isBlank c = false ∧ c ≠ '\x00') = true) : IsWord w :=
  ⟨hne, fun c hc => of_decide_eq_true (List.all_eq_true.1 h c hc)⟩

/-- Words with a blank before each. -/
def spaced (ws : List (List Char)) : List Char := (ws.map (' ' :: ·)).flatten

theorem value_append (key rest : List Char) : value key (key ++ rest) = some rest := by
  have hkey : key.isPrefixOf (key ++ rest) := by simp
  rw [value, if_pos hkey, List.drop_left]

theorem mem_intercalate {s c : Char} :
    ∀ {parts : List (List Char)}, c ∈ [s].intercalate parts → c = s ∨ ∃ p ∈ parts, c ∈ p
  | [], h => by cases h
  | [p], h => Or.inr ⟨p, List.mem_singleton_self p, by simpa using h⟩
  | p :: q :: parts, h => by
    have hcons : [s].intercalate (p :: q :: parts) = p ++ s :: [s].intercalate (q :: parts) := rfl
    rw [hcons, List.mem_append, List.mem_cons] at h
    rcases h with h | h | h
    · exact Or.inr ⟨p, List.mem_cons_self, h⟩
    · exact Or.inl h
    · exact (mem_intercalate h).imp_right fun ⟨r, hr, hc⟩ => ⟨r, List.mem_cons_of_mem p hr, hc⟩

/-- Nothing behind a NUL is read. -/
theorem params_append_of_nul {text : List Char} (h : '\x00' ∈ text) (rest : List Char) :
    params (text ++ rest) = params text := by
  have htake : untilNul (text ++ rest) = untilNul text := by
    rw [untilNul, untilNul, List.takeWhile_append, if_neg]
    intro hlen
    have hall := List.takeWhile_eq_self_iff.1 (List.takeWhile_sublist _ |>.eq_of_length hlen)
    simpa using hall '\x00' h
  rw [params, htake, params]

theorem untilNul_of_not_mem {text : List Char} (h : '\x00' ∉ text) : untilNul text = text := by
  rw [untilNul, List.takeWhile_eq_self_iff]
  intro c hc
  rw [decide_eq_true_eq]
  rintro rfl
  exact h hc

theorem IsWord.nul_not_mem {text w : List Char} (hw : IsWord w) (h : '\x00' ∉ text) :
    '\x00' ∉ text ++ ' ' :: w := by
  intro hmem
  rcases List.mem_append.1 hmem with hmem | hmem
  · exact h hmem
  · rcases List.mem_cons.1 hmem with hmem | hmem
    · exact absurd hmem (by decide)
    · exact (hw.2 _ hmem).2 rfl

theorem params_append_word {text w : List Char} (h : '\x00' ∉ text) (hw : IsWord w) :
    params (text ++ ' ' :: w) = params text ++ [w] := by
  have hsplit : w.splitOnP isBlank = [w] :=
    List.splitOnP_eq_singleton fun c hc => (hw.2 c hc).1
  rw [params, params, untilNul_of_not_mem (hw.nul_not_mem h), untilNul_of_not_mem h,
    List.splitOnP_append_cons text w (by decide), List.filter_append, hsplit,
    List.filter_cons_of_pos (by simpa using hw.1), List.filter_nil]

/-- Words at the end of a text are its last parameters. -/
theorem params_append_spaced {text : List Char} (h : '\x00' ∉ text) :
    ∀ {ws : List (List Char)}, (∀ w ∈ ws, IsWord w) →
      params (text ++ spaced ws) = params text ++ ws
  | [], _ => by simp [spaced]
  | w :: ws, hws => by
    have hw := hws w List.mem_cons_self
    have hshift : text ++ spaced (w :: ws) = (text ++ ' ' :: w) ++ spaced ws := by
      simp [spaced]
    have hrest : ∀ w' ∈ ws, IsWord w' := fun w' hw' => hws w' (List.mem_cons_of_mem w hw')
    rw [hshift, params_append_spaced (hw.nul_not_mem h) hrest, params_append_word h hw,
      List.append_assoc, List.singleton_append]

/-- What is read from a text with words behind it, when the text itself has nothing to read. -/
theorem filterMap_params {α : Type*} {f : List Char → Option α} {text : List Char}
    {ws : List (List Char)} (htext : ∀ w ∈ params text, f w = none) (hws : ∀ w ∈ ws, IsWord w) :
    (params (text ++ spaced ws)).filterMap f =
      if '\x00' ∈ text then [] else ws.filterMap f := by
  have hnone : (params text).filterMap f = [] := List.filterMap_eq_nil_iff.2 htext
  split_ifs with hnul
  · rw [params_append_of_nul hnul, hnone]
  · rw [params_append_spaced hnul hws, List.filterMap_append, hnone, List.nil_append]

end Hitz.CommandLine

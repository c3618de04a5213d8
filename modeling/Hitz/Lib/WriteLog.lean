import Mathlib

/-!
# Logs of writes

What a bank of registers holds is a function of the log of the writes made to it.

* `last f log`: the last value that `f` reads in a write of the log;
* `since p log`, `upTo p log`: the log after, and up to, the last write with the property `p`;
* `during sel i log`: the writes made while `i` was selected, where `sel` says what a log selects.

Each comes with the equation for a log that grows by one write.
-/

namespace WriteLog

variable {ω β ι : Type}

/-- The last value that a write of the log carries, if any does. -/
def last (f : ω → Option β) (log : List ω) : Option β := (log.filterMap f).getLast?

/-- The writes after the last one with `p`. -/
def since (p : ω → Bool) (log : List ω) : List ω := log.rtakeWhile fun w => !p w

/-- The writes up to the last one with `p`, that one included. -/
def upTo (p : ω → Bool) (log : List ω) : List ω := log.rdropWhile fun w => !p w

/-- The writes made while `i` was selected. -/
def during [DecidableEq ι] (sel : List ω → ι) (i : ι) (log : List ω) : List ω :=
  (List.range log.length).filterMap fun k => if sel (log.take k) = i then log[k]? else none

@[simp] theorem last_nil (f : ω → Option β) : last f [] = none := rfl

@[simp] theorem since_nil (p : ω → Bool) : since p [] = [] := rfl

@[simp] theorem upTo_nil (p : ω → Bool) : upTo p [] = [] := rfl

@[simp] theorem during_nil [DecidableEq ι] (sel : List ω → ι) (i : ι) : during sel i [] = [] := rfl

theorem last_concat (f : ω → Option β) (log : List ω) (w : ω) :
    last f (log ++ [w]) = (f w).or (last f log) := by
  unfold last
  rw [List.filterMap_append]
  cases hf : f w with
  | none => simp [hf]
  | some v => simp [hf]

theorem since_concat (p : ω → Bool) (log : List ω) (w : ω) :
    since p (log ++ [w]) = if p w then [] else since p log ++ [w] := by
  unfold since
  rw [List.rtakeWhile_concat]
  cases p w <;> rfl

theorem upTo_concat (p : ω → Bool) (log : List ω) (w : ω) :
    upTo p (log ++ [w]) = if p w then log ++ [w] else upTo p log := by
  unfold upTo
  rw [List.rdropWhile_concat]
  cases p w <;> rfl

theorem during_concat [DecidableEq ι] (sel : List ω → ι) (i : ι) (log : List ω) (w : ω) :
    during sel i (log ++ [w]) = during sel i log ++ if sel log = i then [w] else [] := by
  unfold during
  rw [List.length_append, List.length_singleton, List.range_succ, List.filterMap_append]
  congr 1
  · -- before the new write both logs are the same
    apply List.filterMap_congr
    intro k hk
    have hlt : k < log.length := List.mem_range.1 hk
    rw [List.take_append_of_le_length hlt.le, List.getElem?_append_left hlt]
  · by_cases h : sel log = i
    · simp [h]
    · simp [h]

theorem mem_of_last {f : ω → Option β} {log : List ω} {v : β} (h : last f log = some v) :
    ∃ w ∈ log, f w = some v :=
  List.mem_filterMap.1 (List.mem_of_getLast? h)

theorem last_congr {f g : ω → Option β} {log : List ω} (h : ∀ w ∈ log, f w = g w) :
    last f log = last g log := by
  unfold last
  rw [List.filterMap_congr h]

theorem mem_of_since {p : ω → Bool} {log : List ω} {w : ω} (h : w ∈ since p log) : w ∈ log :=
  (List.rtakeWhile_suffix _ _).subset h

theorem mem_of_during [DecidableEq ι] {sel : List ω → ι} {i : ι} {log : List ω} {w : ω}
    (h : w ∈ during sel i log) : w ∈ log := by
  obtain ⟨k, -, hk⟩ := List.mem_filterMap.1 h
  split_ifs at hk
  exact List.mem_of_getElem? hk

end WriteLog

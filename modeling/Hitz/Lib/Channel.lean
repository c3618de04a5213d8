import Mathlib

/-!
# FIFO channels and merges

A channel is everything that was sent and how much of it was received: `received` and `waiting` are
the two parts.  Receiving moves the first waiting item over (`tryRecv_eq_some`), sending more does
not change what was received (`received_of_prefix`).

`Merge xs ys zs`: the stream `zs` has the items of `xs` and of `ys`, each in their order.
-/

/-- A channel: the items sent, oldest first, and the number of items received. -/
structure Channel (α : Type) where
  sent : List α := []
  taken : ℕ := 0

namespace Channel

variable {α : Type}

/-- The items received. -/
def received (c : Channel α) : List α := c.sent.take c.taken

/-- The items not yet received. -/
def waiting (c : Channel α) : List α := c.sent.drop c.taken

/-- No more was received than sent. -/
def Sound (c : Channel α) : Prop := c.taken ≤ c.sent.length

/-- Send an item. -/
def send (c : Channel α) (a : α) : Channel α := { c with sent := c.sent ++ [a] }

/-- Receive the next item, if there is one. -/
def tryRecv (c : Channel α) : Option (α × Channel α) :=
  match c.waiting with
  | [] => none
  | a :: _ => some (a, { c with taken := c.taken + 1 })

theorem received_append_waiting (c : Channel α) : c.received ++ c.waiting = c.sent :=
  List.take_append_drop ..

theorem tryRecv_eq_none {c : Channel α} (h : c.tryRecv = none) : c.waiting = [] := by
  unfold tryRecv at h
  split at h
  · assumption
  · cases h

theorem tryRecv_eq_some {c c' : Channel α} {a : α} (h : c.tryRecv = some (a, c')) :
    c' = { c with taken := c.taken + 1 } ∧ c'.Sound ∧ c'.received = c.received ++ [a] ∧
      c.waiting = a :: c'.waiting := by
  unfold tryRecv at h
  split at h
  · cases h
  · rename_i b rest hwaiting
    cases h
    have hlt : c.taken < c.sent.length := by
      by_contra hge
      rw [waiting, List.drop_eq_nil_of_le (by omega)] at hwaiting
      cases hwaiting
    rw [waiting, List.drop_eq_getElem_cons hlt] at hwaiting
    obtain ⟨rfl, -⟩ := List.cons.inj hwaiting
    refine ⟨rfl, hlt, List.take_succ_eq_append_getElem hlt, ?_⟩
    rw [waiting, List.drop_eq_getElem_cons hlt]
    rfl

/-- What was received stays when more is sent. -/
theorem received_of_prefix {c c' : Channel α} (hsound : c.Sound) (hsent : c.sent <+: c'.sent)
    (htaken : c'.taken = c.taken) : c'.received = c.received ∧ c'.Sound := by
  obtain ⟨more, hmore⟩ := hsent
  unfold received Sound
  rw [htaken, ← hmore]
  exact ⟨List.take_append_of_le_length hsound, by
    rw [List.length_append]
    exact Nat.le_add_right_of_le hsound⟩

end Channel

/-- `zs` is made of the items of `xs` and of `ys`, each in their order. -/
inductive Merge {α : Type} : List α → List α → List α → Prop
  | nil : Merge [] [] []
  | left {xs ys zs : List α} (a : α) (h : Merge xs ys zs) : Merge (xs ++ [a]) ys (zs ++ [a])
  | right {xs ys zs : List α} (a : α) (h : Merge xs ys zs) : Merge xs (ys ++ [a]) (zs ++ [a])

import Mathlib

/-!
# Binary search with a three-way comparison

`binarySearchBy cmp xs` halves the window `[base, base + size)` until one element is left and
then compares that element, as the slice method of the Rust standard library does.  When
everything behind a greater element is greater, the window ends at the last element that is not
greater (`searchLoop_window`), whatever the order of the smaller and the equal ones.
-/

namespace BinarySearch

variable {α : Type}

/-- The comparison of the element at an index; past the end everything is greater. -/
def cmpAt (cmp : α → Ordering) (xs : List α) (i : ℕ) : Ordering := (xs[i]?.map cmp).getD .gt

/-- The halving loop on the window `[base, base + size)`; `fuel = size` is always enough. -/
def searchLoop (f : ℕ → Ordering) : ℕ → ℕ → ℕ → ℕ
  | 0, base, _ => base
  | fuel + 1, base, size =>
    if 1 < size then
      let half := size / 2
      let mid := base + half
      searchLoop f fuel (if f mid = .gt then base else mid) (size - half)
    else base

/-- `Ok` with an index that compares equal, or `Err` with an insertion point. -/
def binarySearchBy (cmp : α → Ordering) (xs : List α) : Except ℕ ℕ :=
  if xs.length = 0 then .error 0
  else
    let base := searchLoop (cmpAt cmp xs) xs.length 0 xs.length
    match cmpAt cmp xs base with
    | .eq => .ok base
    | .lt => .error (base + 1)
    | .gt => .error base

/-- Only the comparisons matter: searching a mapped list is searching with the composed
comparison. -/
theorem binarySearchBy_map {β : Type} (cmp : β → Ordering) (g : α → β) (xs : List α) :
    binarySearchBy cmp (xs.map g) = binarySearchBy (cmp ∘ g) xs := by
  have h : cmpAt cmp (xs.map g) = cmpAt (cmp ∘ g) xs := by
    funext i
    simp [cmpAt]
  simp only [binarySearchBy, h, List.length_map]

/-- What the halving loop keeps: nothing right of the window can compare equal, and the left end
of the window is not greater unless it is the first element. -/
structure Window (f : ℕ → Ordering) (n base size : ℕ) : Prop where
  pos : 0 < size
  le : base + size ≤ n
  left : base = 0 ∨ f base ≠ .gt
  right : ∀ j, base + size ≤ j → f j = .gt

/-- The loop narrows the window to its last element that is not greater; only the order of the
greater elements matters for that. -/
theorem searchLoop_window {f : ℕ → Ordering} (hf : ∀ i j, i ≤ j → f i = .gt → f j = .gt) {n : ℕ} :
    ∀ fuel base size, size ≤ fuel → Window f n base size →
      Window f n (searchLoop f fuel base size) 1 := by
  intro fuel
  induction fuel with
  | zero =>
    intro base size hs hw
    have := hw.pos
    omega
  | succ fuel ih =>
    intro base size hs hw
    unfold searchLoop
    have hpos := hw.pos
    have hle := hw.le
    by_cases h1 : 1 < size
    · rw [if_pos h1]
      by_cases h2 : f (base + size / 2) = .gt
      · simp only [if_pos h2]
        apply ih _ _ (by omega)
        exact ⟨by omega, by omega, hw.left, fun j hj => hf _ j (by omega) h2⟩
      · simp only [if_neg h2]
        apply ih _ _ (by omega)
        exact ⟨by omega, by omega, Or.inr h2, fun j hj => hw.right j (by omega)⟩
    · rw [if_neg h1]
      obtain rfl : size = 1 := by omega
      exact hw

theorem cmpAt_eq_gt_of_length_le {cmp : α → Ordering} {xs : List α} {i : ℕ} (h : xs.length ≤ i) :
    cmpAt cmp xs i = .gt := by
  simp [cmpAt, List.getElem?_eq_none h]

end BinarySearch

import Hitz.Lib.BinarySearch

/-!
# Lists of half-open intervals sorted by their start

An element `a` covers `[lo a, hi a)`, which may be empty.  A list is `Laid` when it is sorted by
start and no two of its elements pass the usual overlap test `lo a < hi b ∧ lo b < hi a`.  That
test lets an empty interval share its start with a non-empty one, so a lookup that stops at the
last element starting at or below an address (`LastBelow`) is exact unless an element `Hides`
another: it comes later with the same start.

`partitionPoint` is the slice method of the Rust standard library; on a list sorted by start it
finds the element of `LastBelow`.
-/

namespace Intervals

open BinarySearch
open scoped List

variable {α : Type} {lo hi : α → ℕ}

/-- The interval of `a` contains `x`. -/
def Holds (lo hi : α → ℕ) (x : ℕ) (a : α) : Prop := lo a ≤ x ∧ x < hi a

instance (x : ℕ) (a : α) : Decidable (Holds lo hi x a) := inferInstanceAs (Decidable (_ ∧ _))

/-- The overlap test fails. -/
def Apart (lo hi : α → ℕ) (a b : α) : Prop := ¬(lo a < hi b ∧ lo b < hi a)

theorem Apart.symm {a b : α} (h : Apart lo hi a b) : Apart lo hi b a := fun h' => h h'.symm

/-- Sorted by start, and no two elements overlap. -/
structure Laid (lo hi : α → ℕ) (xs : List α) : Prop where
  sorted : xs.Pairwise fun a b => lo a ≤ lo b
  apart : xs.Pairwise (Apart lo hi)
  le : ∀ a ∈ xs, lo a ≤ hi a

/-- A later element of the list starts where a non-empty element starts. -/
def Hides (lo hi : α → ℕ) (xs : List α) : Prop :=
  ∃ a b, [a, b] <+ xs ∧ lo a < hi a ∧ lo b = lo a

/-- The element at `i` is the last one that starts at or below `x`. -/
def LastBelow (lo : α → ℕ) (x : ℕ) (xs : List α) (i : ℕ) : Prop :=
  (∃ a, xs[i]? = some a ∧ lo a ≤ x) ∧ ∀ j b, i < j → xs[j]? = some b → x < lo b

theorem LastBelow.unique {x i j : ℕ} {xs : List α} (hi' : LastBelow lo x xs i)
    (hj : LastBelow lo x xs j) : i = j := by
  obtain ⟨⟨a, ha, hax⟩, hi'⟩ := hi'
  obtain ⟨⟨b, hb, hbx⟩, hj⟩ := hj
  rcases Nat.lt_trichotomy i j with h | h | h
  · have := hi' j b h hb
    omega
  · exact h
  · have := hj i a h ha
    omega

/-- Two positions of a list, in order, form a sublist. -/
theorem pair_sublist {xs : List α} {i j : ℕ} {a b : α} (hij : i < j) (ha : xs[i]? = some a)
    (hb : xs[j]? = some b) : [a, b] <+ xs := by
  obtain ⟨hil, rfl⟩ := List.getElem?_eq_some_iff.1 ha
  obtain ⟨hjl, rfl⟩ := List.getElem?_eq_some_iff.1 hb
  have hdrop : xs.drop i = xs[i] :: xs.drop (i + 1) := List.drop_eq_getElem_cons hil
  have hmem : xs[j] ∈ xs.drop (i + 1) :=
    List.mem_drop_iff_getElem.2 ⟨j - (i + 1), by omega, by congr 1; omega⟩
  calc [xs[i], xs[j]] <+ xs[i] :: xs.drop (i + 1) := (List.singleton_sublist.2 hmem).cons_cons _
    _ = xs.drop i := hdrop.symm
    _ <+ xs := List.drop_sublist i xs

namespace Laid

variable {xs : List α}

theorem apart_of_lt (h : Laid lo hi xs) {i j : ℕ} {a b : α} (hij : i < j)
    (ha : xs[i]? = some a) (hb : xs[j]? = some b) : lo a ≤ lo b ∧ Apart lo hi a b := by
  obtain ⟨hil, rfl⟩ := List.getElem?_eq_some_iff.1 ha
  obtain ⟨hjl, rfl⟩ := List.getElem?_eq_some_iff.1 hb
  exact ⟨List.pairwise_iff_getElem.1 h.sorted i j hil hjl hij,
    List.pairwise_iff_getElem.1 h.apart i j hil hjl hij⟩

/-- What follows an element that contains `x` starts after `x`, or starts with it. -/
theorem lt_or_eq_of_holds (h : Laid lo hi xs) {i j x : ℕ} {a b : α} (hij : i < j)
    (ha : xs[i]? = some a) (hb : xs[j]? = some b) (hx : Holds lo hi x a) :
    x < lo b ∨ lo b = lo a := by
  obtain ⟨hle, hap⟩ := h.apart_of_lt hij ha hb
  have hlb := h.le b (List.mem_of_getElem? hb)
  by_contra hc
  push Not at hc
  exact hap ⟨by omega, by have := hx.2; omega⟩

/-- Only one element contains `x`. -/
theorem holds_unique (h : Laid lo hi xs) {i j x : ℕ} {a b : α} (ha : xs[i]? = some a)
    (hb : xs[j]? = some b) (hax : Holds lo hi x a) (hbx : Holds lo hi x b) : i = j := by
  -- two elements around `x` would overlap, whichever comes first
  have key : ∀ {i j : ℕ} {a b : α}, i < j → xs[i]? = some a → xs[j]? = some b →
      Holds lo hi x a → Holds lo hi x b → False := by
    intro i j a b hij ha hb hax hbx
    exact (h.apart_of_lt hij ha hb).2
      ⟨lt_of_le_of_lt hax.1 hbx.2, lt_of_le_of_lt hbx.1 hax.2⟩
  rcases Nat.lt_trichotomy i j with hij | hij | hij
  · exact (key hij ha hb hax hbx).elim
  · exact hij
  · exact (key hij hb ha hbx hax).elim

/-- Where nothing hides anything, the element that contains `x` is the last one below `x`. -/
theorem lastBelow_of_holds (h : Laid lo hi xs) (hh : ¬Hides lo hi xs) {i x : ℕ} {a : α}
    (ha : xs[i]? = some a) (hx : Holds lo hi x a) : LastBelow lo x xs i := by
  refine ⟨⟨a, ha, hx.1⟩, ?_⟩
  intro j b hij hb
  rcases h.lt_or_eq_of_holds hij ha hb hx with hlt | heq
  · exact hlt
  · exact (hh ⟨a, b, pair_sublist hij ha hb, lt_of_le_of_lt hx.1 hx.2, heq⟩).elim

end Laid

/-- A hidden element contains its own start and is not the last one below it. -/
theorem Hides.exists_not_lastBelow {xs : List α} (h : Hides lo hi xs) :
    ∃ i a, xs[i]? = some a ∧ Holds lo hi (lo a) a ∧ ¬LastBelow lo (lo a) xs i := by
  obtain ⟨a, b, hsub, hne, heq⟩ := h
  obtain ⟨f, hf⟩ := List.sublist_iff_exists_orderEmbedding_getElem?_eq.1 hsub
  have h01 : f 0 < f 1 := f.lt_iff_lt.2 Nat.zero_lt_one
  have ha : xs[f 0]? = some a := by simpa using (hf 0).symm
  have hb : xs[f 1]? = some b := by simpa using (hf 1).symm
  refine ⟨f 0, a, ha, ⟨le_rfl, hne⟩, ?_⟩
  intro hlast
  have := hlast.2 (f 1) b h01 hb
  omega

theorem Hides.mono {xs ys : List α} (h : Hides lo hi xs) (hsub : xs <+ ys) : Hides lo hi ys := by
  obtain ⟨a, b, hab, hne, heq⟩ := h
  exact ⟨a, b, hab.trans hsub, hne, heq⟩

/-! ### Searching by start -/

/-- The comparison `partition_point` searches with. -/
def pointCmp (pred : α → Bool) (a : α) : Ordering := if pred a then .lt else .gt

/-- The number of leading elements that satisfy `pred`, found by halving. -/
def partitionPoint (pred : α → Bool) (xs : List α) : ℕ :=
  match binarySearchBy (pointCmp pred) xs with
  | .ok i => i
  | .error i => i

/-- In a list sorted by start, an element above `x` has only elements above `x` behind it. -/
theorem gt_of_gt {xs : List α} (hs : xs.Pairwise fun a b => lo a ≤ lo b) {x : ℕ}
    {cmp : α → Ordering} (hcmp : ∀ a ∈ xs, cmp a = .gt ↔ x < lo a) :
    ∀ i j, i ≤ j → cmpAt cmp xs i = .gt → cmpAt cmp xs j = .gt := by
  intro i j hij hgt
  cases hj : xs[j]? with
  | none => exact cmpAt_eq_gt_of_length_le (List.getElem?_eq_none_iff.1 hj)
  | some b =>
    obtain ⟨hjl, hb⟩ := List.getElem?_eq_some_iff.1 hj
    have hi : xs[i]? = some xs[i] := List.getElem?_eq_getElem (by omega)
    have hx : x < lo xs[i] := (hcmp _ (List.getElem_mem _)).1 (by simpa [cmpAt, hi] using hgt)
    have hle : lo xs[i] ≤ lo b := by
      rcases Nat.lt_or_eq_of_le hij with hlt | rfl
      · rw [← hb]
        exact List.pairwise_iff_getElem.1 hs i j (by omega) hjl hlt
      · rw [hb]
    have hbgt := (hcmp b (List.mem_of_getElem? hj)).2 (lt_of_lt_of_le hx hle)
    simpa [cmpAt, hj] using hbgt

/-- The halving loop ends at the last element below `x`, or at the first element when there is
none. -/
theorem searchLoop_lastBelow {xs : List α} (hs : xs.Pairwise fun a b => lo a ≤ lo b) {x : ℕ}
    {cmp : α → Ordering} (hcmp : ∀ a ∈ xs, cmp a = .gt ↔ x < lo a) (hne : xs ≠ []) :
    LastBelow lo x xs (searchLoop (cmpAt cmp xs) xs.length 0 xs.length) ∨
      searchLoop (cmpAt cmp xs) xs.length 0 xs.length = 0 ∧ ∀ a ∈ xs, x < lo a := by
  have hlen : 0 < xs.length := List.length_pos_iff.2 hne
  have hw : Window (cmpAt cmp xs) xs.length 0 xs.length :=
    ⟨hlen, by omega, Or.inl rfl, fun k hk => cmpAt_eq_gt_of_length_le (by omega)⟩
  have hfin := searchLoop_window (gt_of_gt hs hcmp) xs.length 0 xs.length le_rfl hw
  set i := searchLoop (cmpAt cmp xs) xs.length 0 xs.length
  have hil : i < xs.length := by have := hfin.le; omega
  have hright : ∀ j b, i < j → xs[j]? = some b → x < lo b := by
    intro j b hij hb
    have := hfin.right j (by omega)
    exact (hcmp b (List.mem_of_getElem? hb)).1 (by simpa [cmpAt, hb] using this)
  have hget : xs[i]? = some xs[i] := List.getElem?_eq_getElem hil
  by_cases hx : lo xs[i] ≤ x
  · exact Or.inl ⟨⟨xs[i], hget, hx⟩, hright⟩
  · right
    have hgt : cmpAt cmp xs i = .gt := by
      simpa [cmpAt, hget] using (hcmp _ (List.getElem_mem hil)).2 (by omega)
    have h0 : i = 0 := hfin.left.resolve_right (fun h => h hgt)
    refine ⟨h0, fun a ha => ?_⟩
    obtain ⟨j, hj⟩ := List.mem_iff_getElem?.1 ha
    rcases Nat.eq_zero_or_pos j with rfl | hpos
    · rw [← h0, hget] at hj
      cases hj
      omega
    · exact hright j a (by omega) hj

theorem cmpAt_zero_of_forall {xs : List α} (hne : xs ≠ []) {x : ℕ} {cmp : α → Ordering}
    (hcmp : ∀ a ∈ xs, cmp a = .gt ↔ x < lo a) (hall : ∀ a ∈ xs, x < lo a) :
    cmpAt cmp xs 0 = .gt := by
  have hpos : 0 < xs.length := List.length_pos_iff.2 hne
  have hget : xs[0]? = some xs[0] := List.getElem?_eq_getElem hpos
  have hmem : xs[0] ∈ xs := List.getElem_mem _
  simpa [cmpAt, hget] using (hcmp _ hmem).2 (hall _ hmem)

/-- The search succeeds at the last element below `x`, if that one compares equal. -/
theorem binarySearchBy_eq_ok_iff {xs : List α} (hs : xs.Pairwise fun a b => lo a ≤ lo b) {x : ℕ}
    {cmp : α → Ordering} (hcmp : ∀ a ∈ xs, cmp a = .gt ↔ x < lo a) {i : ℕ} :
    binarySearchBy cmp xs = .ok i ↔ LastBelow lo x xs i ∧ cmpAt cmp xs i = .eq := by
  by_cases hne : xs = []
  · subst hne
    simp [binarySearchBy, cmpAt]
  · have hlen : xs.length ≠ 0 := fun h => hne (List.length_eq_zero_iff.1 h)
    have hsearch := searchLoop_lastBelow hs hcmp hne
    simp only [binarySearchBy, if_neg hlen]
    generalize searchLoop (cmpAt cmp xs) xs.length 0 xs.length = k at hsearch ⊢
    rcases hsearch with hlast | ⟨rfl, hall⟩
    · constructor
      · intro h
        cases hk : cmpAt cmp xs k <;> rw [hk] at h <;> cases h
        exact ⟨hlast, hk⟩
      · rintro ⟨hi, heq⟩
        obtain rfl := hi.unique hlast
        rw [heq]
    · have hgt := cmpAt_zero_of_forall hne hcmp hall
      rw [hgt]
      constructor
      · intro h
        cases h
      · rintro ⟨⟨⟨a, ha, hle⟩, -⟩, -⟩
        have := hall a (List.mem_of_getElem? ha)
        omega

/-- The search fails behind the last element below `x`, or in front of everything. -/
theorem binarySearchBy_eq_error {xs : List α} (hs : xs.Pairwise fun a b => lo a ≤ lo b) {x : ℕ}
    {cmp : α → Ordering} (hcmp : ∀ a ∈ xs, cmp a = .gt ↔ x < lo a) {k : ℕ}
    (h : binarySearchBy cmp xs = .error k) :
    (k = 0 ∧ ∀ a ∈ xs, x < lo a) ∨
      ∃ i, k = i + 1 ∧ LastBelow lo x xs i ∧ cmpAt cmp xs i = .lt := by
  by_cases hne : xs = []
  · subst hne
    cases h
    exact Or.inl ⟨rfl, fun a ha => absurd ha List.not_mem_nil⟩
  · have hlen : xs.length ≠ 0 := fun h => hne (List.length_eq_zero_iff.1 h)
    have hsearch := searchLoop_lastBelow hs hcmp hne
    simp only [binarySearchBy, if_neg hlen] at h
    generalize searchLoop (cmpAt cmp xs) xs.length 0 xs.length = i at hsearch h
    rcases hsearch with hlast | ⟨rfl, hall⟩
    · right
      obtain ⟨a, ha, hle⟩ := hlast.1
      cases hi : cmpAt cmp xs i with
      | eq =>
        rw [hi] at h
        cases h
      | lt =>
        rw [hi] at h
        cases h
        exact ⟨i, rfl, hlast, hi⟩
      | gt =>
        have := (hcmp a (List.mem_of_getElem? ha)).1 (by simpa [cmpAt, ha] using hi)
        omega
    · rw [cmpAt_zero_of_forall hne hcmp hall] at h
      cases h
      exact Or.inl ⟨rfl, hall⟩

/-- `partition_point(|a| lo a <= x)` is one more than the last index below `x`, or `0`. -/
theorem partitionPoint_lastBelow {xs : List α} (hs : xs.Pairwise fun a b => lo a ≤ lo b) (x : ℕ) :
    (partitionPoint (fun a => decide (lo a ≤ x)) xs = 0 ∧ ∀ a ∈ xs, x < lo a) ∨
      ∃ i, partitionPoint (fun a => decide (lo a ≤ x)) xs = i + 1 ∧ LastBelow lo x xs i := by
  have hcmp : ∀ a ∈ xs, pointCmp (fun a => decide (lo a ≤ x)) a = .gt ↔ x < lo a := by
    intro a _
    by_cases ha : lo a ≤ x
    · simp [pointCmp, ha]
    · simp [pointCmp, Nat.lt_of_not_le ha]
  unfold partitionPoint
  cases h : binarySearchBy (pointCmp fun a => decide (lo a ≤ x)) xs with
  | ok i =>
    -- `pointCmp` never answers `eq`
    obtain ⟨⟨⟨a, ha, hax⟩, -⟩, heq⟩ := (binarySearchBy_eq_ok_iff hs hcmp).1 h
    simp [cmpAt, pointCmp, ha, hax] at heq
  | error k =>
    rcases binarySearchBy_eq_error hs hcmp h with ⟨rfl, hall⟩ | ⟨i, rfl, hlast, -⟩
    · exact Or.inl ⟨rfl, hall⟩
    · exact Or.inr ⟨i, rfl, hlast⟩

end Intervals

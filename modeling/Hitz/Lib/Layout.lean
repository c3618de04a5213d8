import Mathlib

/-!
# Laying out data in an address space

An address space is a function from addresses to values, and a `Piece` is a run of data with the
address it goes to.

* `patch f p`: the space `f` after the piece `p` has been stored;
* `overlay f ps`: the space after the pieces `ps`, one after the other;
* `Holds f p`: the space has the data of `p` in its place.

A piece survives every later piece that is disjoint from it (`Holds.overlay`), so a piece stored
once or several times is there at the end unless something else went over it (`holds_of_mem`).
-/

namespace Layout

variable {α : Type}

/-- Data and the address of its first entry. -/
structure Piece (α : Type) where
  start : ℕ
  data : List α
  deriving DecidableEq, Repr

/-- The addresses of a piece. -/
def Piece.range (p : Piece α) : Set ℕ := Set.Ico p.start (p.start + p.data.length)

@[simp] theorem Piece.mem_range {p : Piece α} {x : ℕ} :
    x ∈ p.range ↔ p.start ≤ x ∧ x < p.start + p.data.length := Iff.rfl

/-- Two pieces have no address in common. -/
def Apart (p q : Piece α) : Prop := Disjoint p.range q.range

theorem apart_iff {p q : Piece α} : Apart p q ↔
    min (p.start + p.data.length) (q.start + q.data.length) ≤ max p.start q.start :=
  Set.Ico_disjoint_Ico

/-- Sets below and above an address are disjoint. -/
theorem disjoint_of_cut {s t : Set ℕ} (c : ℕ) (hs : ∀ x ∈ s, x < c) (ht : ∀ x ∈ t, c ≤ x) :
    Disjoint s t :=
  Set.disjoint_left.2 fun x hx hx' => absurd (hs x hx) (not_lt.2 (ht x hx'))

instance : Std.Symm (Apart (α := α)) where
  symm _ _ h := Disjoint.symm h

/-- Store a piece. -/
def patch (f : ℕ → α) (p : Piece α) (x : ℕ) : α :=
  if p.start ≤ x then (p.data[x - p.start]?).getD (f x) else f x

/-- Store pieces one after the other. -/
def overlay (f : ℕ → α) (ps : List (Piece α)) : ℕ → α := ps.foldl patch f

/-- The data of the piece is in its place. -/
def Holds (f : ℕ → α) (p : Piece α) : Prop :=
  ∀ i a, p.data[i]? = some a → f (p.start + i) = a

/-! ### One piece -/

theorem patch_of_notMem {f : ℕ → α} {p : Piece α} {x : ℕ} (h : x ∉ p.range) :
    patch f p x = f x := by
  simp only [Piece.mem_range, not_and, not_lt] at h
  by_cases hx : p.start ≤ x
  · have := h hx
    simp [patch, hx, List.getElem?_eq_none (show p.data.length ≤ x - p.start by omega)]
  · simp [patch, hx]

@[simp] theorem patch_nil (f : ℕ → α) (a : ℕ) : patch f ⟨a, []⟩ = f := by
  funext x
  simp [patch]

/-- Adjacent pieces are one piece. -/
theorem patch_patch_append (f : ℕ → α) (a : ℕ) (d e : List α) :
    patch (patch f ⟨a, d⟩) ⟨a + d.length, e⟩ = patch f ⟨a, d ++ e⟩ := by
  funext x
  by_cases hx : a ≤ x
  · by_cases hd : x - a < d.length
    · simp [patch, hx, List.getElem?_append_left hd, show ¬a + d.length ≤ x by omega]
    · have hd : d.length ≤ x - a := by omega
      simp [patch, hx, List.getElem?_append_right hd, List.getElem?_eq_none hd,
        show a + d.length ≤ x by omega, Nat.sub_add_eq]
  · simp [patch, hx, show ¬a + d.length ≤ x by omega]

theorem holds_patch (f : ℕ → α) (p : Piece α) : Holds (patch f p) p := by
  intro i a hi
  simp [patch, hi]

theorem Piece.mem_range_of_getElem? {p : Piece α} {i : ℕ} {a : α} (h : p.data[i]? = some a) :
    p.start + i ∈ p.range := by
  obtain ⟨hlt, -⟩ := List.getElem?_eq_some_iff.1 h
  simp [hlt]

theorem Holds.patch {f : ℕ → α} {p q : Piece α} (h : Holds f p) (hpq : Apart p q) :
    Holds (patch f q) p := by
  intro i a hi
  have hmem := Piece.mem_range_of_getElem? hi
  rw [patch_of_notMem (Set.disjoint_left.1 hpq hmem)]
  exact h i a hi

/-! ### Several pieces -/

@[simp] theorem overlay_nil (f : ℕ → α) : overlay f [] = f := rfl

@[simp] theorem overlay_cons (f : ℕ → α) (p : Piece α) (ps : List (Piece α)) :
    overlay f (p :: ps) = overlay (patch f p) ps := rfl

@[simp] theorem overlay_append (f : ℕ → α) (ps qs : List (Piece α)) :
    overlay f (ps ++ qs) = overlay (overlay f ps) qs := by
  simp [overlay]

/-- Where no piece goes, nothing changes. -/
theorem overlay_of_notMem {f : ℕ → α} {ps : List (Piece α)} {x : ℕ} (h : ∀ p ∈ ps, x ∉ p.range) :
    overlay f ps x = f x := by
  induction ps generalizing f with
  | nil => rfl
  | cons p ps ih =>
    rw [overlay_cons, ih fun q hq => h q (List.mem_cons_of_mem p hq),
      patch_of_notMem (h p List.mem_cons_self)]

/-- Where a piece goes, what was there before does not matter. -/
theorem overlay_congr_of_mem (f g : ℕ → α) {ps : List (Piece α)} {p : Piece α} {x : ℕ} (hp : p ∈ ps)
    (hx : x ∈ p.range) : overlay f ps x = overlay g ps x := by
  obtain ⟨l, r, rfl⟩ := List.append_of_mem hp
  obtain ⟨hle, hlt⟩ := Piece.mem_range.1 hx
  have hfirst : ∀ h : ℕ → α, patch h p x = (p.data[x - p.start]?).getD (h x) := fun h => by
    rw [patch, if_pos hle]
  obtain ⟨a, ha⟩ : ∃ a, p.data[x - p.start]? = some a :=
    ⟨_, List.getElem?_eq_getElem (by omega)⟩
  -- from the piece on, both spaces agree at `x`
  have hrest : ∀ (ps : List (Piece α)) (f g : ℕ → α), f x = g x →
      overlay f ps x = overlay g ps x := by
    intro ps
    induction ps with
    | nil => exact fun f g h => h
    | cons q ps ih =>
      intro f g h
      rw [overlay_cons, overlay_cons]
      refine ih _ _ ?_
      unfold patch
      rw [h]
  rw [overlay_append, overlay_append, overlay_cons, overlay_cons]
  refine hrest r _ _ ?_
  rw [hfirst, hfirst, ha]
  rfl

/-- A piece survives what is apart from it, and being stored again. -/
theorem Holds.overlay {f : ℕ → α} {p : Piece α} {ps : List (Piece α)} (h : Holds f p)
    (hps : ∀ q ∈ ps, q = p ∨ Apart p q) : Holds (overlay f ps) p := by
  induction ps generalizing f with
  | nil => exact h
  | cons q ps ih =>
    rw [overlay_cons]
    apply ih _ fun r hr => hps r (List.mem_cons_of_mem q hr)
    rcases hps q List.mem_cons_self with rfl | hpq
    · exact holds_patch f q
    · exact h.patch hpq

theorem holds_overlay (f : ℕ → α) (l : List (Piece α)) {p : Piece α} {r : List (Piece α)}
    (h : ∀ q ∈ r, q = p ∨ Apart p q) : Holds (overlay f (l ++ p :: r)) p := by
  rw [overlay_append, overlay_cons]
  exact (holds_patch _ p).overlay h

/-- A piece that was stored is there at the end if nothing else touches it. -/
theorem holds_of_mem (f : ℕ → α) {p : Piece α} {ps : List (Piece α)} (hp : p ∈ ps)
    (h : ∀ q ∈ ps, q = p ∨ Apart p q) : Holds (overlay f ps) p := by
  obtain ⟨l, r, rfl⟩ := List.append_of_mem hp
  apply holds_overlay
  intro q hq
  exact h q (by simp [hq])

/-- Pieces that are apart from each other are all there at the end. -/
theorem holds_of_pairwise (f : ℕ → α) {p : Piece α} {ps : List (Piece α)} (hp : p ∈ ps)
    (h : ps.Pairwise Apart) : Holds (overlay f ps) p := by
  refine holds_of_mem f hp fun q hq => ?_
  by_cases hqp : q = p
  · exact Or.inl hqp
  · exact Or.inr (h.forall hp hq (Ne.symm hqp))

end Layout

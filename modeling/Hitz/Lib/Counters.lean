import Mathlib

/-!
# Additive counters

A counter is kept for each key, and what is exported for a key is the sum of all that was added to
it (`total`).  Where batches of readings are added that are totals themselves, the exported value is
the last reading only if all that was added before is zero (`total_eq_last_iff`).
-/

namespace Counters

variable {κ : Type} [DecidableEq κ]

/-- What was added for a key. -/
def total (k : κ) (readings : List (κ × ℕ)) : ℕ :=
  ((readings.filter fun r => r.1 = k).map Prod.snd).sum

@[simp] theorem total_nil (k : κ) : total k [] = 0 := rfl

theorem total_cons (k : κ) (r : κ × ℕ) (readings : List (κ × ℕ)) :
    total k (r :: readings) = (if r.1 = k then r.2 else 0) + total k readings := by
  unfold total
  by_cases h : r.1 = k
  · rw [List.filter_cons_of_pos (by simpa using h), List.map_cons, List.sum_cons, if_pos h]
  · rw [List.filter_cons_of_neg (by simpa using h), if_neg h, Nat.zero_add]

theorem total_append (k : κ) (before after : List (κ × ℕ)) :
    total k (before ++ after) = total k before + total k after := by
  rw [total, List.filter_append, List.map_append, List.sum_append]
  rfl

theorem total_eq_zero_iff {k : κ} {readings : List (κ × ℕ)} :
    total k readings = 0 ↔ ∀ r ∈ readings, r.1 = k → r.2 = 0 := by
  induction readings with
  | nil => simp
  | cons r readings ih =>
    rw [total_cons, Nat.add_eq_zero_iff, ih, List.forall_mem_cons]
    by_cases h : r.1 = k <;> simp [h]

/-- A reading is part of the total. -/
theorem le_total {r : κ × ℕ} {readings : List (κ × ℕ)} (h : r ∈ readings) :
    r.2 ≤ total r.1 readings := by
  obtain ⟨before, after, rfl⟩ := List.append_of_mem h
  rw [total_append, total_cons, if_pos rfl]
  omega

/-- In a batch every total is the reading itself when no key with a value occurs twice. -/
theorem total_batch_iff {batch : List (κ × ℕ)} : (∀ r ∈ batch, total r.1 batch = r.2) ↔
    batch.Pairwise fun r r' => r.1 = r'.1 → r.2 = 0 ∧ r'.2 = 0 := by
  induction batch with
  | nil => simp
  | cons x batch ih =>
    rw [List.pairwise_cons, ← ih]
    constructor
    · intro h
      have hx : total x.1 batch = 0 := by
        have := h x (List.mem_cons_self ..)
        rw [total_cons, if_pos rfl] at this
        omega
      rw [total_eq_zero_iff] at hx
      have hle : ∀ r ∈ batch, (if x.1 = r.1 then x.2 else 0) = 0 ∧ total r.1 batch = r.2 := by
        intro r hr
        have := h r (List.mem_cons_of_mem x hr)
        rw [total_cons] at this
        have := le_total hr
        omega
      refine ⟨fun r hr hkey => ⟨?_, hx r hr hkey.symm⟩, fun r hr => (hle r hr).2⟩
      have := (hle r hr).1
      rwa [if_pos hkey] at this
    · rintro ⟨hx, h⟩ r hr
      rw [total_cons]
      rcases List.mem_cons.1 hr with rfl | hr
      · have : total r.1 batch = 0 :=
          total_eq_zero_iff.2 fun r' hr' hkey => (hx r' hr' hkey.symm).2
        rw [if_pos rfl, this, Nat.add_zero]
      · rw [h r hr]
        split_ifs with hkey
        · rw [(hx r hr hkey).1, Nat.zero_add]
        · rw [Nat.zero_add]

/-- A relation between all earlier and later elements, by prefixes. -/
theorem pairwise_iff_prefix {α : Type} {R : α → α → Prop} {l : List α} :
    l.Pairwise R ↔ ∀ before a, before ++ [a] <+: l → ∀ b ∈ before, R b a := by
  constructor
  · intro h before a hearlier b hb
    have := h.sublist hearlier.sublist
    exact (List.pairwise_append.1 this).2.2 b hb a (List.mem_singleton_self a)
  · intro h
    induction l using List.reverseRecOn with
    | nil => exact List.Pairwise.nil
    | append_singleton l x ih =>
      rw [List.pairwise_append]
      refine ⟨ih fun before a hearlier => h before a (hearlier.trans (List.prefix_append l [x])),
        List.pairwise_singleton R x, ?_⟩
      intro b hb a ha
      rw [List.mem_singleton.1 ha]
      exact h l x List.prefix_rfl b hb

section Batches

variable {α : Type} {f : α → List (κ × ℕ)}

theorem total_flatMap_eq_zero_iff {k : κ} {l : List α} :
    total k (l.flatMap f) = 0 ↔ ∀ a ∈ l, ∀ r ∈ f a, r.1 = k → r.2 = 0 := by
  rw [total_eq_zero_iff]
  constructor
  · exact fun h a ha r hr => h r (List.mem_flatMap_of_mem ha hr)
  · intro h r hr
    obtain ⟨a, ha, hr⟩ := List.mem_flatMap.1 hr
    exact h a ha r hr

/-- After a batch, the totals of its keys are its own readings when they are so within the batch and
nothing was added for these keys before. -/
theorem total_last_iff {before : List α} {a : α} :
    (∀ r ∈ f a, total r.1 ((before ++ [a]).flatMap f) = r.2) ↔
      (∀ r ∈ f a, total r.1 (f a) = r.2) ∧
        ∀ b ∈ before, ∀ r ∈ f b, ∀ r' ∈ f a, r.1 = r'.1 → r.2 = 0 := by
  simp only [List.flatMap_append, List.flatMap_singleton, total_append]
  constructor
  · intro h
    have hle : ∀ r ∈ f a, total r.1 (before.flatMap f) = 0 ∧ total r.1 (f a) = r.2 := by
      intro r hr
      have := h r hr
      have := le_total hr
      omega
    refine ⟨fun r hr => (hle r hr).2, fun b hb r hr r' hr' hkey => ?_⟩
    exact total_flatMap_eq_zero_iff.1 (hle r' hr').1 b hb r hr hkey
  · rintro ⟨hbatch, hbefore⟩ r hr
    have : total r.1 (before.flatMap f) = 0 := total_flatMap_eq_zero_iff.2
      fun b hb r' hr' hkey => hbefore b hb r' hr' r hr hkey
    rw [this, hbatch r hr, Nat.zero_add]

/-- After every batch, the totals of its keys are its own readings exactly when all earlier readings
of these keys are zero. -/
theorem total_eq_last_iff {l : List α} :
    (∀ before a, before ++ [a] <+: l →
      ∀ r ∈ f a, total r.1 ((before ++ [a]).flatMap f) = r.2) ↔
    (∀ a ∈ l, (f a).Pairwise fun r r' => r.1 = r'.1 → r.2 = 0 ∧ r'.2 = 0) ∧
      l.Pairwise fun a b => ∀ r ∈ f a, ∀ r' ∈ f b, r.1 = r'.1 → r.2 = 0 := by
  simp only [total_last_iff, total_batch_iff, pairwise_iff_prefix]
  constructor
  · intro h
    refine ⟨fun a ha => ?_, fun before a hearlier => (h before a hearlier).2⟩
    obtain ⟨before, after, rfl⟩ := List.append_of_mem ha
    exact (h before a ⟨after, by simp⟩).1
  · rintro ⟨hbatch, hbefore⟩ before a hearlier
    have hmem := hearlier.subset (List.mem_append_right before (List.mem_singleton_self a))
    exact ⟨hbatch a hmem, hbefore before a hearlier⟩

end Batches

end Counters

import Mathlib

/-!
# Runs

A run is the fold of a step function over a list of events.  A property that one step keeps exactly
when the step is good holds all along a run exactly when all its steps are good.
-/

namespace Runs

variable {σ ε : Type} (step : σ → ε → σ) (s : σ)

/-- The property holds in every state of the run. -/
def Always (P : σ → Prop) (events : List ε) : Prop :=
  ∀ before after, events = before ++ after → P (before.foldl step s)

/-- Every step of the run is good in the state it is taken in. -/
def EachStep (good : σ → ε → Prop) (events : List ε) : Prop :=
  ∀ before e after, events = before ++ e :: after → good (before.foldl step s) e

variable {step s} {P : σ → Prop} {good : σ → ε → Prop}

theorem always_nil : Always step s P [] ↔ P s := by
  constructor
  · exact fun h => h [] [] rfl
  · intro h before after heq
    obtain ⟨rfl, -⟩ := List.append_eq_nil_iff.1 heq.symm
    exact h

theorem always_cons {e : ε} {events : List ε} :
    Always step s P (e :: events) ↔ P s ∧ Always step (step s e) P events := by
  constructor
  · intro h
    exact ⟨h [] (e :: events) rfl, fun before after heq => h (e :: before) after (by rw [heq]; rfl)⟩
  · rintro ⟨hs, h⟩ before after heq
    cases before with
    | nil => exact hs
    | cons e' before =>
      obtain ⟨rfl, htail⟩ := List.cons.inj heq
      exact h before after htail

theorem eachStep_nil : EachStep step s good [] := by
  intro before e after heq
  exact absurd heq (by simp)

theorem eachStep_cons {e : ε} {events : List ε} :
    EachStep step s good (e :: events) ↔ good s e ∧ EachStep step (step s e) good events := by
  constructor
  · intro h
    refine ⟨h [] e events rfl, fun before e' after heq => ?_⟩
    exact h (e :: before) e' after (by rw [heq]; rfl)
  · rintro ⟨hs, h⟩ before e' after heq
    cases before with
    | nil =>
      obtain ⟨rfl, -⟩ := List.cons.inj heq
      exact hs
    | cons e'' before =>
      obtain ⟨rfl, htail⟩ := List.cons.inj heq
      exact h before e' after htail

theorem eachStep_append {events events' : List ε} :
    EachStep step s good (events ++ events') ↔
      EachStep step s good events ∧ EachStep step (events.foldl step s) good events' := by
  induction events generalizing s with
  | nil => exact ⟨fun h => ⟨eachStep_nil, h⟩, fun h => h.2⟩
  | cons e events ih =>
    rw [List.cons_append, eachStep_cons, eachStep_cons, ih, and_assoc]
    rfl

/-- A property that every good step keeps holds all along a run of good steps. -/
theorem EachStep.always {events : List ε} (h : EachStep step s good events) (hs : P s)
    (hstep : ∀ s e, P s → good s e → P (step s e)) : Always step s P events := by
  induction events generalizing s with
  | nil => exact always_nil.2 hs
  | cons e events ih =>
    obtain ⟨he, h⟩ := eachStep_cons.1 h
    exact always_cons.2 ⟨hs, ih h (hstep s e hs he)⟩

/-- A property that every step keeps holds all along a run. -/
theorem always_of_step {events : List ε} (hs : P s) (hstep : ∀ s e, P s → P (step s e)) :
    Always step s P events := by
  induction events generalizing s with
  | nil => exact always_nil.2 hs
  | cons e events ih => exact always_cons.2 ⟨hs, ih (hstep s e hs)⟩

/-- From one step to the whole run, in both directions: `Q` is what is asked of every state, `P`
the invariant that gives it. -/
theorem always_iff_of_inv {Q : σ → Prop} (hs : P s) (hQ : ∀ s, P s → Q s)
    (hkeep : ∀ s e, P s → good s e → P (step s e))
    (hback : ∀ s e, P s → Q (step s e) → good s e) (events : List ε) :
    Always step s Q events ↔ EachStep step s good events := by
  constructor
  · intro h
    induction events generalizing s with
    | nil => exact eachStep_nil
    | cons e events ih =>
      obtain ⟨-, h⟩ := always_cons.1 h
      have he : good s e := hback s e hs (h [] events rfl)
      exact eachStep_cons.2 ⟨he, ih (hkeep s e hs he) h⟩
  · intro h before after heq
    exact hQ _ (h.always hs hkeep before after heq)

/-- The case of a property that is its own invariant. -/
theorem always_iff (hs : P s) (hstep : ∀ s e, P s → (P (step s e) ↔ good s e))
    (events : List ε) : Always step s P events ↔ EachStep step s good events :=
  always_iff_of_inv hs (fun _ h => h) (fun s e h => (hstep s e h).2) (fun s e h => (hstep s e h).1)
    events

end Runs

import Mathlib

/-!
# Sums of 64-bit numbers

A value computed with 64-bit additions, and whether one of them overflowed: a program with overflow
checks stops there, and one without goes on modulo `2 ^ 64`.

`sum_of`: a sum along a list overflows on the way exactly when the exact total does not fit.
-/

/-- A value, and whether an addition on the way to it overflowed. -/
@[ext]
structure Wrapped (α : Type) where
  value : α
  overflowed : Bool
  deriving DecidableEq, Repr

namespace Wrapped

variable {α β : Type}

instance : Monad Wrapped where
  pure a := ⟨a, false⟩
  bind x f := ⟨(f x.value).value, x.overflowed || (f x.value).overflowed⟩

/-- The exact number `n` as a 64-bit number. -/
def of (n : ℕ) : Wrapped UInt64 := ⟨UInt64.ofNat n, decide (2 ^ 64 ≤ n)⟩

/-- `a + b`. -/
def add (a b : UInt64) : Wrapped UInt64 := ⟨a + b, decide (2 ^ 64 ≤ a.toNat + b.toNat)⟩

/-- The sum of `f x` over the list. -/
def sum (f : α → Wrapped UInt64) (xs : List α) : Wrapped UInt64 :=
  xs.foldlM (fun total x => f x >>= add total) 0

@[simp] theorem value_pure (a : α) : (pure a : Wrapped α).value = a := rfl

@[simp] theorem overflowed_pure (a : α) : (pure a : Wrapped α).overflowed = false := rfl

@[simp] theorem value_bind (x : Wrapped α) (f : α → Wrapped β) :
    (x >>= f).value = (f x.value).value := rfl

@[simp] theorem overflowed_bind (x : Wrapped α) (f : α → Wrapped β) :
    (x >>= f).overflowed = (x.overflowed || (f x.value).overflowed) := rfl

@[simp] theorem overflowed_of (n : ℕ) : (of n).overflowed = decide (2 ^ 64 ≤ n) := rfl

theorem toNat_value_of (n : ℕ) : (of n).value.toNat = n % 2 ^ 64 := UInt64.toNat_ofNat'

instance : LawfulMonad Wrapped :=
  LawfulMonad.mk' Wrapped (fun x => by ext <;> simp [Functor.map])
    (fun a f => by ext <;> simp) fun x f g => by ext <;> simp [Bool.or_assoc]

theorem pure_eq_of (a : UInt64) : (pure a : Wrapped UInt64) = of a.toNat := by
  ext
  · rw [of, UInt64.ofNat_toNat, value_pure]
  · rw [overflowed_pure, overflowed_of, decide_eq_false (not_le.2 a.toNat_lt)]

theorem add_eq_of (a b : UInt64) : add a b = of (a.toNat + b.toNat) := by
  rw [add, of, UInt64.ofNat_add, UInt64.ofNat_toNat, UInt64.ofNat_toNat]

/-- A number that does not fit stays flagged, whatever is added. -/
theorem of_bind_add (m n : ℕ) : (of m >>= fun a => of n >>= add a) = of (m + n) := by
  refine Wrapped.ext (UInt64.ofNat_add m n).symm ?_
  have hflag : 2 ^ 64 ≤ m ∨ 2 ^ 64 ≤ n ∨ 2 ^ 64 ≤ m % 2 ^ 64 + n % 2 ^ 64 ↔ 2 ^ 64 ≤ m + n := by
    omega
  simp only [overflowed_bind, overflowed_of, add, toNat_value_of, ← Bool.decide_or, hflag]

/-- A sum is flagged exactly when the exact total does not fit. -/
theorem sum_of (g : α → ℕ) (xs : List α) : sum (fun x => of (g x)) xs = of (xs.map g).sum := by
  -- the induction needs the sum from any exact start
  have hfrom : ∀ n, (of n >>= fun total => xs.foldlM (fun t x => of (g x) >>= add t) total) =
      of (n + (xs.map g).sum) := by
    induction xs with
    | nil => exact fun n => bind_pure (of n)
    | cons x xs ih =>
      intro n
      calc
        (of n >>= fun total => (x :: xs).foldlM (fun t x => of (g x) >>= add t) total)
            = ((of n >>= fun t => of (g x) >>= add t) >>= fun total =>
                xs.foldlM (fun t x => of (g x) >>= add t) total) := by
              rw [bind_assoc]
              rfl
        _ = of (n + g x + (xs.map g).sum) := by rw [of_bind_add, ih]
        _ = of (n + ((x :: xs).map g).sum) := by rw [List.map_cons, List.sum_cons, Nat.add_assoc]
  have hzero := hfrom 0
  rwa [Nat.zero_add] at hzero

/-- A number that fits is its exact value. -/
theorem of_bind_of_lt {n : ℕ} (h : n < 2 ^ 64) (f : ℕ → Wrapped β) :
    (of n >>= fun a => f a.toNat) = f n := by
  have hvalue : (of n).value.toNat = n := by rw [toNat_value_of, Nat.mod_eq_of_lt h]
  ext
  · rw [value_bind, hvalue]
  · rw [overflowed_bind, hvalue, overflowed_of, decide_eq_false (not_le.2 h), Bool.false_or]

/-- What is computed from a number is what its exact value gives, without an overflow, only where
the number fits. -/
theorem of_bind_eq_pure_iff {n : ℕ} (f : ℕ → Wrapped β) {b : β} :
    (of n >>= fun a => f a.toNat) = pure b ↔ n < 2 ^ 64 ∧ f n = pure b := by
  constructor
  · intro h
    have hflag : ((of n).overflowed || (f (of n).value.toNat).overflowed) = false :=
      congrArg overflowed h
    rw [Bool.or_eq_false_iff, overflowed_of, decide_eq_false_iff_not, not_le] at hflag
    exact ⟨hflag.1, of_bind_of_lt hflag.1 f ▸ h⟩
  · rintro ⟨hlt, h⟩
    rw [of_bind_of_lt hlt, h]

/-- The case of one number. -/
theorem of_bind_pure_iff (n : ℕ) (f : ℕ → β) :
    (of n >>= fun a => pure (f a.toNat)) = pure (f n) ↔ n < 2 ^ 64 :=
  (of_bind_eq_pure_iff fun a => pure (f a)).trans (and_iff_left rfl)

/-- The case of two numbers. -/
theorem of_bind_of_bind_pure_iff (k n : ℕ) (f : ℕ → ℕ → β) :
    (of k >>= fun a => of n >>= fun b => pure (f a.toNat b.toNat)) = pure (f k n) ↔
      k < 2 ^ 64 ∧ n < 2 ^ 64 :=
  (of_bind_eq_pure_iff fun a => of n >>= fun b => pure (f a b.toNat)).trans
    (and_congr_right fun _ => of_bind_pure_iff n (f k))

end Wrapped

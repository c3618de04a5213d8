import Mathlib

/-!
# Bit fields of a number

* `bits w o n`: the field of `n` bits of `w` from bit `o` on;
* `join fs`: the number whose fields are the values in `fs`, given with their widths, from bit 0 on;
* `fieldsOf w o ns`: the fields of `w` with the widths `ns`, from bit `o` on.

`fieldsOf_join` and `join_fieldsOf` say that the last two are inverse to each other.
-/

namespace BitFields

/-- The field of `n` bits from bit `o` on. -/
def bits (w o n : ℕ) : ℕ := (w >>> o) &&& (2 ^ n - 1)

/-- The number with these fields, given as width and value. -/
def join : List (ℕ × ℕ) → ℕ
  | [] => 0
  | f :: fs => f.2 ||| (join fs <<< f.1)

/-- The fields with these widths, the first one at bit `o`. -/
def fieldsOf (w : ℕ) : ℕ → List ℕ → List (ℕ × ℕ)
  | _, [] => []
  | o, n :: ns => (n, bits w o n) :: fieldsOf w (o + n) ns

theorem bits_eq (w o n : ℕ) : bits w o n = w / 2 ^ o % 2 ^ n := by
  rw [bits, Nat.shiftRight_eq_div_pow, Nat.and_two_pow_sub_one_eq_mod]

theorem bits_lt (w o n : ℕ) : bits w o n < 2 ^ n := by
  rw [bits_eq]
  exact Nat.mod_lt _ (Nat.two_pow_pos n)

theorem bits_of_lt {w n : ℕ} (h : w < 2 ^ n) : bits w 0 n = w := by
  rw [bits_eq, pow_zero, Nat.div_one, Nat.mod_eq_of_lt h]

/-- A field of a field. -/
theorem bits_bits {w o n p m : ℕ} (h : p + m ≤ n) : bits (bits w o n) p m = bits w (o + p) m := by
  have hpow : 2 ^ n = 2 ^ p * (2 ^ m * 2 ^ (n - p - m)) := by
    rw [← pow_add, ← pow_add]
    congr 1
    omega
  rw [bits_eq, bits_eq, bits_eq, hpow, Nat.mod_mul_right_div_self, Nat.mod_mul_right_mod,
    Nat.div_div_eq_div_mul, pow_add]

theorem join_cons {f : ℕ × ℕ} (h : f.2 < 2 ^ f.1) (fs : List (ℕ × ℕ)) :
    join (f :: fs) = 2 ^ f.1 * join fs + f.2 := by
  rw [join, Nat.shiftLeft_eq, Nat.mul_comm, Nat.or_comm, Nat.two_pow_add_eq_or_of_lt h]

theorem join_lt {fs : List (ℕ × ℕ)} (h : ∀ f ∈ fs, f.2 < 2 ^ f.1) :
    join fs < 2 ^ (fs.map Prod.fst).sum := by
  induction fs with
  | nil => exact Nat.two_pow_pos _
  | cons f fs ih =>
    obtain ⟨hf, hfs⟩ := List.forall_mem_cons.1 h
    rw [join_cons hf, List.map_cons, List.sum_cons, pow_add]
    calc
      2 ^ f.1 * join fs + f.2 < 2 ^ f.1 * join fs + 2 ^ f.1 := Nat.add_lt_add_left hf _
      _ = 2 ^ f.1 * (join fs + 1) := (Nat.mul_succ _ _).symm
      _ ≤ 2 ^ f.1 * 2 ^ (fs.map Prod.fst).sum := Nat.mul_le_mul_left _ (ih hfs)

theorem bits_join_cons {f : ℕ × ℕ} (h : f.2 < 2 ^ f.1) (fs : List (ℕ × ℕ)) (o n : ℕ) :
    bits (join (f :: fs)) (f.1 + o) n = bits (join fs) o n := by
  rw [bits_eq, bits_eq, join_cons h, pow_add, ← Nat.div_div_eq_div_mul,
    Nat.mul_add_div (Nat.two_pow_pos _), Nat.div_eq_of_lt h, Nat.add_zero]

theorem fieldsOf_join_cons {f : ℕ × ℕ} (h : f.2 < 2 ^ f.1) (fs : List (ℕ × ℕ)) (o : ℕ)
    (ns : List ℕ) : fieldsOf (join (f :: fs)) (f.1 + o) ns = fieldsOf (join fs) o ns := by
  induction ns generalizing o with
  | nil => rfl
  | cons n ns ih => rw [fieldsOf, fieldsOf, bits_join_cons h, Nat.add_assoc, ih]

/-- **The fields of a joined number are the ones it was joined from.** -/
theorem fieldsOf_join {fs : List (ℕ × ℕ)} (h : ∀ f ∈ fs, f.2 < 2 ^ f.1) :
    fieldsOf (join fs) 0 (fs.map Prod.fst) = fs := by
  induction fs with
  | nil => rfl
  | cons f fs ih =>
    obtain ⟨hf, hfs⟩ := List.forall_mem_cons.1 h
    have hfirst : bits (join (f :: fs)) 0 f.1 = f.2 := by
      rw [bits_eq, join_cons hf, pow_zero, Nat.div_one, Nat.mul_add_mod, Nat.mod_eq_of_lt hf]
    rw [List.map_cons, fieldsOf, hfirst, Nat.add_comm, fieldsOf_join_cons hf, ih hfs]

/-- **Joining consecutive fields gives the field that they make up.** -/
theorem join_fieldsOf (w o : ℕ) (ns : List ℕ) : join (fieldsOf w o ns) = bits w o ns.sum := by
  induction ns generalizing o with
  | nil => rw [fieldsOf, join, List.sum_nil, bits_eq, pow_zero, Nat.mod_one]
  | cons n ns ih =>
    have hcut : w / 2 ^ o % 2 ^ (n + ns.sum) =
        w / 2 ^ o % 2 ^ n + 2 ^ n * (w / 2 ^ o / 2 ^ n % 2 ^ ns.sum) := by
      rw [pow_add, Nat.mod_mul]
    rw [fieldsOf, join_cons (bits_lt w o n), ih, List.sum_cons, bits_eq, bits_eq, bits_eq, hcut,
      pow_add, Nat.div_div_eq_div_mul, Nat.add_comm]

end BitFields

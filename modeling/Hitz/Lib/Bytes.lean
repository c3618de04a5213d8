import Mathlib

/-!
# Byte strings

* `leBytes w n`: the `w` low-order bytes of `n`, least significant first;
* `leNat bs`: the number a byte string denotes, least significant byte first;
* the two are inverse to each other up to truncation (`leNat_leBytes`, `leBytes_leNat`);
* `overwrite l off d`: the string `l` with `d` copied over the entries from `off` on.
-/

namespace Bytes

/-- The `w` low-order bytes of `n`, least significant first. -/
def leBytes : ℕ → ℕ → List UInt8
  | 0, _ => []
  | w + 1, n => UInt8.ofNat n :: leBytes w (n / 256)

/-- The number denoted by a byte string, least significant byte first. -/
def leNat : List UInt8 → ℕ
  | [] => 0
  | b :: bs => b.toNat + 256 * leNat bs

@[simp] theorem length_leBytes (w n : ℕ) : (leBytes w n).length = w := by
  induction w generalizing n with
  | zero => rfl
  | succ w ih => simp [leBytes, ih]

theorem leNat_lt (bs : List UInt8) : leNat bs < 256 ^ bs.length := by
  induction bs with
  | nil => simp [leNat]
  | cons b bs ih =>
    have hb : b.toNat < 256 := b.toNat_lt
    rw [leNat, List.length_cons, Nat.pow_succ]
    omega

/-- Decoding what was encoded gives the number back, truncated to the width. -/
@[simp] theorem leNat_leBytes (w n : ℕ) : leNat (leBytes w n) = n % 256 ^ w := by
  induction w generalizing n with
  | zero => simp [leBytes, leNat, Nat.mod_one]
  | succ w ih =>
    rw [leBytes, leNat, ih, Nat.pow_succ, Nat.mul_comm (256 ^ w) 256, Nat.mod_mul]
    simp

/-- Encoding what was decoded gives the bytes back. -/
theorem leBytes_leNat (bs : List UInt8) : leBytes bs.length (leNat bs) = bs := by
  induction bs with
  | nil => rfl
  | cons b bs ih =>
    have hb : b.toNat < 256 := b.toNat_lt
    have hdiv : (b.toNat + 256 * leNat bs) / 256 = leNat bs := by omega
    rw [List.length_cons, leNat, leBytes, hdiv, ih]
    congr 1
    apply UInt8.toNat_inj.1
    rw [UInt8.toNat_ofNat']
    omega

theorem take_leBytes (w k n : ℕ) : (leBytes w n).take k = leBytes (min k w) n := by
  induction w generalizing k n with
  | zero => simp [leBytes]
  | succ w ih =>
    cases k with
    | zero => simp [leBytes]
    | succ k => rw [leBytes, List.take_succ_cons, ih, Nat.succ_min_succ, leBytes]

/-- Byte strings of one width are equal exactly when the truncated numbers are. -/
theorem leBytes_inj {w n k : ℕ} : leBytes w n = leBytes w k ↔ n % 256 ^ w = k % 256 ^ w := by
  constructor
  · intro h
    rw [← leNat_leBytes, ← leNat_leBytes, h]
  · intro h
    have hn := leBytes_leNat (leBytes w n)
    have hk := leBytes_leNat (leBytes w k)
    rw [length_leBytes, leNat_leBytes] at hn hk
    rw [← hn, ← hk, h]

/-! ### Copying over a range -/

section Overwrite

variable {α : Type} {l d : List α} {off : ℕ}

/-- Copy `d` over the entries of `l` from `off` on. -/
def overwrite (l : List α) (off : ℕ) (d : List α) : List α :=
  l.take off ++ d ++ l.drop (off + d.length)

theorem length_overwrite (h : off + d.length ≤ l.length) :
    (overwrite l off d).length = l.length := by
  simp only [overwrite, List.length_append, List.length_take, List.length_drop]
  omega

theorem getElem?_overwrite (h : off + d.length ≤ l.length) (x : ℕ) : (overwrite l off d)[x]? =
    if off ≤ x ∧ x < off + d.length then d[x - off]? else l[x]? := by
  have htake : (l.take off).length = off := List.length_take_of_le (by omega)
  rw [overwrite, List.append_assoc]
  rcases Nat.lt_or_ge x off with hlt | hge
  · rw [List.getElem?_append_left (by omega), List.getElem?_take_of_lt hlt, if_neg (by omega)]
  · rw [List.getElem?_append_right (by omega), htake]
    rcases Nat.lt_or_ge x (off + d.length) with hin | hout
    · rw [List.getElem?_append_left (by omega), if_pos ⟨hge, hin⟩]
    · rw [List.getElem?_append_right (by omega), List.getElem?_drop, if_neg (by omega)]
      congr 1
      omega

end Overwrite

end Bytes

import Mathlib

/-!
# Byte checksums

A table is valid when its bytes add up to zero modulo 256.  The byte that makes it so is the
negative of the wrapping sum (`valid_set`, and `valid_take_set` for the first part of a table).
-/

namespace Checksum

/-- The sum of the bytes. -/
def byteSum (t : List UInt8) : ℕ := (t.map UInt8.toNat).sum

/-- The sum of the bytes in a byte. -/
def wrappingSum (t : List UInt8) : UInt8 := t.foldl (· + ·) 0

/-- The bytes add up to zero. -/
def Valid (t : List UInt8) : Prop := byteSum t % 256 = 0

variable {t : List UInt8} {i : ℕ}

theorem byteSum_cons (b : UInt8) (t : List UInt8) : byteSum (b :: t) = b.toNat + byteSum t := by
  rw [byteSum, List.map_cons, List.sum_cons, byteSum]

theorem toNat_foldl_add (t : List UInt8) (acc : UInt8) :
    (t.foldl (· + ·) acc).toNat = (acc.toNat + byteSum t) % 256 := by
  induction t generalizing acc with
  | nil =>
    have hacc := acc.toNat_lt
    exact (Nat.mod_eq_of_lt hacc).symm
  | cons b t ih =>
    rw [List.foldl_cons, ih, UInt8.toNat_add, byteSum_cons]
    omega

theorem toNat_wrappingSum (t : List UInt8) : (wrappingSum t).toNat = byteSum t % 256 := by
  rw [wrappingSum, toNat_foldl_add, UInt8.toNat_zero, Nat.zero_add]

theorem byteSum_set (h : t[i]? = some 0) (c : UInt8) :
    byteSum (t.set i c) = byteSum t + c.toNat := by
  induction t generalizing i with
  | nil => cases h
  | cons b t ih =>
    cases i with
    | zero =>
      rw [List.getElem?_cons_zero] at h
      cases h
      rw [List.set_cons_zero, byteSum_cons, byteSum_cons, UInt8.toNat_zero]
      omega
    | succ i =>
      rw [List.getElem?_cons_succ] at h
      rw [List.set_cons_succ, byteSum_cons, byteSum_cons, ih h, Nat.add_assoc]

/-- The negative of the sum, in a place that was zero. -/
theorem valid_set (h : t[i]? = some 0) : Valid (t.set i (0 - wrappingSum t)) := by
  rw [Valid, byteSum_set h, UInt8.toNat_sub, toNat_wrappingSum, UInt8.toNat_zero]
  omega

/-- A checksum over the first `k` bytes; what is written behind them does not matter. -/
theorem valid_take_set {k : ℕ} (h : t[i]? = some 0) (hik : i < k) :
    Valid ((t.set i (0 - wrappingSum (t.take k))).take k) := by
  rw [List.take_set]
  exact valid_set (by rw [List.getElem?_take_of_lt hik, h])

end Checksum

import Mathlib

/-!
# Register operands of x86-64

A register operand names part of a 64-bit register: its low 1, 2, 4 or 8 bytes, or its second byte
(the legacy byte registers AH, CH, DH and BH).

* `Operand.read`: the value of the operand;
* `Operand.insert`: the register after the operand was written.  A 4-byte write clears the upper
  half, 1- and 2-byte writes keep the rest of the register;
* `byteOperand`: the byte register an encoding names, which depends on the presence of a REX
  prefix;
* `operandBytes`, `addressBytes`, `signExtend`: operand size, length of the memory operand's
  encoding, and immediates that are narrower than their operand.
-/

namespace X86

/-- Part of a register.  `high` selects the second byte and goes with `size = 1`. -/
structure Operand where
  reg : ℕ
  size : ℕ
  high : Bool := false
  deriving DecidableEq, Repr

namespace Operand

/-- The value of an operand, given its register. -/
def read (op : Operand) (r : ℕ) : ℕ :=
  if op.high then r / 256 % 256 else r % 2 ^ (8 * op.size)

/-- The register after its operand was set to `v`. -/
def insert (op : Operand) (r v : ℕ) : ℕ :=
  if op.high then r / 65536 * 65536 + v % 256 * 256 + r % 256
  else if op.size = 4 ∨ op.size = 8 then v % 2 ^ (8 * op.size)
  else r / 2 ^ (8 * op.size) * 2 ^ (8 * op.size) + v % 2 ^ (8 * op.size)

end Operand

/-- The byte register with number `reg`: without a REX prefix 4 to 7 are AH, CH, DH and BH. -/
def byteOperand (rex : Bool) (reg : ℕ) : Operand :=
  if !rex ∧ 4 ≤ reg ∧ reg < 8 then { reg := reg - 4, size := 1, high := true }
  else { reg, size := 1 }

/-- The register operand of an encoding. -/
def regOperand (rex : Bool) (reg size : ℕ) : Operand :=
  if size = 1 then byteOperand rex reg else { reg, size }

/-- The operand size in bytes: REX.W wins over the `0x66` prefix. -/
def operandBytes (byteOp rexW prefix66 : Bool) : ℕ :=
  if byteOp then 1 else if rexW then 8 else if prefix66 then 2 else 4

/-- The bytes of SIB and displacement after a ModR/M byte; `next` is the byte that follows it. -/
def addressBytes (modrm next : UInt8) : ℕ :=
  let mod := modrm.toNat / 64
  let rm := modrm.toNat % 8
  let sib := if mod ≠ 3 ∧ rm = 4 then 1 else 0
  let disp :=
    if mod = 0 ∧ (rm = 5 ∨ rm = 4 ∧ next.toNat % 8 = 5) then 4
    else if mod = 1 then 1
    else if mod = 2 then 4
    else 0
  sib + disp

/-- Sign-extend a number of `n` bytes to `m` bytes. -/
def signExtend (n m v : ℕ) : ℕ :=
  if v < 2 ^ (8 * n - 1) then v else v + (2 ^ (8 * m) - 2 ^ (8 * n))

theorem size_regOperand (rex : Bool) (reg size : ℕ) : (regOperand rex reg size).size = size := by
  unfold regOperand byteOperand
  split_ifs <;> simp_all

/-- The operand is the low part of the register it names, or the second byte of the register
four below. -/
theorem regOperand_cases (rex : Bool) (reg size : ℕ) :
    regOperand rex reg size = { reg, size } ∨
      (4 ≤ reg ∧ reg < 8 ∧ size = 1 ∧
        regOperand rex reg size = { reg := reg - 4, size := 1, high := true }) := by
  unfold regOperand byteOperand
  split_ifs with h₁ h₂
  · exact Or.inr ⟨h₂.2.1, h₂.2.2, h₁, rfl⟩
  · exact Or.inl (by rw [h₁])
  · exact Or.inl rfl

theorem reg_regOperand_le (rex : Bool) (reg size : ℕ) : (regOperand rex reg size).reg ≤ reg := by
  rcases regOperand_cases rex reg size with h | ⟨-, -, -, h⟩
  · rw [h]
  · rw [h]
    exact Nat.sub_le reg 4

theorem high_regOperand {rex : Bool} {reg size : ℕ}
    (hhigh : (regOperand rex reg size).high = true) : size = 1 := by
  rcases regOperand_cases rex reg size with h | ⟨-, -, hsize, -⟩
  · rw [h] at hhigh
    cases hhigh
  · exact hsize

theorem operandBytes_cases (byteOp rexW prefix66 : Bool) :
    operandBytes byteOp rexW prefix66 = 1 ∨ operandBytes byteOp rexW prefix66 = 2 ∨
      operandBytes byteOp rexW prefix66 = 4 ∨ operandBytes byteOp rexW prefix66 = 8 := by
  cases byteOp <;> cases rexW <;> cases prefix66 <;> decide

theorem Operand.read_lt (op : Operand) (r : ℕ) (hs : op.high = true → op.size = 1) :
    op.read r < 2 ^ (8 * op.size) := by
  unfold read
  split_ifs with h
  · rw [hs h]
    omega
  · exact Nat.mod_lt _ (by positivity)

/-- Writing an operand leaves a 64-bit register. -/
theorem Operand.insert_lt (op : Operand) {r : ℕ} (v : ℕ) (hr : r < 2 ^ 64)
    (hs : op.size = 1 ∨ op.size = 2 ∨ op.size = 4 ∨ op.size = 8) : op.insert r v < 2 ^ 64 := by
  unfold insert
  rcases hs with hs | hs | hs | hs <;> rw [hs] <;> split_ifs <;> omega

/-- A value written to the low part of a register is read back. -/
theorem Operand.read_insert {reg size v : ℕ} (r : ℕ)
    (hs : size = 1 ∨ size = 2 ∨ size = 4 ∨ size = 8) (hv : v < 2 ^ (8 * size)) :
    ({ reg, size } : Operand).read (({ reg, size } : Operand).insert r v) = v := by
  unfold Operand.read Operand.insert
  rcases hs with rfl | rfl | rfl | rfl <;>
    (simp only [Bool.false_eq_true, if_false]; norm_num at hv ⊢; omega)

/-- Writing the low part of a register replaces the whole register exactly when nothing of it is
kept: for 4 and 8 bytes, or when the rest is zero anyway. -/
theorem insert_low_eq_iff {reg size r v : ℕ}
    (hs : size = 1 ∨ size = 2 ∨ size = 4 ∨ size = 8) (hv : v < 2 ^ (8 * size)) :
    ({ reg, size } : Operand).insert r v = v ↔ (size < 4 → r < 2 ^ (8 * size)) := by
  unfold Operand.insert
  rcases hs with rfl | rfl | rfl | rfl <;>
    (simp only [Bool.false_eq_true, if_false]; norm_num at hv ⊢; omega)

/-- Truncated to its operand, an immediate of at most four bytes is its own sign extension unless
it is negative and the operand has eight bytes. -/
theorem mod_eq_signExtend_mod_iff {n v : ℕ} (hn : n = 1 ∨ n = 2 ∨ n = 4 ∨ n = 8)
    (hv : v < 256 ^ min n 4) :
    v % 256 ^ n = signExtend (min n 4) n v % 256 ^ n ↔ (n = 8 → v < 2 ^ 31) := by
  unfold signExtend
  rcases hn with rfl | rfl | rfl | rfl
  · norm_num
  · norm_num
  · norm_num
  · norm_num at hv ⊢
    split_ifs <;> omega

end X86

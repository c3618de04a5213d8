import Hitz.Lib.Bytes
import Hitz.Hal.Types

/-!
# The MMIO instruction decoder (`hitz-vmm/src/mmio_decode.rs`)

Decodes the `MOV` encodings that Linux uses for virtio-MMIO register accesses, and moves values
between a register number and the register file.  Bytes are taken apart with `/` and `%` where the
source shifts and masks.
-/

namespace Hitz.Vmm

open Bytes Hal

/-- Decoded MMIO instruction: register number, access size in bytes, immediate and length. -/
structure DecodedMmio where
  register : ℕ
  size : ℕ
  immediate : Option ℕ
  instructionLen : ℕ
  deriving DecidableEq, Repr

/-- Is the byte a REX prefix? -/
def isRex (b : UInt8) : Bool := 0x40 ≤ b ∧ b ≤ 0x4F

/-- Skip the prefixes at the front of `bytes`, which starts at `pos`: the position of the opcode,
whether there was a `0x66`, and the last REX byte (0 if none). -/
def parsePrefixes : List UInt8 → ℕ → Bool → UInt8 → Option (ℕ × Bool × UInt8)
  | [], _, _, _ => none
  | b :: rest, pos, hasOperandSizePrefix, rex =>
    if b = 0x66 then parsePrefixes rest (pos + 1) true rex
    else if isRex b then parsePrefixes rest (pos + 1) hasOperandSizePrefix b
    else some (pos, hasOperandSizePrefix, rex)

/-- Does a SIB byte follow the ModR/M byte? -/
def needsSib (modrm : UInt8) : Bool := modrm.toNat % 8 = 4 ∧ modrm.toNat / 64 ≠ 3

/-- Size of the displacement in bytes. -/
def displacementSize (modrm : UInt8) (hasSib : Bool) (sib : UInt8) : ℕ :=
  match modrm.toNat / 64 with
  | 0 =>
    -- RIP-relative, or SIB with base 5
    if modrm.toNat % 8 = 5 then 4
    else if hasSib ∧ sib.toNat % 8 = 5 then 4
    else 0
  | 1 => 1
  | 2 => 4
  | _ => 0

/-- Skip SIB byte and displacement. -/
def parseSibAndDisp (bytes : List UInt8) (modrm : UInt8) (pos : ℕ) : Option ℕ := do
  let hasSib := needsSib modrm
  let (sib, pos) ← if hasSib then (bytes[pos]?).map fun s => (s, pos + 1) else some (0, pos)
  let dispSize := displacementSize modrm hasSib sib
  if bytes.length < pos + dispSize then none else some (pos + dispSize)

/-- Operand size in bytes: a byte opcode wins over REX.W, which wins over `0x66`. -/
def operandSize (isByte rexW hasOperandSizePrefix : Bool) : ℕ :=
  if isByte then 1 else if rexW then 8 else if hasOperandSizePrefix then 2 else 4

/-- `MOV r/m, r` and `MOV r, r/m`. -/
def decodeMovRRm (opcode : UInt8) (hasOperandSizePrefix rexW : Bool) (regField pos : ℕ) :
    DecodedMmio where
  register := regField
  -- the byte variants have the low bit clear
  size := operandSize (opcode.toNat % 2 = 0) rexW hasOperandSizePrefix
  immediate := none
  instructionLen := pos % 256

/-- `MOV r/m, imm`. -/
def decodeMovRmImm (bytes : List UInt8) (hasOperandSizePrefix rexW : Bool) (modrm : UInt8)
    (pos : ℕ) : Option DecodedMmio :=
  if modrm.toNat / 8 % 8 ≠ 0 then none
  else
    let size := operandSize false rexW hasOperandSizePrefix
    let immSize := if hasOperandSizePrefix && !rexW then 2 else 4
    if bytes.length < pos + immSize then none
    else some {
      register := 0
      size
      immediate := some (leNat ((bytes.drop pos).take immSize))
      instructionLen := (pos + immSize) % 256 }

/-- Decode an x86 MMIO instruction from raw bytes. -/
def decodeMmioInstruction (bytes : List UInt8) : Option DecodedMmio := do
  let (pos, hasOperandSizePrefix, rex) ← parsePrefixes bytes 0 false 0
  let rexR := rex.toNat / 4 % 2
  let rexW : Bool := rex.toNat / 8 % 2 = 1
  let opcode ← bytes[pos]?
  let modrm ← bytes[pos + 1]?
  let regField := modrm.toNat / 8 % 8 + 8 * rexR
  let pos ← parseSibAndDisp bytes modrm (pos + 2)
  if 0x88 ≤ opcode ∧ opcode ≤ 0x8B then
    some (decodeMovRRm opcode hasOperandSizePrefix rexW regField pos)
  else if opcode = 0xC7 then decodeMovRmImm bytes hasOperandSizePrefix rexW modrm pos
  else none

/-- The value of a register by its x86 number. -/
def registerValue (regs : StandardRegs) : ℕ → UInt64
  | 0 => regs.rax
  | 1 => regs.rcx
  | 2 => regs.rdx
  | 3 => regs.rbx
  | 4 => regs.rsp
  | 5 => regs.rbp
  | 6 => regs.rsi
  | 7 => regs.rdi
  | 8 => regs.r8
  | 9 => regs.r9
  | 10 => regs.r10
  | 11 => regs.r11
  | 12 => regs.r12
  | 13 => regs.r13
  | 14 => regs.r14
  | 15 => regs.r15
  | _ => 0

/-- Set a register by its x86 number. -/
def setRegister (regs : StandardRegs) (idx : ℕ) (val : UInt64) : StandardRegs :=
  match idx with
  | 0 => { regs with rax := val }
  | 1 => { regs with rcx := val }
  | 2 => { regs with rdx := val }
  | 3 => { regs with rbx := val }
  | 4 => { regs with rsp := val }
  | 5 => { regs with rbp := val }
  | 6 => { regs with rsi := val }
  | 7 => { regs with rdi := val }
  | 8 => { regs with r8 := val }
  | 9 => { regs with r9 := val }
  | 10 => { regs with r10 := val }
  | 11 => { regs with r11 := val }
  | 12 => { regs with r12 := val }
  | 13 => { regs with r13 := val }
  | 14 => { regs with r14 := val }
  | 15 => { regs with r15 := val }
  | _ => regs

/-! ### The register file -/

/-- Setting one register changes that register only. -/
theorem registerValue_setRegister (regs : StandardRegs) {i : ℕ} (hi : i < 16) (j : ℕ)
    (v : UInt64) :
    registerValue (setRegister regs i v) j = if j = i then v else registerValue regs j := by
  interval_cases i <;> (split_ifs with h; · subst h; rfl) <;>
    (unfold setRegister registerValue; split <;> first | rfl | exact absurd rfl h)

theorem rip_setRegister (regs : StandardRegs) (i : ℕ) (v : UInt64) :
    (setRegister regs i v).rip = regs.rip := by
  unfold setRegister
  split <;> rfl

end Hitz.Vmm

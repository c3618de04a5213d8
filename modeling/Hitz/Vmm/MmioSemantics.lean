import Hitz.Vmm.MmioGrammar
import Hitz.Vmm.RunLoop

/-!
# Emulated MMIO moves against the architecture

`archMov` decodes a `MOV` as the architecture does, and `Prescribed` says what the instruction
does to the device and to the registers.  The run loop differs from it in four ways:

* an 8- or 16-bit load replaces the whole register;
* byte registers 4 to 7 without a REX prefix are taken for SPL, BPL, SIL and DIL;
* the immediate of a 64-bit `C7` store is not sign-extended;
* a REX prefix counts even if another prefix follows it.

`handleMmio_prescribed_iff` says exactly when the difference does not show.
-/

namespace Hitz.Vmm

open Bytes Hal Whp X86

/-! ### The architecture -/

/-- A `MOV` between a register or an immediate and memory. -/
structure ArchMov where
  isStore : Bool
  size : ℕ
  operand : Operand
  immediate : Option ℕ
  len : ℕ
  deriving DecidableEq, Repr

/-- The prefixes of an instruction, as far as they are operand-size or REX prefixes. -/
def archPrefixes (bytes : List UInt8) : List UInt8 :=
  bytes.takeWhile fun b => b == 0x66 || isRex b

/-- The REX prefix takes effect only directly before the opcode. -/
def archRex (prefixes : List UInt8) : Option UInt8 :=
  prefixes.getLast?.filter isRex

/-- Decode a `MOV` as the architecture does. -/
def archMov (bytes : List UInt8) : Option ArchMov := do
  let prefixes := archPrefixes bytes
  let rex := archRex prefixes
  let rexW : Bool := (rex.getD 0).toNat / 8 % 2 = 1
  let rexR := (rex.getD 0).toNat / 4 % 2
  let prefix66 := prefixes.contains 0x66
  let opcode ← bytes[prefixes.length]?
  let modrm ← bytes[prefixes.length + 1]?
  let pos := prefixes.length + 2 +
    addressBytes modrm (bytes.getD (prefixes.length + 2) 0)
  let reg := modrm.toNat / 8 % 8
  if 0x88 ≤ opcode ∧ opcode ≤ 0x8B then
    let size := operandBytes (opcode.toNat % 2 = 0) rexW prefix66
    some {
      isStore := opcode ≤ 0x89
      size
      operand := regOperand rex.isSome (reg + 8 * rexR) size
      immediate := none
      len := pos }
  else if opcode = 0xC7 ∧ reg = 0 then
    let size := operandBytes false rexW prefix66
    let immSize := min size 4
    some {
      isStore := true
      size
      operand := { reg := 0, size }
      immediate := some (signExtend immSize size (leNat ((bytes.drop pos).take immSize)))
      len := pos + immSize }
  else none

/-- The registers after a load of `v`. -/
def archLoad (regs : StandardRegs) (e : ArchMov) (v : ℕ) : StandardRegs :=
  { setRegister regs e.operand.reg (UInt64.ofNat
      (e.operand.insert (registerValue regs e.operand.reg).toNat v)) with
    rip := regs.rip + UInt64.ofNat e.len }

/-- The bytes a store sends. -/
def archStoreBytes (regs : StandardRegs) (e : ArchMov) : List UInt8 :=
  leBytes e.size (match e.immediate with
    | some imm => imm
    | none => e.operand.read (registerValue regs e.operand.reg).toNat)

/-- The value a load of `size` bytes gets from the devices. -/
def loadValue {D : Type} [DeviceBus D] (s : VmState D) (gpa : UInt64) (size : ℕ) : ℕ :=
  leNat ((DeviceBus.read s.devices gpa size).1.take size)

/-- From `s` to `s'` the instruction did what the architecture prescribes. -/
def Prescribed {D : Type} [DeviceBus D] (e : ArchMov) (gpa : UInt64) (s s' : VmState D) : Prop :=
  if e.isStore then
    s'.accesses = s.accesses ++ [.write gpa (archStoreBytes s.vcpu.regs e)] ∧
      s'.vcpu.regs = { s.vcpu.regs with rip := s.vcpu.regs.rip + UInt64.ofNat e.len }
  else
    s'.accesses = s.accesses ++ [.read gpa e.size] ∧
      s'.vcpu.regs = archLoad s.vcpu.regs e (loadValue s gpa e.size)

instance {D : Type} [DeviceBus D] (e : ArchMov) (gpa : UInt64) (s s' : VmState D) :
    Decidable (Prescribed e gpa s s') := by
  unfold Prescribed
  infer_instance

/-! ### Registers -/

theorem registerValue_rip (regs : StandardRegs) (rip : UInt64) (j : ℕ) :
    registerValue { regs with rip } j = registerValue regs j := by
  unfold registerValue
  split <;> rfl

theorem setRegister_self (regs : StandardRegs) (i : ℕ) :
    setRegister regs i (registerValue regs i) = regs := by
  unfold setRegister registerValue
  split <;> rfl

/-- Two single-register updates give the same registers exactly when they are the same update, or
both change nothing. -/
theorem setRegister_eq_iff (regs : StandardRegs) {i j : ℕ} (hi : i < 16) (hj : j < 16)
    (x y rip : UInt64) :
    ({ setRegister regs i x with rip } : StandardRegs) = { setRegister regs j y with rip } ↔
      if i = j then x = y else x = registerValue regs i ∧ y = registerValue regs j := by
  constructor
  · intro h
    have hget : ∀ k, registerValue (setRegister regs i x) k =
        registerValue (setRegister regs j y) k := by
      intro k
      rw [← registerValue_rip (setRegister regs i x) rip, h, registerValue_rip]
    have h₁ := hget i
    have h₂ := hget j
    rw [registerValue_setRegister regs hi, registerValue_setRegister regs hj] at h₁ h₂
    split_ifs with hij
    · subst hij
      simpa using h₁
    · rw [if_pos rfl, if_neg hij] at h₁
      rw [if_pos rfl, if_neg (Ne.symm hij)] at h₂
      exact ⟨h₁, h₂.symm⟩
  · intro h
    split_ifs at h with hij
    · rw [hij, h]
    · obtain ⟨rfl, rfl⟩ := h
      rw [setRegister_self, setRegister_self]

/-! ### What the decoder finds -/

/-- The prefixes as the decoder sees them: the last REX byte counts wherever it stands. -/
theorem parsePrefixes_eq_some {bytes : List UInt8} {pos : ℕ} {p66 : Bool} {rex : UInt8}
    (h : parsePrefixes bytes 0 false 0 = some (pos, p66, rex)) :
    pos = (archPrefixes bytes).length ∧ p66 = (archPrefixes bytes).contains 0x66 ∧
      rex = lastRex (archPrefixes bytes) := by
  obtain ⟨prefixes, b, rest, rfl, hmem, h66, hrex, rfl, rfl, rfl⟩ := parsePrefixes_iff.1 h
  have harch : archPrefixes (prefixes ++ b :: rest) = prefixes := by
    rw [archPrefixes, List.takeWhile_append_of_pos (by simpa using hmem),
      List.takeWhile_cons_of_neg (by simp [h66, hrex]), List.append_nil]
  rw [harch]
  exact ⟨rfl, rfl, rfl⟩

/-- An effective REX prefix is the one the decoder uses. -/
theorem getLast?_filter_isRex {prefixes : List UInt8} {b : UInt8}
    (h : archRex prefixes = some b) : (prefixes.filter isRex).getLast? = some b := by
  obtain ⟨hlast, hrex⟩ := Option.filter_eq_some_iff.1 h
  obtain ⟨init, rfl⟩ := List.getLast?_eq_some_iff.1 hlast
  rw [List.filter_append, List.filter_cons_of_pos hrex, List.filter_nil,
    List.getLast?_append_of_ne_nil _ (by simp)]
  rfl

/-- The two tables of the decoder add up to the architecture's. -/
theorem addressBytes_eq (modrm next : UInt8) : addressBytes modrm next =
    (if needsSib modrm then 1 else 0) +
      displacementSize modrm (needsSib modrm) (if needsSib modrm then next else 0) := by
  have hmod : modrm.toNat / 64 < 4 := by have := modrm.toNat_lt; omega
  unfold addressBytes displacementSize needsSib
  generalize modrm.toNat / 64 = mod at hmod
  generalize modrm.toNat % 8 = rm
  interval_cases mod <;> by_cases h₁ : rm = 4 <;> by_cases h₂ : rm = 5 <;> simp [h₁, h₂]

theorem parseSibAndDisp_eq_some {bytes : List UInt8} {modrm : UInt8} {pos pos' : ℕ}
    (h : parseSibAndDisp bytes modrm pos = some pos') :
    pos' = pos + addressBytes modrm (bytes.getD pos 0) ∧ pos' ≤ bytes.length := by
  rw [addressBytes_eq]
  unfold parseSibAndDisp at h
  cases hs : needsSib modrm with
  | true =>
    simp only [hs, if_true, Option.bind_eq_bind] at h ⊢
    obtain ⟨⟨sib, p⟩, hsib, h⟩ := Option.bind_eq_some_iff.1 h
    obtain ⟨b, hb, heq⟩ := Option.map_eq_some_iff.1 hsib
    cases heq
    rw [List.getD_eq_getElem?_getD, hb, Option.getD_some]
    dsimp only at h
    split_ifs at h with hlen
    cases h
    exact ⟨by omega, by omega⟩
  | false =>
    simp only [hs, Bool.false_eq_true, if_false, Option.bind_eq_bind, Option.bind_some] at h ⊢
    split_ifs at h with hlen
    cases h
    exact ⟨by omega, by omega⟩

theorem decodeMovRmImm_eq_some {bytes : List UInt8} {p66 rexW : Bool} {modrm : UInt8} {pos : ℕ}
    {d : DecodedMmio} (h : decodeMovRmImm bytes p66 rexW modrm pos = some d) :
    ∃ k, k = (if p66 && !rexW then 2 else 4) ∧ modrm.toNat / 8 % 8 = 0 ∧
      pos + k ≤ bytes.length ∧
      d = { register := 0, size := operandSize false rexW p66
            immediate := some (leNat ((bytes.drop pos).take k))
            instructionLen := (pos + k) % 256 } := by
  unfold decodeMovRmImm at h
  dsimp only at h
  generalize (if p66 && !rexW then 2 else 4) = k at h
  split_ifs at h with hreg hlen
  cases h
  exact ⟨k, rfl, not_not.1 hreg, by omega, rfl⟩

/-- A REX.W that the architecture ignores, since another prefix follows it. -/
def strayRexW (prefixes : List UInt8) : Bool :=
  (archRex prefixes).isNone && ((prefixes.filter isRex).getLast?.getD 0).toNat / 8 % 2 = 1

/-- Only an ignored REX.W makes the decoder differ from the architecture in the operand size. -/
theorem operandSize_eq_iff (prefixes : List UInt8) (byteOp p66 : Bool) :
    operandSize byteOp (((prefixes.filter isRex).getLast?.getD 0).toNat / 8 % 2 = 1) p66 =
        operandBytes byteOp (((archRex prefixes).getD 0).toNat / 8 % 2 = 1) p66 ↔
      operandBytes byteOp (((archRex prefixes).getD 0).toNat / 8 % 2 = 1) p66 = 1 ∨
        strayRexW prefixes = false := by
  unfold strayRexW
  cases hrex : archRex prefixes with
  | some b =>
    rw [getLast?_filter_isRex hrex]
    simp [operandSize, operandBytes]
  | none =>
    simp only [Option.getD_none, UInt8.toNat_zero, Option.isNone_none, Bool.true_and]
    generalize decide (((prefixes.filter isRex).getLast?.getD 0).toNat / 8 % 2 = 1) = w
    revert byteOp p66 w
    decide

/-- How the decoder's result relates to the architecture's. -/
structure Decodes (bytes : List UInt8) (d : DecodedMmio) (e : ArchMov) : Prop where
  size_iff : d.size = e.size ↔ e.size = 1 ∨ strayRexW (archPrefixes bytes) = false
  size_cases : e.size = 1 ∨ e.size = 2 ∨ e.size = 4 ∨ e.size = 8
  size_le : d.size ≤ 8
  register_lt : d.register < 16
  operand_lt : e.operand.reg < 16
  low : d.register = e.operand.reg → e.operand = { reg := e.operand.reg, size := e.size }
  operand_size : e.operand.size = e.size
  high : e.operand.high = true → e.size = 1
  imm_none : e.immediate = none → d.immediate = none ∧ d.instructionLen = e.len
  imm_some : ∀ i, e.immediate = some i → e.isStore = true ∧ ∃ v, d.immediate = some v ∧
    (d.size = e.size → d.instructionLen = e.len ∧ v < 256 ^ min e.size 4 ∧
      i = signExtend (min e.size 4) e.size v)

theorem operandSize_le (isByte rexW p66 : Bool) : operandSize isByte rexW p66 ≤ 8 := by
  cases isByte <;> cases rexW <;> cases p66 <;> decide

/-- The register forms.  The decoder takes the register field and the REX byte it found, the
architecture the REX byte before the opcode. -/
theorem decodes_movRRm {bytes : List UInt8} {opcode modrm rex : UInt8} {isStore : Bool} {pos : ℕ}
    (hrex : rex = ((archPrefixes bytes).filter isRex).getLast?.getD 0) (hpos : pos < 256)
    {size : ℕ} (hsize : size = operandBytes (opcode.toNat % 2 = 0)
      (((archRex (archPrefixes bytes)).getD 0).toNat / 8 % 2 = 1)
      ((archPrefixes bytes).contains 0x66)) :
    Decodes bytes
      (decodeMovRRm opcode ((archPrefixes bytes).contains 0x66) (rex.toNat / 8 % 2 = 1)
        (modrm.toNat / 8 % 8 + 8 * (rex.toNat / 4 % 2)) pos)
      { isStore, size
        operand := regOperand (archRex (archPrefixes bytes)).isSome (modrm.toNat / 8 % 8 +
          8 * (((archRex (archPrefixes bytes)).getD 0).toNat / 4 % 2)) size
        immediate := none
        len := pos } := by
  have hlt : ∀ b : UInt8, modrm.toNat / 8 % 8 + 8 * (b.toNat / 4 % 2) < 16 := fun b => by omega
  constructor
  case size_iff =>
    rw [hsize, hrex]
    exact operandSize_eq_iff _ _ _
  case size_cases =>
    rw [hsize]
    exact operandBytes_cases _ _ _
  case size_le => exact operandSize_le _ _ _
  case register_lt => exact hlt rex
  case operand_lt => exact (reg_regOperand_le _ _ _).trans_lt (hlt _)
  case low =>
    intro heq
    rcases regOperand_cases (archRex (archPrefixes bytes)).isSome (modrm.toNat / 8 % 8 +
      8 * (((archRex (archPrefixes bytes)).getD 0).toNat / 4 % 2)) size with hop | ⟨h₁, h₂, -, hop⟩
    · rw [hop]
    · -- the legacy byte register is four below the register the decoder takes
      rw [hop] at heq
      simp only [decodeMovRRm] at heq
      omega
  case operand_size => exact size_regOperand _ _ _
  case high => exact high_regOperand
  case imm_none => exact fun _ => ⟨rfl, Nat.mod_eq_of_lt hpos⟩
  case imm_some =>
    intro i hi
    cases hi

/-- The immediate form.  The size of the immediate follows from the operand size. -/
theorem decodes_movRmImm {bytes : List UInt8} {modrm rex : UInt8} {pos : ℕ} {d : DecodedMmio}
    (hbytes : bytes.length ≤ 16)
    (hrex : rex = ((archPrefixes bytes).filter isRex).getLast?.getD 0)
    (h : decodeMovRmImm bytes ((archPrefixes bytes).contains 0x66) (rex.toNat / 8 % 2 = 1) modrm
      pos = some d) {size : ℕ} (hsize : size = operandBytes false
        (((archRex (archPrefixes bytes)).getD 0).toNat / 8 % 2 = 1)
        ((archPrefixes bytes).contains 0x66)) :
    Decodes bytes d
      { isStore := true, size
        operand := { reg := 0, size }
        immediate := some (signExtend (min size 4) size (leNat ((bytes.drop pos).take (min size 4))))
        len := pos + min size 4 } := by
  obtain ⟨k, hk, -, hlen, rfl⟩ := decodeMovRmImm_eq_some h
  constructor
  case size_iff =>
    rw [hsize, hrex]
    exact operandSize_eq_iff (archPrefixes bytes) false ((archPrefixes bytes).contains 0x66)
  case size_cases =>
    rw [hsize]
    exact operandBytes_cases false _ ((archPrefixes bytes).contains 0x66)
  case size_le => exact operandSize_le false _ ((archPrefixes bytes).contains 0x66)
  case register_lt => exact Nat.zero_lt_succ _
  case operand_lt => exact Nat.zero_lt_succ _
  case low => exact fun _ => rfl
  case operand_size => rfl
  case high =>
    intro hhigh
    cases hhigh
  case imm_none =>
    intro hi
    cases hi
  case imm_some =>
    rintro i ⟨⟩
    refine ⟨rfl, _, rfl, fun heq => ?_⟩
    have hmin : min size 4 = k := by
      dsimp only at heq
      rw [← heq, hk]
      simp only [operandSize]
      cases decide (rex.toNat / 8 % 2 = 1) <;> cases (archPrefixes bytes).contains 0x66 <;> rfl
    have hv := leNat_lt ((bytes.drop pos).take k)
    rw [List.length_take, List.length_drop, Nat.min_eq_left (by omega)] at hv
    dsimp only
    rw [hmin]
    exact ⟨Nat.mod_eq_of_lt (by omega), hv, rfl⟩

/-- Every accepted instruction is a `MOV` of the architecture. -/
theorem decodes {bytes : List UInt8} {d : DecodedMmio} (hbytes : bytes.length ≤ 16)
    (h : decodeMmioInstruction bytes = some d) :
    ∃ e, archMov bytes = some e ∧ Decodes bytes d e := by
  unfold decodeMmioInstruction at h
  simp only [Option.bind_eq_bind, Option.bind_eq_some_iff] at h
  obtain ⟨⟨pos, p66, rex⟩, hpre, opcode, hop, modrm, hmod, pos', hsib, h⟩ := h
  obtain ⟨rfl, rfl, hrex⟩ := parsePrefixes_eq_some hpre
  obtain ⟨hpos', hle⟩ := parseSibAndDisp_eq_some hsib
  unfold archMov
  simp only [hop, hmod, Option.bind_eq_bind, Option.bind_some]
  rw [← hpos']
  by_cases hmov : 0x88 ≤ opcode ∧ opcode ≤ 0x8B
  · rw [if_pos hmov] at h
    rw [if_pos hmov]
    cases h
    exact ⟨_, rfl, decodes_movRRm hrex (by omega) rfl⟩
  · rw [if_neg hmov] at h
    rw [if_neg hmov]
    split_ifs at h with hc7
    obtain ⟨k, -, hreg0, -⟩ := decodeMovRmImm_eq_some h
    rw [if_pos ⟨hc7, hreg0⟩]
    exact ⟨_, rfl, decodes_movRmImm hbytes hrex h rfl⟩

/-! ### What the run loop does -/

section Handlers

variable {D : Type} [DeviceBus D]

/-- A load: one device read, and one register replaced by the bytes read. -/
theorem handleMmioRead_eq_ok {mmio : MmioExit} {d : DecodedMmio} {s s' : VmState D}
    (hd : d.size ≤ 8)
    (h : handleMmioRead mmio d d.instructionLen s = (.ok (), s')) :
    s'.accesses = s.accesses ++ [.read mmio.gpa d.size] ∧
      s'.vcpu.regs = { setRegister s.vcpu.regs d.register
          (UInt64.ofNat (loadValue s mmio.gpa d.size)) with
        rip := s.vcpu.regs.rip + UInt64.ofNat d.instructionLen } := by
  unfold handleMmioRead at h
  rw [Nat.min_eq_left hd] at h
  obtain ⟨data, t, hread, h⟩ := Vm.bind_eq_ok h
  cases hread
  obtain ⟨regs, t', hget, hset⟩ := Vm.bind_eq_ok h
  obtain ⟨rfl, rfl⟩ := getRegs_eq_ok hget
  obtain rfl := setRegs_eq_ok hset
  refine ⟨rfl, ?_⟩
  dsimp only
  rw [rip_setRegister]
  rfl

/-- A store: one device write, and nothing but RIP changes. -/
theorem handleMmioWrite_eq_ok {mmio : MmioExit} {d : DecodedMmio} {s s' : VmState D}
    (hd : d.size ≤ 8) (h : handleMmioWrite mmio d d.instructionLen s = (.ok (), s')) :
    s'.accesses = s.accesses ++ [.write mmio.gpa (leBytes d.size (match d.immediate with
        | some imm => (UInt64.ofNat imm).toNat
        | none => (registerValue s.vcpu.regs d.register).toNat))] ∧
      s'.vcpu.regs =
        { s.vcpu.regs with rip := s.vcpu.regs.rip + UInt64.ofNat d.instructionLen } := by
  unfold handleMmioWrite at h
  obtain ⟨value, t, hvalue, h⟩ := Vm.bind_eq_ok h
  -- the operand, read before anything else happens
  obtain ⟨calls, hval, rfl⟩ : ∃ calls, value.toNat = (match d.immediate with
      | some imm => (UInt64.ofNat imm).toNat
      | none => (registerValue s.vcpu.regs d.register).toNat) ∧
      t = { s with vcpu := { s.vcpu with calls } } := by
    unfold storeValue at hvalue
    cases himm : d.immediate with
    | some imm =>
      rw [himm] at hvalue
      cases hvalue
      exact ⟨_, rfl, rfl⟩
    | none =>
      rw [himm] at hvalue
      obtain ⟨regs, t', hget, hpure⟩ := Vm.bind_eq_ok hvalue
      obtain ⟨rfl, rfl⟩ := getRegs_eq_ok hget
      cases hpure
      exact ⟨_, rfl, rfl⟩
  obtain ⟨irq, t₁, hwrite, h⟩ := Vm.bind_eq_ok h
  obtain ⟨_, t₂, hrip, h⟩ := Vm.bind_eq_ok h
  rw [Nat.min_eq_left hd, take_leBytes, Nat.min_eq_left hd] at hwrite
  obtain ⟨devices, rfl⟩ := busWrite_eq_ok hwrite
  obtain ⟨calls', rfl⟩ := advanceRip_eq_ok hrip
  rw [← hval]
  cases irq with
  | none =>
    cases h
    exact ⟨rfl, rfl⟩
  | some vector =>
    rcases injectOrDefer_eq_ok h with rfl | rfl
    · exact ⟨rfl, rfl⟩
    · exact ⟨rfl, rfl⟩

/-! ### When the result is the architecture's -/

/-- The inputs on which the differences listed above do not show: `v` is the value a load gets. -/
def Faithful (bytes : List UInt8) (regs : StandardRegs) (d : DecodedMmio) (e : ArchMov) (v : ℕ) :
    Prop :=
  (e.size = 1 ∨ strayRexW (archPrefixes bytes) = false) ∧
    if e.isStore then
      match e.immediate with
      | some _ => e.size = 8 → d.immediate.getD 0 < 2 ^ 31
      | none => d.register ≠ e.operand.reg →
          e.operand.read (registerValue regs e.operand.reg).toNat =
            (registerValue regs d.register).toNat % 2 ^ (8 * e.size)
    else if d.register = e.operand.reg then
      e.size < 4 → (registerValue regs e.operand.reg).toNat < 2 ^ (8 * e.size)
    else
      v = (registerValue regs d.register).toNat ∧
        e.operand.insert (registerValue regs e.operand.reg).toNat v =
          (registerValue regs e.operand.reg).toNat

theorem pow_256 (n : ℕ) : 256 ^ n = 2 ^ (8 * n) := by
  rw [show 256 = 2 ^ 8 from rfl, ← pow_mul]

theorem loadValue_lt (s : VmState D) (gpa : UInt64) (size : ℕ) :
    loadValue s gpa size < 2 ^ (8 * size) := by
  have h := leNat_lt ((DeviceBus.read s.devices gpa size).1.take size)
  have hle : ((DeviceBus.read s.devices gpa size).1.take size).length ≤ size :=
    List.length_take_le _ _
  rw [← pow_256]
  exact lt_of_lt_of_le h (Nat.pow_le_pow_right (by omega) hle)

theorem ofNat_inj_of_lt {x y : ℕ} (hx : x < 2 ^ 64) (hy : y < 2 ^ 64) :
    UInt64.ofNat x = UInt64.ofNat y ↔ x = y := by
  constructor
  · intro h
    have := congrArg UInt64.toNat h
    rwa [UInt64.toNat_ofNat', UInt64.toNat_ofNat', Nat.mod_eq_of_lt hx, Nat.mod_eq_of_lt hy] at this
  · intro h
    rw [h]

theorem ofNat_eq_iff_of_lt {x : ℕ} {r : UInt64} (hx : x < 2 ^ 64) :
    UInt64.ofNat x = r ↔ x = r.toNat := by
  rw [← UInt64.ofNat_toNat (x := r), ofNat_inj_of_lt hx r.toNat_lt, UInt64.ofNat_toNat]

/-- The bytes of a store are the architecture's. -/
theorem store_bytes_iff {bytes : List UInt8} {d : DecodedMmio} {e : ArchMov} {regs : StandardRegs}
    {v : ℕ} (hd : Decodes bytes d e) (hstore : e.isStore = true) :
    leBytes d.size (match d.immediate with
        | some imm => (UInt64.ofNat imm).toNat
        | none => (registerValue regs d.register).toNat) = archStoreBytes regs e ↔
      Faithful bytes regs d e v := by
  unfold Faithful archStoreBytes
  rw [← hd.size_iff, if_pos hstore]
  by_cases hsize : d.size = e.size
  · rw [hsize, leBytes_inj]
    simp only [true_and]
    cases himm : e.immediate with
    | some i =>
      obtain ⟨-, imm, hdi, hrest⟩ := hd.imm_some i himm
      obtain ⟨-, hlt, rfl⟩ := hrest hsize
      have hlt64 : imm < 2 ^ 64 :=
        calc imm < 256 ^ min e.size 4 := hlt
          _ ≤ 256 ^ 4 := Nat.pow_le_pow_right (by omega) (min_le_right _ _)
          _ ≤ 2 ^ 64 := by norm_num
      simp only [hdi, UInt64.toNat_ofNat', Nat.mod_eq_of_lt hlt64, Option.getD_some]
      exact mod_eq_signExtend_mod_iff hd.size_cases hlt
    | none =>
      simp only [(hd.imm_none himm).1]
      have hread := e.operand.read_lt (registerValue regs e.operand.reg).toNat
        (by rw [hd.operand_size]; exact hd.high)
      rw [hd.operand_size] at hread
      rw [pow_256, Nat.mod_eq_of_lt hread]
      by_cases hreg : d.register = e.operand.reg
      · have hlow := hd.low hreg
        rw [hreg]
        simp only [ne_eq, not_true_eq_false, false_implies, iff_true]
        rw [hlow]
        simp [Operand.read]
      · simp only [ne_eq, hreg, not_false_eq_true, true_implies]
        exact eq_comm
  · -- the two stores do not even have the same width
    refine ⟨fun h => absurd ?_ hsize, fun h => absurd h.1 hsize⟩
    simpa using congrArg List.length h

/-- The registers after a load are the architecture's. -/
theorem load_regs_iff {bytes : List UInt8} {d : DecodedMmio} {e : ArchMov} {regs : StandardRegs}
    {v : ℕ} (hd : Decodes bytes d e) (hload : e.isStore = false) (hsize : d.size = e.size)
    (hv : v < 2 ^ (8 * e.size)) :
    ({ setRegister regs d.register (UInt64.ofNat v) with
        rip := regs.rip + UInt64.ofNat d.instructionLen } : StandardRegs) = archLoad regs e v ↔
      Faithful bytes regs d e v := by
  have himm : e.immediate = none := by
    cases h : e.immediate with
    | none => rfl
    | some i =>
      rw [(hd.imm_some i h).1] at hload
      cases hload
  have hv64 : v < 2 ^ 64 :=
    lt_of_lt_of_le hv (Nat.pow_le_pow_right (by omega) (by have := hd.size_cases; omega))
  have hins := e.operand.insert_lt v (registerValue regs e.operand.reg).toNat_lt
    (by rw [hd.operand_size]; exact hd.size_cases)
  unfold Faithful archLoad
  rw [← hd.size_iff, hload, (hd.imm_none himm).2,
    setRegister_eq_iff regs hd.register_lt hd.operand_lt]
  simp only [hsize, true_and, Bool.false_eq_true, if_false]
  split_ifs with hreg
  · rw [ofNat_inj_of_lt hv64 hins, hd.low hreg]
    exact eq_comm.trans (insert_low_eq_iff hd.size_cases hv)
  · rw [ofNat_eq_iff_of_lt hv64, ofNat_eq_iff_of_lt hins]

/-- **Emulated moves against the architecture.**  Every accepted instruction is a `MOV`, and
whenever the run loop handles its exit without an error, the device and the registers are as the
architecture prescribes exactly on the faithful inputs. -/
theorem handleMmio_prescribed_iff (mmio : MmioExit) (s s' : VmState D) (d : DecodedMmio)
    (hdecode : decodeMmioInstruction
      (mmio.instructionBytes.toList.take mmio.instructionByteCount.toNat) = some d) :
    ∃ e, archMov (mmio.instructionBytes.toList.take mmio.instructionByteCount.toNat) = some e ∧
      (mmio.isWrite = e.isStore → handleMmio mmio s = (.ok (), s') →
        (Prescribed e mmio.gpa s s' ↔
          Faithful (mmio.instructionBytes.toList.take mmio.instructionByteCount.toNat)
            s.vcpu.regs d e (loadValue s mmio.gpa e.size))) := by
  have hlen : (mmio.instructionBytes.toList.take mmio.instructionByteCount.toNat).length ≤ 16 := by
    rw [List.length_take, Vector.length_toList]
    exact min_le_right _ _
  obtain ⟨e, he, hd⟩ := decodes hlen hdecode
  refine ⟨e, he, fun hdir hok => ?_⟩
  unfold handleMmio at hok
  simp only [hdecode] at hok
  unfold Prescribed
  cases hstore : e.isStore with
  | true =>
    rw [hdir, hstore, if_pos rfl] at hok
    obtain ⟨hacc, hregs⟩ := handleMmioWrite_eq_ok hd.size_le hok
    rw [if_pos rfl, hacc, hregs, ← store_bytes_iff hd hstore]
    constructor
    · rintro ⟨h, -⟩
      simpa using h
    · intro h
      refine ⟨by rw [h], ?_⟩
      -- equal bytes have equal width, and then the lengths agree too
      have hsize : d.size = e.size := by simpa [archStoreBytes] using congrArg List.length h
      have hlen : d.instructionLen = e.len := by
        cases himm : e.immediate with
        | none => exact (hd.imm_none himm).2
        | some i =>
          obtain ⟨-, _, -, hrest⟩ := hd.imm_some i himm
          exact (hrest hsize).1
      rw [hlen]
  | false =>
    rw [hdir, hstore, if_neg (by simp)] at hok
    obtain ⟨hacc, hregs⟩ := handleMmioRead_eq_ok hd.size_le hok
    rw [if_neg (by simp), hacc, hregs]
    constructor
    · rintro ⟨h, hr⟩
      have hsize : d.size = e.size := by simpa using h
      rw [hsize] at hr
      exact (load_regs_iff hd hstore hsize (loadValue_lt _ _ _)).1 hr
    · intro h
      have hsize : d.size = e.size := hd.size_iff.2 h.1
      rw [hsize]
      exact ⟨rfl, (load_regs_iff hd hstore hsize (loadValue_lt _ _ _)).2 h⟩

end Handlers

/-- A vCPU with RAX set, and a device that answers 0x1234. -/
def loadState : VmState ScriptedBus where
  vcpu := { regs := { rax := 0x1122334455667788 } }
  devices := { data := [0x34, 0x12, 0, 0] }

/-- `mov eax, [rax]`. -/
def movEax : MmioExit := exitOf false #v[0x8B, 0x00, 0, 0, 0, 0, 0, 0, 0, 0, 0, 0, 0, 0, 0, 0] 2

/-- `mov ax, [rax]`. -/
def movAx : MmioExit := exitOf false #v[0x66, 0x8B, 0x00, 0, 0, 0, 0, 0, 0, 0, 0, 0, 0, 0, 0, 0] 3

/-- `mov ah, [rax]`. -/
def movAh : MmioExit := exitOf false #v[0x8A, 0x20, 0, 0, 0, 0, 0, 0, 0, 0, 0, 0, 0, 0, 0, 0] 2

/-- `mov qword [rax], -1`. -/
def movImm : MmioExit :=
  exitOf true #v[0x48, 0xC7, 0x00, 0xFF, 0xFF, 0xFF, 0xFF, 0, 0, 0, 0, 0, 0, 0, 0, 0] 7

/-- A 32-bit load is emulated as prescribed. -/
theorem movEax_prescribed : ∃ e, archMov [0x8B, 0x00] = some e ∧
    Prescribed e movEax.gpa loadState (handleMmio movEax loadState).2 := by
  obtain ⟨e, he, h⟩ := handleMmio_prescribed_iff movEax loadState (handleMmio movEax loadState).2
    { register := 0, size := 4, immediate := none, instructionLen := 2 } rfl
  have he' : archMov [0x8B, 0x00] = some e := he
  refine ⟨e, he', (h ?_ rfl).2 ?_⟩
  · cases he'
    rfl
  · cases he'
    exact ⟨Or.inr rfl, fun h => absurd h (by decide)⟩

/-- A 16-bit load clears the rest of RAX, a load of AH replaces RSP, and a 64-bit store of -1 sends
`0x00000000ffffffff`. -/
theorem moves_not_prescribed :
    (∃ e, archMov [0x66, 0x8B, 0x00] = some e ∧
      ¬ Prescribed e movAx.gpa loadState (handleMmio movAx loadState).2) ∧
    (∃ e, archMov [0x8A, 0x20] = some e ∧
      ¬ Prescribed e movAh.gpa loadState (handleMmio movAh loadState).2) ∧
    ∃ e, archMov [0x48, 0xC7, 0x00, 0xFF, 0xFF, 0xFF, 0xFF] = some e ∧
      ¬ Prescribed e movImm.gpa loadState (handleMmio movImm loadState).2 := by
  refine ⟨⟨_, rfl, ?_⟩, ⟨_, rfl, ?_⟩, ⟨_, rfl, ?_⟩⟩
  · decide +kernel
  · decide +kernel
  · decide +kernel

end Hitz.Vmm

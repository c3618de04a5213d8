import Hitz.Lib.X86Operand
import Hitz.Vmm.MmioDecode

/-!
# The grammar of the MMIO decoder

An `Encoding` is a `MOV` as the decoder documents it: prefixes, opcode, ModR/M byte, SIB byte,
displacement and immediate, each with the length that the bytes before it call for.
`decodeMmioInstruction_iff` says that the decoder accepts the inputs that start with an encoding,
and nothing else; it never looks at what comes after.

Each step of the decoder has a lemma that says which bytes it reads (`parsePrefixes_iff`,
`parseSibAndDisp_iff`, `decodeMovRmImm_iff`).
-/

namespace Hitz.Vmm

open Bytes X86

/-- The last REX byte of the prefixes, 0 if there is none. -/
def lastRex (prefixes : List UInt8) : UInt8 := (prefixes.filter isRex).getLast?.getD 0

/-- REX.W of the last REX byte. -/
def rexW (prefixes : List UInt8) : Bool := (lastRex prefixes).toNat / 8 % 2 = 1

/-- REX.R of the last REX byte. -/
def rexR (prefixes : List UInt8) : ℕ := (lastRex prefixes).toNat / 4 % 2

/-- The bytes of displacement that `mod`, `r/m` and the base of the SIB byte call for. -/
def dispBytes (modrm : UInt8) (sib : Option UInt8) : ℕ :=
  if modrm.toNat / 64 = 0 then
    if modrm.toNat % 8 = 5 ∨ sib.any (fun s => s.toNat % 8 = 5) then 4 else 0
  else if modrm.toNat / 64 = 1 then 1
  else if modrm.toNat / 64 = 2 then 4
  else 0

/-- The bytes of immediate. -/
def immBytes (prefixes : List UInt8) (opcode : UInt8) : ℕ :=
  if opcode = 0xC7 then if 0x66 ∈ prefixes ∧ rexW prefixes = false then 2 else 4 else 0

/-- An encoding of the grammar. -/
structure Encoding where
  prefixes : List UInt8
  opcode : UInt8
  modrm : UInt8
  sib : Option UInt8
  disp : List UInt8
  imm : List UInt8
  prefixes_mem : ∀ b ∈ prefixes, b = 0x66 ∨ isRex b = true
  opcode_mem : (0x88 ≤ opcode ∧ opcode ≤ 0x8B) ∨ opcode = 0xC7 ∧ modrm.toNat / 8 % 8 = 0
  sib_isSome : sib.isSome = true ↔ modrm.toNat % 8 = 4 ∧ modrm.toNat / 64 ≠ 3
  disp_length : disp.length = dispBytes modrm sib
  imm_length : imm.length = immBytes prefixes opcode

namespace Encoding

/-- The bytes of an encoding. -/
def bytes (e : Encoding) : List UInt8 :=
  e.prefixes ++ e.opcode :: e.modrm :: (e.sib.toList ++ e.disp ++ e.imm)

/-- What an encoding means. -/
def decoded (e : Encoding) : DecodedMmio where
  register := if e.opcode = 0xC7 then 0 else e.modrm.toNat / 8 % 8 + 8 * rexR e.prefixes
  size := operandBytes (e.opcode = 0x88 ∨ e.opcode = 0x8A) (rexW e.prefixes)
    (e.prefixes.contains 0x66)
  immediate := if e.opcode = 0xC7 then some (leNat e.imm) else none
  instructionLen := e.bytes.length

end Encoding

/-! ### The steps of the decoder -/

/-- Prefixes are skipped, and what they say is noted. -/
theorem parsePrefixes_append {prefixes : List UInt8} (h : ∀ b ∈ prefixes, b = 0x66 ∨ isRex b = true)
    (bs : List UInt8) (pos : ℕ) (p66 : Bool) (rex : UInt8) :
    parsePrefixes (prefixes ++ bs) pos p66 rex =
      parsePrefixes bs (pos + prefixes.length) (p66 || prefixes.contains 0x66)
        ((prefixes.filter isRex).getLast?.getD rex) := by
  induction prefixes generalizing pos p66 rex with
  | nil => simp
  | cons b prefixes ih =>
    have htail : ∀ x ∈ prefixes, x = 0x66 ∨ isRex x = true :=
      fun x hx => h x (List.mem_cons_of_mem _ hx)
    have hpos : pos + 1 + prefixes.length = pos + (b :: prefixes).length := by
      rw [List.length_cons]
      omega
    rw [List.cons_append, parsePrefixes]
    by_cases h66 : b = 0x66
    · subst h66
      rw [if_pos rfl, ih htail, hpos, List.filter_cons_of_neg (by decide)]
      simp
    · have hrex : isRex b = true := (h b (List.mem_cons_self ..)).resolve_left h66
      have hbeq : ((0x66 : UInt8) == b) = false := beq_eq_false_iff_ne.2 (Ne.symm h66)
      rw [if_neg h66, if_pos hrex, ih htail, hpos, List.filter_cons_of_pos hrex,
        List.getLast?_cons, Option.getD_some, List.contains_cons, hbeq, Bool.false_or]

theorem parsePrefixes_stop {b : UInt8} (h66 : b ≠ 0x66) (hrex : isRex b = false) (rest : List UInt8)
    (pos : ℕ) (p66 : Bool) (rex : UInt8) :
    parsePrefixes (b :: rest) pos p66 rex = some (pos, p66, rex) := by
  rw [parsePrefixes, if_neg h66, if_neg (by simp [hrex])]

/-- The prefixes end at the first byte that is none. -/
theorem parsePrefixes_iff {bytes : List UInt8} {pos : ℕ} {p66 : Bool} {rex : UInt8} :
    parsePrefixes bytes 0 false 0 = some (pos, p66, rex) ↔ ∃ prefixes b rest,
      bytes = prefixes ++ b :: rest ∧ (∀ x ∈ prefixes, x = 0x66 ∨ isRex x = true) ∧
      b ≠ 0x66 ∧ isRex b = false ∧ pos = prefixes.length ∧ p66 = prefixes.contains 0x66 ∧
      rex = lastRex prefixes := by
  constructor
  · intro h
    have hsplit := List.takeWhile_append_dropWhile (p := fun b => b == 0x66 || isRex b) (l := bytes)
    have hmem : ∀ x ∈ bytes.takeWhile (fun b => b == 0x66 || isRex b), x = 0x66 ∨ isRex x = true :=
      fun x hx => by simpa using List.mem_takeWhile_imp hx
    rw [← hsplit, parsePrefixes_append hmem] at h
    cases hdrop : bytes.dropWhile (fun b => b == 0x66 || isRex b) with
    | nil =>
      rw [hdrop] at h
      cases h
    | cons b rest =>
      have hb := List.head?_dropWhile_not (fun b => b == 0x66 || isRex b) bytes
      rw [hdrop] at h hb
      obtain ⟨h66, hrex⟩ := Bool.or_eq_false_iff.1 hb
      rw [hdrop] at hsplit
      have h66' : b ≠ 0x66 := ne_of_beq_false h66
      rw [parsePrefixes_stop h66' hrex, Nat.zero_add, Bool.false_or] at h
      cases h
      exact ⟨_, b, rest, hsplit.symm, hmem, h66', hrex, rfl, rfl, rfl⟩
  · rintro ⟨prefixes, b, rest, rfl, hmem, h66, hrex, rfl, rfl, rfl⟩
    rw [parsePrefixes_append hmem, parsePrefixes_stop h66 hrex, Nat.zero_add, Bool.false_or]
    rfl

theorem toNat_div_64_lt (b : UInt8) : b.toNat / 64 < 4 := by
  have := b.toNat_lt
  omega

/-- The decoder's table of displacements is the grammar's. -/
theorem displacementSize_eq (modrm : UInt8) (sib : Option UInt8) :
    displacementSize modrm sib.isSome (sib.getD 0) = dispBytes modrm sib := by
  have hmod := toNat_div_64_lt modrm
  unfold displacementSize dispBytes
  generalize modrm.toNat / 64 = mod at hmod
  cases sib with
  | none => interval_cases mod <;> simp
  | some s =>
    by_cases h₅ : modrm.toNat % 8 = 5 <;> interval_cases mod <;> simp [h₅]

/-- The input holds `n` bytes from `pos` on exactly when they can be read there. -/
theorem room_iff {bytes : List UInt8} {pos n : ℕ} (hpos : pos ≤ bytes.length) :
    ¬ bytes.length < pos + n ↔ ∃ xs : List UInt8, xs.length = n ∧ xs <+: bytes.drop pos := by
  constructor
  · intro h
    refine ⟨(bytes.drop pos).take n, ?_, List.take_prefix _ _⟩
    rw [List.length_take, List.length_drop]
    omega
  · rintro ⟨xs, rfl, hpre⟩
    have hle := hpre.length_le
    rw [List.length_drop] at hle
    omega

/-- The displacement, after the SIB byte. -/
theorem disp_iff {bytes : List UInt8} {modrm : UInt8} {pos pos' : ℕ} (sib : Option UInt8)
    (hpos : pos ≤ bytes.length) :
    (if bytes.length < pos + displacementSize modrm sib.isSome (sib.getD 0) then none
      else some (pos + displacementSize modrm sib.isSome (sib.getD 0))) = some pos' ↔
    ∃ disp : List UInt8, disp.length = dispBytes modrm sib ∧ disp <+: bytes.drop pos ∧
      pos' = pos + disp.length := by
  rw [displacementSize_eq]
  constructor
  · intro h
    split_ifs at h with hlen
    cases h
    obtain ⟨disp, hdisp, hpre⟩ := (room_iff hpos).1 hlen
    exact ⟨disp, hdisp, hpre, by rw [hdisp]⟩
  · rintro ⟨disp, hdisp, hpre, rfl⟩
    rw [if_neg ((room_iff hpos).2 ⟨disp, hdisp, hpre⟩), hdisp]

/-- A SIB byte if there is to be one, and the displacement. -/
theorem parseSibAndDisp_iff {bytes : List UInt8} {modrm : UInt8} {pos pos' : ℕ}
    (hpos : pos ≤ bytes.length) : parseSibAndDisp bytes modrm pos = some pos' ↔
      ∃ (sib : Option UInt8) (disp : List UInt8), sib.isSome = needsSib modrm ∧
        disp.length = dispBytes modrm sib ∧ sib.toList ++ disp <+: bytes.drop pos ∧
        pos' = pos + (sib.toList ++ disp).length := by
  unfold parseSibAndDisp
  cases hs : needsSib modrm with
  | false =>
    simp only [Bool.false_eq_true, if_false, Option.bind_eq_bind, Option.bind_some]
    refine (disp_iff none hpos).trans ?_
    constructor
    · rintro ⟨disp, hlen, hpre, rfl⟩
      exact ⟨none, disp, rfl, hlen, hpre, rfl⟩
    · rintro ⟨sib, disp, hsib, hlen, hpre, rfl⟩
      obtain rfl : sib = none := by simpa using hsib
      exact ⟨disp, hlen, hpre, rfl⟩
  | true =>
    simp only [if_true, Option.bind_eq_bind]
    cases hget : bytes[pos]? with
    | none =>
      -- the SIB byte is missing
      rw [Option.map_none, Option.bind_none]
      refine iff_of_false nofun ?_
      rintro ⟨sib, disp, hsib, -, hpre, -⟩
      obtain ⟨s, rfl⟩ := Option.isSome_iff_exists.1 hsib
      rw [List.drop_eq_nil_of_le (List.getElem?_eq_none_iff.1 hget)] at hpre
      exact absurd hpre.length_le (by simp)
    | some s =>
      obtain ⟨hlt, hs'⟩ := List.getElem?_eq_some_iff.1 hget
      have hdrop : bytes.drop pos = s :: bytes.drop (pos + 1) := by
        rw [List.drop_eq_getElem_cons hlt, hs']
      have hlen' : ∀ disp : List UInt8,
          pos + ((some s).toList ++ disp).length = pos + 1 + disp.length := by
        intro disp
        rw [List.length_append, Option.toList_some, List.length_singleton, Nat.add_assoc]
      rw [Option.map_some, Option.bind_some, hdrop]
      refine (disp_iff (some s) hlt).trans ?_
      constructor
      · rintro ⟨disp, hlen, hpre, rfl⟩
        exact ⟨some s, disp, rfl, hlen, List.cons_prefix_cons.2 ⟨rfl, hpre⟩, (hlen' disp).symm⟩
      · rintro ⟨sib, disp, hsib, hlen, hpre, rfl⟩
        obtain ⟨s', rfl⟩ := Option.isSome_iff_exists.1 hsib
        obtain ⟨heq, htail⟩ := List.cons_prefix_cons.1 hpre
        subst heq
        exact ⟨disp, hlen, htail, hlen' disp⟩

/-- An immediate of 2 or 4 bytes. -/
theorem decodeMovRmImm_iff {bytes : List UInt8} {p66 w : Bool} {modrm : UInt8} {pos : ℕ}
    {d : DecodedMmio} (hpos : pos ≤ bytes.length) :
    decodeMovRmImm bytes p66 w modrm pos = some d ↔ modrm.toNat / 8 % 8 = 0 ∧
      ∃ imm : List UInt8, imm.length = (if p66 && !w then 2 else 4) ∧ imm <+: bytes.drop pos ∧
        d = { register := 0, size := operandSize false w p66, immediate := some (leNat imm)
              instructionLen := (pos + imm.length) % 256 } := by
  unfold decodeMovRmImm
  dsimp only
  generalize (if p66 && !w then 2 else 4) = k
  by_cases hreg : modrm.toNat / 8 % 8 = 0
  · rw [if_neg (not_not.2 hreg)]
    constructor
    · intro h
      split_ifs at h with hlen
      cases h
      obtain ⟨imm, rfl, hpre⟩ := (room_iff hpos).1 hlen
      exact ⟨hreg, imm, rfl, hpre, by rw [← List.prefix_iff_eq_take.1 hpre]⟩
    · rintro ⟨-, imm, rfl, hpre, rfl⟩
      rw [if_neg ((room_iff hpos).2 ⟨imm, rfl, hpre⟩), ← List.prefix_iff_eq_take.1 hpre]
  · rw [if_pos hreg]
    exact iff_of_false nofun fun h => hreg h.1

/-! ### The decoder -/

/-- Opcode, ModR/M byte and the bytes after them. -/
theorem layout {bytes prefixes rest : List UInt8} {opcode modrm : UInt8}
    (h : bytes = prefixes ++ opcode :: modrm :: rest) :
    bytes[prefixes.length]? = some opcode ∧ bytes[prefixes.length + 1]? = some modrm ∧
      bytes.drop (prefixes.length + 2) = rest ∧ prefixes.length + 2 ≤ bytes.length := by
  subst h
  refine ⟨by simp, by simp, ?_, by simp⟩
  rw [← List.drop_drop, List.drop_left]
  rfl

/-- The decoder after the prefixes. -/
theorem decode_of_layout {bytes prefixes rest : List UInt8} {opcode modrm : UInt8}
    (h : bytes = prefixes ++ opcode :: modrm :: rest)
    (hmem : ∀ x ∈ prefixes, x = 0x66 ∨ isRex x = true) (h66 : opcode ≠ 0x66)
    (hrex : isRex opcode = false) :
    decodeMmioInstruction bytes =
      (parseSibAndDisp bytes modrm (prefixes.length + 2)).bind fun pos =>
        if 0x88 ≤ opcode ∧ opcode ≤ 0x8B then
          some (decodeMovRRm opcode (prefixes.contains 0x66) (rexW prefixes)
            (modrm.toNat / 8 % 8 + 8 * rexR prefixes) pos)
        else if opcode = 0xC7 then
          decodeMovRmImm bytes (prefixes.contains 0x66) (rexW prefixes) modrm pos
        else none := by
  obtain ⟨hop, hmod, -, -⟩ := layout h
  have hpre : parsePrefixes bytes 0 false 0 =
      some (prefixes.length, prefixes.contains 0x66, lastRex prefixes) :=
    parsePrefixes_iff.2 ⟨prefixes, opcode, _, h, hmem, h66, hrex, rfl, rfl, rfl⟩
  unfold decodeMmioInstruction
  simp only [hpre, hop, hmod, Option.bind_eq_bind, Option.bind_some]
  rfl

/-- Nothing is accepted without an opcode and a ModR/M byte. -/
theorem exists_layout {bytes : List UInt8} {d : DecodedMmio}
    (h : decodeMmioInstruction bytes = some d) : ∃ prefixes opcode modrm rest,
      bytes = prefixes ++ opcode :: modrm :: rest ∧
      (∀ x ∈ prefixes, x = 0x66 ∨ isRex x = true) ∧ opcode ≠ 0x66 ∧ isRex opcode = false := by
  unfold decodeMmioInstruction at h
  simp only [Option.bind_eq_bind, Option.bind_eq_some_iff] at h
  obtain ⟨⟨pos, p66, rex⟩, hpre, opcode, -, modrm, hmod, -⟩ := h
  obtain ⟨prefixes, b, rest, rfl, hmem, h66, hrex, rfl, -, -⟩ := parsePrefixes_iff.1 hpre
  cases rest with
  | nil =>
    rw [List.getElem?_eq_none (by simp)] at hmod
    cases hmod
  | cons m rest => exact ⟨prefixes, b, m, rest, rfl, hmem, h66, hrex⟩

/-- An opcode of the grammar is no prefix. -/
theorem opcode_stops {opcode : UInt8} (h : (0x88 ≤ opcode ∧ opcode ≤ 0x8B) ∨ opcode = 0xC7) :
    opcode ≠ 0x66 ∧ isRex opcode = false := by
  have hrex : isRex opcode = decide (0x40 ≤ opcode ∧ opcode ≤ 0x4F) := by simp [isRex]
  rw [hrex, decide_eq_false_iff_not]
  simp only [UInt8.le_iff_toNat_le, ne_eq, ← UInt8.toNat_inj, UInt8.reduceToNat] at h ⊢
  omega

/-- The byte opcodes are the even ones. -/
theorem even_opcode_iff {opcode : UInt8} (h : 0x88 ≤ opcode ∧ opcode ≤ 0x8B) :
    opcode.toNat % 2 = 0 ↔ opcode = 0x88 ∨ opcode = 0x8A := by
  simp only [UInt8.le_iff_toNat_le, ← UInt8.toNat_inj, UInt8.reduceToNat] at h ⊢
  omega

theorem opcode_ne_C7 {opcode : UInt8} (h : 0x88 ≤ opcode ∧ opcode ≤ 0x8B) : opcode ≠ 0xC7 := by
  rintro rfl
  exact absurd h (by decide)

/-- A SIB byte is there when the decoder expects one. -/
theorem isSome_eq_needsSib_iff {modrm : UInt8} {sib : Option UInt8} :
    sib.isSome = needsSib modrm ↔
      (sib.isSome = true ↔ modrm.toNat % 8 = 4 ∧ modrm.toNat / 64 ≠ 3) := by
  rw [Bool.eq_iff_iff, needsSib, decide_eq_true_iff]

/-- What a register encoding means. -/
theorem Encoding.decoded_of_mov {e : Encoding} (h : 0x88 ≤ e.opcode ∧ e.opcode ≤ 0x8B) (pos : ℕ) :
    decodeMovRRm e.opcode (e.prefixes.contains 0x66) (rexW e.prefixes)
        (e.modrm.toNat / 8 % 8 + 8 * rexR e.prefixes) pos =
      { e.decoded with instructionLen := pos % 256 } := by
  have hbyte : decide (e.opcode.toNat % 2 = 0) = decide (e.opcode = 0x88 ∨ e.opcode = 0x8A) :=
    decide_eq_decide.2 (even_opcode_iff h)
  rw [decodeMovRRm, decoded, if_neg (opcode_ne_C7 h), if_neg (opcode_ne_C7 h), hbyte]
  rfl

/-- What an immediate encoding means. -/
theorem Encoding.decoded_of_C7 {e : Encoding} (h : e.opcode = 0xC7) (len : ℕ) :
    { register := 0, size := operandSize false (rexW e.prefixes) (e.prefixes.contains 0x66)
      immediate := some (leNat e.imm), instructionLen := len : DecodedMmio } =
      { e.decoded with instructionLen := len } := by
  rw [decoded, if_pos h, if_pos h, h]
  rfl

theorem immBytes_C7 (prefixes : List UInt8) : immBytes prefixes 0xC7 =
    if prefixes.contains 0x66 && !rexW prefixes then 2 else 4 := by
  rw [immBytes, if_pos rfl]
  simp

theorem Encoding.length_bytes (e : Encoding) : e.bytes.length =
    e.prefixes.length + 2 + (e.sib.toList ++ e.disp).length + e.imm.length := by
  simp only [bytes, List.length_append, List.length_cons]
  omega

/-- What is accepted starts with an encoding; the decoder counts the length in a byte. -/
theorem exists_encoding {bytes : List UInt8} {d : DecodedMmio}
    (h : decodeMmioInstruction bytes = some d) : ∃ e : Encoding, e.bytes <+: bytes ∧
      d = { e.decoded with instructionLen := e.bytes.length % 256 } := by
  obtain ⟨prefixes, opcode, modrm, rest, hlay, hmem, h66, hrex⟩ := exists_layout h
  obtain ⟨-, -, hdrop, hle⟩ := layout hlay
  rw [decode_of_layout hlay hmem h66 hrex] at h
  obtain ⟨pos, hsib, htail⟩ := Option.bind_eq_some_iff.1 h
  obtain ⟨sib, disp, hsome, hdisp, hfit, rfl⟩ := (parseSibAndDisp_iff hle).1 hsib
  have hpos : prefixes.length + 2 + (sib.toList ++ disp).length ≤ bytes.length := by
    have := hfit.length_le
    rw [List.length_drop] at this
    omega
  rw [hdrop] at hfit
  obtain ⟨rest', rfl⟩ := hfit
  have hsib' := isSome_eq_needsSib_iff.1 hsome
  by_cases hmov : 0x88 ≤ opcode ∧ opcode ≤ 0x8B
  · rw [if_pos hmov] at htail
    cases htail
    let e : Encoding := { prefixes, opcode, modrm, sib, disp, imm := [], prefixes_mem := hmem
                          opcode_mem := Or.inl hmov, sib_isSome := hsib', disp_length := hdisp
                          imm_length := by rw [immBytes, if_neg (opcode_ne_C7 hmov)]; rfl }
    refine ⟨e, ⟨rest', by simp [hlay, Encoding.bytes, e]⟩, ?_⟩
    rw [e.length_bytes]
    exact e.decoded_of_mov hmov _
  · rw [if_neg hmov] at htail
    split_ifs at htail with hC7
    subst hC7
    obtain ⟨hreg, imm, himm, hfit, rfl⟩ := (decodeMovRmImm_iff hpos).1 htail
    have hdrop' : bytes.drop (prefixes.length + 2 + (sib.toList ++ disp).length) = rest' := by
      rw [← List.drop_drop, hdrop, List.drop_left]
    rw [hdrop'] at hfit
    obtain ⟨rest'', rfl⟩ := hfit
    let e : Encoding := { prefixes, opcode := 0xC7, modrm, sib, disp, imm, prefixes_mem := hmem
                          opcode_mem := Or.inr ⟨rfl, hreg⟩, sib_isSome := hsib'
                          disp_length := hdisp, imm_length := himm.trans (immBytes_C7 _).symm }
    refine ⟨e, ⟨rest'', by simp [hlay, Encoding.bytes, e]⟩, ?_⟩
    rw [e.length_bytes]
    exact e.decoded_of_C7 rfl _

/-- An encoding is accepted, whatever follows it. -/
theorem Encoding.decode_append (e : Encoding) (more : List UInt8) :
    decodeMmioInstruction (e.bytes ++ more) =
      some { e.decoded with instructionLen := e.bytes.length % 256 } := by
  have hlay : e.bytes ++ more =
      e.prefixes ++ e.opcode :: e.modrm :: (e.sib.toList ++ e.disp ++ e.imm ++ more) := by
    simp [bytes]
  obtain ⟨-, -, hdrop, hle⟩ := layout hlay
  obtain ⟨h66, hrex⟩ := opcode_stops (e.opcode_mem.imp_right And.left)
  have hsib : parseSibAndDisp (e.bytes ++ more) e.modrm (e.prefixes.length + 2) =
      some (e.prefixes.length + 2 + (e.sib.toList ++ e.disp).length) := by
    refine (parseSibAndDisp_iff hle).2
      ⟨e.sib, e.disp, isSome_eq_needsSib_iff.2 e.sib_isSome, e.disp_length, ?_, rfl⟩
    rw [hdrop, List.append_assoc]
    exact List.prefix_append _ _
  rw [decode_of_layout hlay e.prefixes_mem h66 hrex, hsib, Option.bind_some]
  rcases e.opcode_mem with hmov | ⟨hC7, hreg⟩
  · have himm : e.imm.length = 0 := by
      rw [e.imm_length, immBytes, if_neg (opcode_ne_C7 hmov)]
    rw [if_pos hmov, e.decoded_of_mov hmov, e.length_bytes, himm]
    rfl
  · have hnot : ¬ (0x88 ≤ e.opcode ∧ e.opcode ≤ 0x8B) := fun h => opcode_ne_C7 h hC7
    have hpos : e.prefixes.length + 2 + (e.sib.toList ++ e.disp).length ≤
        (e.bytes ++ more).length := by
      rw [@List.length_append _ e.bytes, e.length_bytes]
      omega
    rw [if_neg hnot, if_pos hC7, e.length_bytes]
    refine (decodeMovRmImm_iff hpos).2 ⟨hreg, e.imm, ?_, ?_, (e.decoded_of_C7 hC7 _).symm⟩
    · rw [e.imm_length, hC7, immBytes_C7]
    · rw [← List.drop_drop, hdrop, List.append_assoc, List.drop_left]
      exact List.prefix_append _ _

/-- The decoder accepts exactly what starts with an encoding. -/
theorem decodeMmioInstruction_eq_some_iff (bytes : List UInt8) (d : DecodedMmio) :
    decodeMmioInstruction bytes = some d ↔ ∃ e : Encoding, e.bytes <+: bytes ∧
      d = { e.decoded with instructionLen := e.bytes.length % 256 } := by
  refine ⟨exists_encoding, ?_⟩
  rintro ⟨e, ⟨more, rfl⟩, rfl⟩
  exact e.decode_append more

/-- Below 256 bytes the length fits. -/
theorem decode_iff_of_lt {bytes : List UInt8} (hlen : bytes.length < 256) {d : DecodedMmio} :
    decodeMmioInstruction bytes = some d ↔ ∃ e : Encoding, e.bytes <+: bytes ∧ d = e.decoded := by
  rw [decodeMmioInstruction_eq_some_iff]
  refine exists_congr fun e => and_congr_right fun he => ?_
  rw [Nat.mod_eq_of_lt (lt_of_le_of_lt he.length_le hlen)]
  rfl

/-- **The decoder accepts its grammar.**  An input of less than 256 bytes is accepted if and only if
it starts with an encoding; the result is what this encoding means, and stays the same whatever
follows. -/
theorem decodeMmioInstruction_iff (bytes : List UInt8) (hlen : bytes.length < 256)
    (d : DecodedMmio) :
    (decodeMmioInstruction bytes = some d ↔ ∃ e : Encoding, e.bytes <+: bytes ∧ d = e.decoded) ∧
    (decodeMmioInstruction bytes = some d →
      d.instructionLen ≤ bytes.length ∧ ∀ more, decodeMmioInstruction (bytes ++ more) = some d) := by
  refine ⟨decode_iff_of_lt hlen, fun h => ?_⟩
  obtain ⟨e, he, rfl⟩ := (decode_iff_of_lt hlen).1 h
  refine ⟨he.length_le, fun more => ?_⟩
  rw [decodeMmioInstruction_eq_some_iff]
  refine ⟨e, he.trans (List.prefix_append _ _), ?_⟩
  rw [Nat.mod_eq_of_lt (lt_of_le_of_lt he.length_le hlen)]
  rfl

/-- `mov [r8 + disp32], imm16` and a byte that follows it: a REX byte behind a `0x66`, a SIB byte
and a displacement. -/
theorem decode_movImm16 : [0x66, 0x41, 0xC7, 0x84, 0x20, 1, 0, 0, 0, 0x34, 0x12, 0x90].length < 256 ∧
    ∃ e : Encoding,
      e.bytes <+: [0x66, 0x41, 0xC7, 0x84, 0x20, 1, 0, 0, 0, 0x34, 0x12, 0x90] ∧
        { register := 0, size := 2, immediate := some 0x1234, instructionLen := 11 } =
          e.decoded := by
  refine ⟨by decide, ((decodeMmioInstruction_iff
    [0x66, 0x41, 0xC7, 0x84, 0x20, 1, 0, 0, 0, 0x34, 0x12, 0x90] (by decide) _).1).1 ?_⟩
  decide

end Hitz.Vmm

import Hitz.Net.WintunIo
import Hitz.Lib.CommandLine
import Hitz.Lib.Numeral
import Hitz.Lib.Words

/-!
# Which address texts are read (`parse_mac` and `parse_cidr` in `hitz-net/src/ethernet.rs`)

The documented formats are `AA:BB:CC:DD:EE:FF` and `A.B.C.D/prefix`.  A format is a shape around
numerals: `MacText` and `CidrText` are these shapes for any kind of numeral, so that the documented
texts (`HexPair`, `Decimal`) and the ones that the integer parsers of the standard library let
through (`Signed`) differ in nothing but the numerals.

`parseMac_eq_ok_iff` and `parseCidr_eq_ok_iff` say what is read; `address_parsers_exact_iff` says
for which strings this is the documented format.
-/

namespace Hitz.Net

open Words
open Numeral hiding hexDigit

/-- `Display` of `MacAddress`: `{:02x}` between colons. -/
def displayMac (mac : Vector UInt8 6) : List Char :=
  [':'].intercalate (mac.toList.map fun b =>
    [Nat.digitChar (b.toNat / 16), Nat.digitChar (b.toNat % 16)])

/-- An address with its prefix length, in canonical form. -/
def displayCidr (ip : Vector UInt8 4) (length : UInt8) : List Char :=
  ['.'].intercalate (ip.toList.map fun b => Nat.toDigits 10 b.toNat) ++
    '/' :: Nat.toDigits 10 length.toNat

/-- Six numerals between colons that denote the bytes of `mac`. -/
def MacText (numeral : List Char → ℕ → Prop) (text : List Char) (mac : Vector UInt8 6) : Prop :=
  ∃ parts, text = [':'].intercalate parts ∧
    List.Forall₂ (fun part b => numeral part b.toNat) parts mac.toList

/-- Four numerals between dots that denote `ip`, a slash, and the numeral of a prefix length. -/
def CidrText (numeral : List Char → ℕ → Prop) (text : List Char) (ip : Vector UInt8 4)
    (length : UInt8) : Prop :=
  ∃ octets lengthStr, text = ['.'].intercalate octets ++ '/' :: lengthStr ∧
    List.Forall₂ (fun octet b => numeral octet b.toNat) octets ip.toList ∧
    numeral lengthStr length.toNat ∧ length ≤ 32

/-- `parse_mac` reads the string as documented. -/
structure MacExact (s : String) : Prop where
  accepts : ∀ mac, parseMac s = .ok mac ↔ MacText HexPair s.toList mac
  prints : ∀ mac, parseMac s = .ok mac → s.toList.map Char.toLower = displayMac mac

/-- `parse_cidr` reads the string as documented. -/
structure CidrExact (s : String) : Prop where
  accepts : ∀ ip length, parseCidr s = .ok (ip, length) ↔ CidrText Decimal s.toList ip length
  prints : ∀ ip length, parseCidr s = .ok (ip, length) → s.toList = displayCidr ip length

/-- If the string is six hexadecimal numbers between colons, then each has two characters and no
sign. -/
def MacPlain (s : String) : Prop :=
  ∀ mac, s.utf8ByteSize ≤ 17 → MacText (Signed Numeral.hexDigit 16) s.toList mac →
    ∀ part ∈ s.toList.splitOn ':', part.length = 2 ∧ '+' ∉ part

/-- If the string is four numbers between dots, a slash and a prefix length, then all five are
written without sign and superfluous leading zeros. -/
def CidrPlain (s : String) : Prop :=
  ∀ ip length, s.utf8ByteSize ≤ 18 → CidrText (Signed decDigit 10) s.toList ip length →
    (∀ octet ∈ (s.toList.takeWhile (· ≠ '/')).splitOn '.', PlainDecimal octet) ∧
      PlainDecimal ((s.toList.dropWhile (· ≠ '/')).drop 1)

/-! ### The integer parsers -/

theorem checked_eq_ok_iff {ε : Type} {e : ε} {value n : ℕ} {x : Except ε ℕ} :
    (if 255 < value then throw e else x) = .ok n ↔ value ≤ 255 ∧ x = .ok n := by
  by_cases h : 255 < value
  · rw [if_pos h]
    constructor
    · rintro ⟨⟩
    · exact fun h' => absurd h'.1 (not_le.2 h)
  · rw [if_neg h]
    exact (and_iff_right (not_lt.1 h)).symm

theorem parseDigits_eq_ok_iff {cs : List Char} {acc n : ℕ} (hacc : acc ≤ 255) :
    parseDigits cs acc = .ok n ↔ valueFrom decDigit 10 cs acc = some n ∧ n ≤ 255 := by
  refine reader_iff (by decide) (fun acc => rfl) ?_ hacc
  intro c cs acc n
  rw [parseDigits, decDigit]
  by_cases hc : c.isDigit = true
  · rw [if_pos hc, if_pos hc]
    simp only [Option.some.injEq, exists_eq_left']
    exact checked_eq_ok_iff
  · simp [hc, throw, throwThe, MonadExceptOf.throw]

theorem parseHexDigits_eq_ok_iff {cs : List Char} {acc n : ℕ} (hacc : acc ≤ 255) :
    parseHexDigits cs acc = .ok n ↔
      valueFrom Numeral.hexDigit 16 cs acc = some n ∧ n ≤ 255 := by
  refine reader_iff (by decide) (fun acc => rfl) ?_ hacc
  intro c cs acc n
  rw [parseHexDigits]
  have hdigit : hexDigit c = Numeral.hexDigit c := rfl
  cases hc : Numeral.hexDigit c with
  | none => simp [hdigit, hc, throw, throwThe, MonadExceptOf.throw]
  | some d =>
    rw [hdigit, hc]
    simp only [Option.some.injEq, exists_eq_left']
    exact checked_eq_ok_iff

section Byte

variable {digit : Char → Option ℕ} {base : ℕ} {read : List Char → ℕ → Except String ℕ}

theorem map_ofNat_eq_ok_iff {cs : List Char} {b : UInt8}
    (hread : ∀ {n}, read cs 0 = .ok n ↔ valueFrom digit base cs 0 = some n ∧ n ≤ 255) :
    UInt8.ofNat <$> read cs 0 = .ok b ↔ valueFrom digit base cs 0 = some b.toNat := by
  constructor
  · intro h
    cases hn : read cs 0 with
    | error e =>
      rw [hn] at h
      cases h
    | ok n =>
      rw [hn] at h
      obtain ⟨hval, hle⟩ := hread.1 hn
      have hb : UInt8.ofNat n = b := Except.ok.inj h
      rw [← hb, UInt8.toNat_ofNat', Nat.mod_eq_of_lt (by omega), hval]
  · intro h
    rw [hread.2 ⟨h, Nat.le_of_lt_succ b.toNat_lt⟩]
    exact congrArg Except.ok UInt8.ofNat_toNat

/-- The empty string and a sign alone are refused, and else what is after the sign is read. -/
theorem parseSigned_eq_ok_iff (hdigit : digit '+' = none)
    (hread : ∀ {cs n}, read cs 0 = .ok n ↔ valueFrom digit base cs 0 = some n ∧ n ≤ 255)
    {s : List Char} {b : UInt8} : parseSigned read s = .ok b ↔ Signed digit base s b.toNat := by
  rw [signed_iff hdigit]
  unfold parseSigned
  split
  · simp [value, throw, throwThe, MonadExceptOf.throw]
  · simp [value, throw, throwThe, MonadExceptOf.throw]
  · rename_i cs hcs
    rw [map_ofNat_eq_ok_iff hread, List.head?_cons, if_pos rfl, List.tail_cons, value, if_neg hcs]
  · rename_i hnil hsign hplus
    have hhead : s.head? ≠ some '+' := by
      intro h
      obtain ⟨cs, rfl⟩ := List.head?_eq_some_iff.1 h
      cases cs with
      | nil => exact hsign rfl
      | cons c cs => exact hplus _ rfl
    rw [map_ofNat_eq_ok_iff hread, if_neg hhead, value, if_neg hnil]

end Byte

/-- `str::parse::<u8>` reads the numeral of a byte, with an optional plus sign. -/
theorem parseU8_eq_ok_iff {s : List Char} {b : UInt8} :
    parseU8 s = .ok b ↔ Signed decDigit 10 s b.toNat := by
  rw [parseU8_eq]
  exact parseSigned_eq_ok_iff rfl (parseDigits_eq_ok_iff (by decide))

theorem parseHexU8_eq_ok_iff {s : List Char} {b : UInt8} :
    parseHexU8 s = .ok b ↔ Signed Numeral.hexDigit 16 s b.toNat := by
  rw [parseHexU8_eq]
  exact parseSigned_eq_ok_iff rfl (parseHexDigits_eq_ok_iff (by decide))

/-! ### The parts of an address -/

section Parts

variable {sep : Char} {β : Type} {R : List Char → β → Prop}

theorem bind_eq_ok_iff {ε α β : Type} {x : Except ε α} {f : α → Except ε β} {b : β} :
    x >>= f = .ok b ↔ ∃ a, x = .ok a ∧ f a = .ok b := by
  cases x with
  | error e =>
    constructor
    · rintro ⟨⟩
    · rintro ⟨_, ⟨⟩, -⟩
  | ok a =>
    constructor
    · exact fun h => ⟨a, rfl, h⟩
    · rintro ⟨_, ⟨⟩, h⟩
      exact h

/-- Where no part contains the separator, the parts are the text between the separators. -/
theorem forall₂_splitOn {text : List Char} {bytes : List β} (hbytes : bytes ≠ [])
    (hsep : ∀ {part b}, R part b → sep ∉ part) :
    (∃ parts, text = [sep].intercalate parts ∧ List.Forall₂ R parts bytes) ↔
      List.Forall₂ R (text.splitOn sep) bytes := by
  constructor
  · rintro ⟨parts, rfl, hparts⟩
    rw [List.splitOn_intercalate]
    · exact hparts
    · intro part hpart
      obtain ⟨i, hi, rfl⟩ := List.getElem_of_mem hpart
      exact hsep (List.forall₂_iff_get.1 hparts |>.2 i hi (hparts.length_eq ▸ hi))
    · rintro rfl
      exact hbytes (List.forall₂_nil_left_iff.1 hparts)
  · exact fun h => ⟨_, (List.intercalate_splitOn sep).symm, h⟩

end Parts

theorem nextByte_eq_ok_iff {parse : List Char → Except String UInt8} {missing : String}
    {invalid : List Char → String → String} {parts rest : List (List Char)} {b : UInt8} :
    nextByte parse missing invalid parts = .ok (b, rest) ↔
      ∃ part, parts = part :: rest ∧ parse part = .ok b := by
  cases parts with
  | nil => simp [nextByte, throw, throwThe, MonadExceptOf.throw]
  | cons part parts =>
    rw [nextByte]
    simp only [List.cons.injEq, and_assoc, exists_eq_left']
    cases parse part with
    | error e => simp [throw, throwThe, MonadExceptOf.throw]
    | ok b' => simp [pure, Except.pure, and_comm]

theorem nextOctet_eq_ok_iff {i : ℕ} {parts rest : List (List Char)} {b : UInt8} :
    nextOctet i parts = .ok (b, rest) ↔
      ∃ octet, parts = octet :: rest ∧ Signed decDigit 10 octet b.toNat := by
  simp only [← parseU8_eq_ok_iff]
  rw [nextOctet_eq, nextByte_eq_ok_iff]

theorem nextMacByte_eq_ok_iff {i : ℕ} {parts rest : List (List Char)} {b : UInt8} :
    nextMacByte i parts = .ok (b, rest) ↔
      ∃ part, parts = part :: rest ∧ Signed Numeral.hexDigit 16 part b.toNat := by
  simp only [← parseHexU8_eq_ok_iff]
  rw [nextMacByte_eq, nextByte_eq_ok_iff]

theorem macText_iff {numeral : List Char → ℕ → Prop} {text : List Char} {mac : Vector UInt8 6}
    (hcolon : ∀ {cs n}, numeral cs n → ':' ∉ cs) :
    MacText numeral text mac ↔
      List.Forall₂ (fun part b => numeral part b.toNat) (text.splitOn ':') mac.toList :=
  forall₂_splitOn (by simp) hcolon

/-- `parse_mac` reads numerals with an optional sign, of any length that the string has room for. -/
theorem parseMac_eq_ok_iff {s : String} {mac : Vector UInt8 6} :
    parseMac s = .ok mac ↔
      s.utf8ByteSize ≤ 17 ∧ MacText (Signed Numeral.hexDigit 16) s.toList mac := by
  rw [macText_iff fun h => h.not_mem rfl (by decide), parseMac]
  by_cases hlen : 17 < s.utf8ByteSize
  · rw [if_pos hlen]
    constructor
    · rintro ⟨⟩
    · exact fun h => absurd h.1 (not_le.2 hlen)
  · rw [if_neg hlen, and_iff_right (not_lt.1 hlen)]
    simp only [bind_eq_ok_iff, Prod.exists, nextMacByte_eq_ok_iff, List.splitOn]
    generalize s.toList.splitOnP (· == ':') = parts
    constructor
    · rintro ⟨a, _, ⟨pa, rfl, ha⟩, b, _, ⟨pb, rfl, hb⟩, c, _, ⟨pc, rfl, hc⟩, d, _, ⟨pd, rfl, hd⟩,
        e, _, ⟨pe, rfl, he⟩, f, rest, ⟨pf, rfl, hf⟩, hend⟩
      split_ifs at hend with hrest
      cases hend
      rw [not_not.1 hrest]
      exact .cons ha (.cons hb (.cons hc (.cons hd (.cons he (.cons hf .nil)))))
    · intro h
      obtain ⟨⟨l⟩, hl⟩ := mac
      match l, hl, h with
      | [a, b, c, d, e, f], _, .cons ha (.cons hb (.cons hc (.cons hd (.cons he (.cons hf .nil))))) =>
        exact ⟨a, _, ⟨_, rfl, ha⟩, b, _, ⟨_, rfl, hb⟩, c, _, ⟨_, rfl, hc⟩, d, _, ⟨_, rfl, hd⟩,
          e, _, ⟨_, rfl, he⟩, f, _, ⟨_, rfl, hf⟩, rfl⟩

theorem cidrText_iff {numeral : List Char → ℕ → Prop} {text : List Char} {ip : Vector UInt8 4}
    {length : UInt8} (hdot : ∀ {cs n}, numeral cs n → '.' ∉ cs)
    (hslash : ∀ {cs n}, numeral cs n → '/' ∉ cs) :
    CidrText numeral text ip length ↔ ∃ lengthStr, text.dropWhile (· ≠ '/') = '/' :: lengthStr ∧
      List.Forall₂ (fun octet b => numeral octet b.toNat)
        ((text.takeWhile (· ≠ '/')).splitOn '.') ip.toList ∧
      numeral lengthStr length.toNat ∧ length ≤ 32 := by
  constructor
  · rintro ⟨octets, lengthStr, rfl, hoctets, hlength⟩
    have hmem : '/' ∉ ['.'].intercalate octets := by
      intro h
      obtain h | ⟨octet, hoctet, h⟩ := CommandLine.mem_intercalate h
      · revert h
        decide
      · obtain ⟨i, hi, rfl⟩ := List.getElem_of_mem hoctet
        exact hslash (List.forall₂_iff_get.1 hoctets |>.2 i hi (hoctets.length_eq ▸ hi)) h
    refine ⟨lengthStr, dropWhile_append_cons hmem, ?_, hlength⟩
    rw [takeWhile_append_cons hmem]
    have hne : ip.toList ≠ [] := by simp
    exact (forall₂_splitOn hne hdot).1 ⟨octets, rfl, hoctets⟩
  · rintro ⟨lengthStr, hdrop, hoctets, hlength⟩
    refine ⟨_, lengthStr, ?_, hoctets, hlength⟩
    rw [List.intercalate_splitOn, ← hdrop, List.takeWhile_append_dropWhile]

/-- `parse_cidr` reads numerals with an optional sign, of any length that the string has room
for. -/
theorem parseCidr_eq_ok_iff {s : String} {ip : Vector UInt8 4} {length : UInt8} :
    parseCidr s = .ok (ip, length) ↔
      s.utf8ByteSize ≤ 18 ∧ CidrText (Signed decDigit 10) s.toList ip length := by
  rw [cidrText_iff (fun h => h.not_mem rfl (by decide)) fun h => h.not_mem rfl (by decide),
    parseCidr]
  by_cases hlen : 18 < s.utf8ByteSize
  · rw [if_pos hlen]
    constructor
    · rintro ⟨⟩
    · exact fun h => absurd h.1 (not_le.2 hlen)
  · rw [if_neg hlen, and_iff_right (not_lt.1 hlen)]
    cases hdrop : s.toList.dropWhile (· ≠ '/') with
    | nil =>
      constructor
      · rintro ⟨⟩
      · rintro ⟨_, ⟨⟩, -⟩
    | cons slash lengthStr =>
      obtain rfl := eq_of_dropWhile hdrop
      simp only [bind_eq_ok_iff, Prod.exists, nextOctet_eq_ok_iff, List.splitOn,
        List.cons.injEq, true_and, exists_eq_left']
      generalize (s.toList.takeWhile (· ≠ '/')).splitOnP (· == '.') = parts
      constructor
      · rintro ⟨a, _, ⟨pa, rfl, ha⟩, b, _, ⟨pb, rfl, hb⟩, c, _, ⟨pc, rfl, hc⟩,
          d, rest, ⟨pd, rfl, hd⟩, hend⟩
        split_ifs at hend with hrest
        rw [not_not.1 hrest]
        cases hparse : parseU8 lengthStr with
        | error e =>
          rw [hparse] at hend
          cases hend
        | ok n =>
          rw [hparse] at hend
          dsimp only at hend
          split_ifs at hend with hgt
          cases hend
          exact ⟨.cons ha (.cons hb (.cons hc (.cons hd .nil))), parseU8_eq_ok_iff.1 hparse,
            UInt8.not_lt.1 hgt⟩
      · rintro ⟨h, hlength, hle⟩
        simp only [parseU8_eq_ok_iff.2 hlength, if_neg (UInt8.not_lt.2 hle)]
        obtain ⟨⟨l⟩, hl⟩ := ip
        match l, hl, h with
        | [a, b, c, d], _, .cons ha (.cons hb (.cons hc (.cons hd .nil))) =>
          exact ⟨a, _, ⟨_, rfl, ha⟩, b, _, ⟨_, rfl, hb⟩, c, _, ⟨_, rfl, hc⟩, d, _,
            ⟨_, rfl, hd⟩, rfl⟩

/-! ### The documented formats -/

theorem map_intercalate (f : Char → Char) (sep : Char) (parts : List (List Char)) :
    ([sep].intercalate parts).map f = [f sep].intercalate (parts.map (List.map f)) := by
  induction parts with
  | nil => rfl
  | cons part parts ih =>
    cases parts with
    | nil => simp
    | cons next parts =>
      rw [List.intercalate_cons_cons, List.map_append, List.map_append, ih, List.map_singleton]
      simp only [List.map_cons, List.intercalate_cons_cons]

namespace MacText

variable {text : List Char} {mac : Vector UInt8 6}

theorem signed (h : MacText HexPair text mac) : MacText (Signed Numeral.hexDigit 16) text mac := by
  obtain ⟨parts, rfl, hparts⟩ := h
  exact ⟨parts, rfl, hparts.imp fun _ _ h => h.signed⟩

theorem utf8Len_le (h : MacText HexPair text mac) : String.utf8Len text ≤ 17 := by
  obtain ⟨parts, rfl, hparts⟩ := h
  obtain ⟨⟨l⟩, hl⟩ := mac
  match l, hl, parts, hparts with
  | [_, _, _, _, _, _], _, _, .cons ha (.cons hb (.cons hc (.cons hd (.cons he (.cons hf .nil))))) =>
    simp only [List.intercalate_cons_cons, List.intercalate_singleton, String.utf8Len_append,
      ha.utf8Len, hb.utf8Len, hc.utf8Len, hd.utf8Len, he.utf8Len, hf.utf8Len]
    decide

/-- The canonical form is the text in lower case. -/
theorem toLower (h : MacText HexPair text mac) : text.map Char.toLower = displayMac mac := by
  obtain ⟨parts, rfl, hparts⟩ := h
  have hlower : parts.map (List.map Char.toLower) = mac.toList.map fun b =>
      [Nat.digitChar (b.toNat / 16), Nat.digitChar (b.toNat % 16)] := by
    rw [← List.forall₂_eq_eq_eq, List.forall₂_map_left_iff, List.forall₂_map_right_iff]
    exact hparts.imp fun _ _ h => h.toLower
  rw [map_intercalate, hlower, displayMac]
  rfl

end MacText

namespace CidrText

variable {text : List Char} {ip : Vector UInt8 4} {length : UInt8}

theorem signed (h : CidrText Decimal text ip length) :
    CidrText (Signed decDigit 10) text ip length := by
  obtain ⟨octets, lengthStr, rfl, hoctets, hlength, hle⟩ := h
  exact ⟨octets, lengthStr, rfl, hoctets.imp fun _ _ h => h.signed, hlength.signed, hle⟩

theorem utf8Len_le (h : CidrText Decimal text ip length) : String.utf8Len text ≤ 18 := by
  obtain ⟨octets, lengthStr, rfl, hoctets, hlength, hle⟩ := h
  have hbyte : ∀ {cs : List Char} {b : UInt8}, Decimal cs b.toNat → String.utf8Len cs ≤ 3 := by
    intro cs b h
    have := b.toNat_lt
    exact h.utf8Len_le (by decide) (by omega)
  have hlen : String.utf8Len lengthStr ≤ 2 := by
    have : length.toNat ≤ 32 := UInt8.le_iff_toNat_le.1 hle
    exact hlength.utf8Len_le (by decide) (by omega)
  obtain ⟨⟨l⟩, hl⟩ := ip
  match l, hl, octets, hoctets with
  | [_, _, _, _], _, _, .cons ha (.cons hb (.cons hc (.cons hd .nil))) =>
    have hdot : Char.utf8Size '.' = 1 := rfl
    have hslash : Char.utf8Size '/' = 1 := rfl
    have := hbyte ha
    have := hbyte hb
    have := hbyte hc
    have := hbyte hd
    simp only [List.intercalate_cons_cons, List.intercalate_singleton, String.utf8Len_append,
      String.utf8Len_cons, String.utf8Len_nil, hdot, hslash]
    omega

/-- The text is the canonical form. -/
theorem eq_display (h : CidrText Decimal text ip length) : text = displayCidr ip length := by
  obtain ⟨octets, lengthStr, rfl, hoctets, hlength, -⟩ := h
  have heq : octets = ip.toList.map fun b => Nat.toDigits 10 b.toNat := by
    rw [← List.forall₂_eq_eq_eq, List.forall₂_map_right_iff]
    exact hoctets.imp fun _ _ h => decimal_iff.1 h
  rw [heq, decimal_iff.1 hlength, displayCidr]

end CidrText

theorem utf8Len_le_iff {s : String} {k : ℕ} : s.utf8ByteSize ≤ k ↔ String.utf8Len s.toList ≤ k := by
  rw [String.utf8Len_toList]

/-- `parse_mac` reads a string as documented exactly when all its parts have two digits. -/
theorem macExact_iff {s : String} : MacExact s ↔ MacPlain s := by
  constructor
  · intro h mac hlen htext part hpart
    have hhex := (h.accepts mac).1 (parseMac_eq_ok_iff.2 ⟨hlen, htext⟩)
    rw [macText_iff fun h => h.not_mem rfl] at hhex
    obtain ⟨i, hi, rfl⟩ := List.getElem_of_mem hpart
    have hpair := (List.forall₂_iff_get.1 hhex).2 i hi (hhex.length_eq ▸ hi)
    exact ⟨hpair.length, hpair.not_mem rfl⟩
  · intro h
    have haccepts : ∀ mac, parseMac s = .ok mac ↔ MacText HexPair s.toList mac := by
      intro mac
      rw [parseMac_eq_ok_iff]
      constructor
      · rintro ⟨hlen, htext⟩
        have hplain := h mac hlen htext
        rw [macText_iff fun h => h.not_mem rfl (by decide)] at htext
        rw [macText_iff fun h => h.not_mem rfl]
        refine ((List.forall₂_and_left _ _).2 ⟨hplain, htext⟩).imp ?_
        rintro part b ⟨⟨hlength, hplus⟩, hsigned⟩
        exact hsigned.hexPair hlength hplus
      · exact fun htext => ⟨utf8Len_le_iff.2 htext.utf8Len_le, htext.signed⟩
    exact ⟨haccepts, fun mac hmac => ((haccepts mac).1 hmac).toLower⟩

/-- `parse_cidr` reads a string as documented exactly when its numbers are written plainly. -/
theorem cidrExact_iff {s : String} : CidrExact s ↔ CidrPlain s := by
  constructor
  · intro h ip length hlen htext
    have hdec := (h.accepts ip length).1 (parseCidr_eq_ok_iff.2 ⟨hlen, htext⟩)
    rw [cidrText_iff (fun h => h.not_mem rfl) fun h => h.not_mem rfl] at hdec
    obtain ⟨lengthStr, hdrop, hoctets, hlength, -⟩ := hdec
    constructor
    · intro octet hoctet
      obtain ⟨i, hi, rfl⟩ := List.getElem_of_mem hoctet
      have hdecimal := (List.forall₂_iff_get.1 hoctets).2 i hi (hoctets.length_eq ▸ hi)
      exact hdecimal.plain
    · rw [hdrop]
      exact hlength.plain
  · intro h
    have haccepts : ∀ ip length,
        parseCidr s = .ok (ip, length) ↔ CidrText Decimal s.toList ip length := by
      intro ip length
      rw [parseCidr_eq_ok_iff]
      constructor
      · rintro ⟨hlen, htext⟩
        obtain ⟨hplain, hplainLength⟩ := h ip length hlen htext
        rw [cidrText_iff (fun h => h.not_mem rfl (by decide)) fun h =>
          h.not_mem rfl (by decide)] at htext
        obtain ⟨lengthStr, hdrop, hoctets, hlength, hle⟩ := htext
        rw [hdrop] at hplainLength
        rw [cidrText_iff (fun h => h.not_mem rfl) fun h => h.not_mem rfl]
        refine ⟨lengthStr, hdrop, ?_, hlength.decimal hplainLength, hle⟩
        refine ((List.forall₂_and_left _ _).2 ⟨hplain, hoctets⟩).imp ?_
        rintro octet b ⟨hoctet, hsigned⟩
        exact hsigned.decimal hoctet
      · exact fun htext => ⟨utf8Len_le_iff.2 htext.utf8Len_le, htext.signed⟩
    exact ⟨haccepts, fun ip length hok => ((haccepts ip length).1 hok).eq_display⟩

/-- The parsers accept exactly the documented formats on the strings whose numbers are written
plainly. -/
theorem address_parsers_exact_iff (s : String) :
    (MacExact s ↔ MacPlain s) ∧ (CidrExact s ↔ CidrPlain s) :=
  ⟨macExact_iff, cidrExact_iff⟩

/-- One-digit octets, and numbers with a sign or a leading zero, are read as well. -/
theorem loose_addresses_accepted : (¬ ∀ s, MacExact s) ∧ ¬ ∀ s, CidrExact s := by
  constructor
  · intro h
    have hok : parseMac "1:2:3:4:5:6" = .ok #v[1, 2, 3, 4, 5, 6] := by decide +kernel
    have hprints := (h _).prints _ hok
    revert hprints
    decide +kernel
  · intro h
    have hok : parseCidr "+10.0.0.02/024" = .ok (#v[10, 0, 0, 2], 24) := by decide +kernel
    have hprints := (h _).prints _ _ hok
    revert hprints
    decide +kernel

end Hitz.Net

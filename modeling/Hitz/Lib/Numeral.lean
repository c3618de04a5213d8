import Mathlib

/-!
# Numerals

A numeral is a non-empty string of digits in some base; which characters are digits, and of what
value, is a parameter.

* `value digit b cs`: the number that `cs` denotes;
* `Signed digit b cs n`: `cs` denotes `n` with an optional plus sign in front, as the integer
  parsers of most libraries read it;
* `Decimal cs n`: `cs` is the decimal numeral of `n` without superfluous leading zeros; it is what
  `Nat.toDigits` prints (`decimal_iff`);
* `HexPair cs n`: `cs` is the two-digit hexadecimal numeral of `n`, in letters of either case.
-/

namespace Numeral

section Value

variable {digit : Char → Option ℕ} {b : ℕ}

/-- The value of a string of digits after the value `acc`. -/
def valueFrom (digit : Char → Option ℕ) (b : ℕ) : List Char → ℕ → Option ℕ
  | [], acc => some acc
  | c :: cs, acc => (digit c).bind fun d => valueFrom digit b cs (acc * b + d)

/-- The number that a numeral denotes. -/
def value (digit : Char → Option ℕ) (b : ℕ) (cs : List Char) : Option ℕ :=
  if cs = [] then none else valueFrom digit b cs 0

/-- The number that a numeral with an optional plus sign denotes. -/
def Signed (digit : Char → Option ℕ) (b : ℕ) (cs : List Char) (n : ℕ) : Prop :=
  ∃ ds, (cs = ds ∨ cs = '+' :: ds) ∧ value digit b ds = some n

theorem valueFrom_append (cs ds : List Char) (acc : ℕ) :
    valueFrom digit b (cs ++ ds) acc =
      (valueFrom digit b cs acc).bind fun n => valueFrom digit b ds n := by
  induction cs generalizing acc with
  | nil => rfl
  | cons c cs ih =>
    rw [List.cons_append, valueFrom, valueFrom]
    cases digit c with
    | none => rfl
    | some d => exact ih _

theorem value_concat {cs : List Char} {c : Char} {n : ℕ} (hne : cs ≠ []) :
    value digit b (cs ++ [c]) = some n ↔
      ∃ m d, value digit b cs = some m ∧ digit c = some d ∧ n = m * b + d := by
  rw [value, if_neg (by simp), value, if_neg hne, valueFrom_append, Option.bind_eq_some_iff]
  constructor
  · rintro ⟨m, hm, hc⟩
    obtain ⟨d, hd, hn⟩ := Option.bind_eq_some_iff.1 hc
    exact ⟨m, d, hm, hd, (Option.some.inj hn).symm⟩
  · rintro ⟨m, d, hm, hd, rfl⟩
    exact ⟨m, hm, Option.bind_eq_some_iff.2 ⟨d, hd, rfl⟩⟩

theorem value_singleton (c : Char) : value digit b [c] = digit c := by
  rw [value, if_neg (by simp), valueFrom]
  cases digit c with
  | none => rfl
  | some d => simp [valueFrom]

/-- Further digits do not make a value smaller. -/
theorem le_of_valueFrom (hb : 0 < b) {cs : List Char} {acc n : ℕ}
    (h : valueFrom digit b cs acc = some n) : acc ≤ n := by
  induction cs generalizing acc with
  | nil => exact (Option.some.inj h).le
  | cons c cs ih =>
    obtain ⟨d, -, h⟩ := Option.bind_eq_some_iff.1 h
    calc acc ≤ acc * b := Nat.le_mul_of_pos_right acc hb
      _ ≤ acc * b + d := Nat.le_add_right _ _
      _ ≤ n := ih h

theorem ne_nil_of_value {cs : List Char} {n : ℕ} (h : value digit b cs = some n) : cs ≠ [] := by
  rintro rfl
  cases h

theorem isSome_digit_of_valueFrom {cs : List Char} {acc n : ℕ}
    (h : valueFrom digit b cs acc = some n) : ∀ c ∈ cs, (digit c).isSome = true := by
  induction cs generalizing acc with
  | nil => simp
  | cons c cs ih =>
    obtain ⟨d, hd, h⟩ := Option.bind_eq_some_iff.1 h
    intro x hx
    rcases List.mem_cons.1 hx with rfl | hx
    · rw [hd]
      rfl
    · exact ih h x hx

/-- A numeral consists of digits. -/
theorem isSome_digit {cs : List Char} {n : ℕ} (h : value digit b cs = some n) :
    ∀ c ∈ cs, (digit c).isSome = true := by
  rw [value, if_neg (ne_nil_of_value h)] at h
  exact isSome_digit_of_valueFrom h

/-- What is no digit is in no numeral. -/
theorem not_mem_of_value {cs : List Char} {n : ℕ} {c : Char} (h : value digit b cs = some n)
    (hdigit : digit c = none) : c ∉ cs := by
  intro hc
  have := isSome_digit h c hc
  rw [hdigit] at this
  cases this

/-- Where plus is no digit, a sign is no part of a numeral. -/
theorem signed_iff (hplus : digit '+' = none) {cs : List Char} {n : ℕ} :
    Signed digit b cs n ↔
      value digit b (if cs.head? = some '+' then cs.tail else cs) = some n := by
  constructor
  · rintro ⟨ds, rfl | rfl, h⟩
    · have hhead : cs.head? ≠ some '+' :=
        fun hhead => not_mem_of_value h hplus (List.mem_of_mem_head? hhead)
      rwa [if_neg hhead]
    · exact h
  · intro h
    split_ifs at h with hhead
    · cases cs with
      | nil => cases hhead
      | cons c cs =>
        obtain rfl := Option.some.inj hhead
        exact ⟨cs, Or.inr rfl, h⟩
    · exact ⟨cs, Or.inl rfl, h⟩

/-- With a sign or without, a numeral has only digits after it. -/
theorem Signed.not_mem {cs : List Char} {n : ℕ} {c : Char} (h : Signed digit b cs n)
    (hdigit : digit c = none) (hplus : c ≠ '+') : c ∉ cs := by
  obtain ⟨ds, rfl | rfl, hval⟩ := h
  · exact not_mem_of_value hval hdigit
  · rw [List.mem_cons, not_or]
    exact ⟨hplus, not_mem_of_value hval hdigit⟩

/-- Without a sign it is a numeral. -/
theorem Signed.value_of_head {cs : List Char} {n : ℕ} (h : Signed digit b cs n)
    (hhead : cs.head? ≠ some '+') : value digit b cs = some n := by
  obtain ⟨ds, rfl | rfl, hval⟩ := h
  · exact hval
  · exact absurd rfl hhead

/-- A reader that compares the value with a bound after each digit has compared the number. -/
theorem reader_iff {ε : Type} {read : List Char → ℕ → Except ε ℕ} {max : ℕ} (hb : 0 < b)
    (hnil : ∀ acc, read [] acc = .ok acc)
    (hcons : ∀ c cs acc n, read (c :: cs) acc = .ok n ↔
      ∃ d, digit c = some d ∧ acc * b + d ≤ max ∧ read cs (acc * b + d) = .ok n)
    {cs : List Char} {acc n : ℕ} (hacc : acc ≤ max) :
    read cs acc = .ok n ↔ valueFrom digit b cs acc = some n ∧ n ≤ max := by
  induction cs generalizing acc with
  | nil =>
    rw [hnil, valueFrom, Except.ok.injEq, Option.some.injEq]
    constructor
    · rintro rfl
      exact ⟨rfl, hacc⟩
    · exact And.left
  | cons c cs ih =>
    rw [hcons, valueFrom, Option.bind_eq_some_iff]
    constructor
    · rintro ⟨d, hd, hle, h⟩
      obtain ⟨h, hn⟩ := (ih hle).1 h
      exact ⟨⟨d, hd, h⟩, hn⟩
    · rintro ⟨⟨d, hd, h⟩, hn⟩
      have hle := (le_of_valueFrom hb h).trans hn
      exact ⟨d, hd, hle, (ih hle).2 ⟨h, hn⟩⟩

end Value

/-! ### Decimal and hexadecimal numerals -/

/-- The value of a decimal digit. -/
def decDigit (c : Char) : Option ℕ := if c.isDigit then some (c.toNat - '0'.toNat) else none

/-- The value of a hexadecimal digit of either case. -/
def hexDigit (c : Char) : Option ℕ :=
  if c.isDigit then some (c.toNat - '0'.toNat)
  else if 'a' ≤ c ∧ c ≤ 'f' then some (c.toNat - 'a'.toNat + 10)
  else if 'A' ≤ c ∧ c ≤ 'F' then some (c.toNat - 'A'.toNat + 10)
  else none

/-- The decimal numeral of a number, without superfluous leading zeros. -/
structure Decimal (cs : List Char) (n : ℕ) : Prop where
  value : value decDigit 10 cs = some n
  no_zero : cs.length = 1 ∨ cs.head? ≠ some '0'

/-- A string without a sign and without superfluous leading zeros. -/
def PlainDecimal (cs : List Char) : Prop :=
  cs.head? ≠ some '+' ∧ (cs.length = 1 ∨ cs.head? ≠ some '0')

/-- A two-digit hexadecimal numeral. -/
structure HexPair (cs : List Char) (n : ℕ) : Prop where
  value : value hexDigit 16 cs = some n
  length : cs.length = 2

theorem isDigit_iff {c : Char} : c.isDigit = true ↔ 48 ≤ c.toNat ∧ c.toNat ≤ 57 := by
  rw [Char.isDigit, Bool.and_eq_true, decide_eq_true_eq, decide_eq_true_eq, ge_iff_le,
    UInt32.le_iff_toNat_le, UInt32.le_iff_toNat_le]
  rfl

theorem decDigit_eq_some {c : Char} {d : ℕ} :
    decDigit c = some d ↔ d < 10 ∧ c = Nat.digitChar d := by
  constructor
  · intro h
    unfold decDigit at h
    split_ifs at h with hc
    obtain ⟨hle, hge⟩ := isDigit_iff.1 hc
    have hd : c.toNat - 48 = d := Option.some.inj h
    have hchar : ∀ d < 10, Nat.digitChar d = Char.ofNat (d + 48) := by decide
    refine ⟨by omega, ?_⟩
    rw [hchar d (by omega), ← hd, Nat.sub_add_cancel hle, Char.ofNat_toNat]
  · rintro ⟨hd, rfl⟩
    revert d
    decide

theorem toNat_lt_of_hexDigit {c : Char} {d : ℕ} (h : hexDigit c = some d) : c.toNat < 128 := by
  unfold hexDigit at h
  split_ifs at h with hdigit hlower hupper
  · have := (isDigit_iff.1 hdigit).2
    omega
  · have : c.toNat ≤ 102 := hlower.2
    omega
  · have : c.toNat ≤ 70 := hupper.2
    omega

/-- In lower case a hexadecimal digit is the one that is printed for its value. -/
theorem toLower_of_hexDigit {c : Char} {d : ℕ} (h : hexDigit c = some d) :
    d < 16 ∧ c.toLower = Nat.digitChar d := by
  have hall : ∀ n < 128, ∀ d ∈ hexDigit (Char.ofNat n),
      d < 16 ∧ (Char.ofNat n).toLower = Nat.digitChar d := by decide +kernel
  have := hall c.toNat (toNat_lt_of_hexDigit h) d
  rw [Char.ofNat_toNat] at this
  exact this h

theorem decDigit_digitChar {d : ℕ} (h : d < 10) : decDigit (Nat.digitChar d) = some d :=
  decDigit_eq_some.2 ⟨h, rfl⟩

theorem value_toDigits (n : ℕ) : value decDigit 10 (Nat.toDigits 10 n) = some n := by
  induction n using Nat.strongRecOn with
  | ind n ih =>
    by_cases hn : n < 10
    · rw [Nat.toDigits_of_lt_base hn, value_singleton, decDigit_digitChar hn]
    · rw [Nat.toDigits_of_base_le (by decide) (not_lt.1 hn), value_concat Nat.toDigits_ne_nil]
      refine ⟨n / 10, n % 10, ih (n / 10) (by omega), decDigit_digitChar (by omega), ?_⟩
      omega

theorem head?_toDigits {n : ℕ} (hpos : 0 < n) : (Nat.toDigits 10 n).head? ≠ some '0' := by
  induction n using Nat.strongRecOn with
  | ind n ih =>
    by_cases hn : n < 10
    · rw [Nat.toDigits_of_lt_base hn]
      interval_cases n <;> decide
    · rw [Nat.toDigits_of_base_le (by decide) (not_lt.1 hn),
        List.head?_append_of_ne_nil _ Nat.toDigits_ne_nil]
      exact ih (n / 10) (by omega) (by omega)

/-- Decimal numerals are what is printed. -/
theorem decimal_iff {cs : List Char} {n : ℕ} : Decimal cs n ↔ cs = Nat.toDigits 10 n := by
  constructor
  · rintro ⟨hval, hzero⟩
    induction cs using List.reverseRecOn generalizing n with
    | nil => cases hval
    | append_singleton cs c ih =>
      by_cases hcs : cs = []
      · rw [hcs, List.nil_append] at hval ⊢
        obtain ⟨hn, rfl⟩ := decDigit_eq_some.1 ((value_singleton c).symm.trans hval)
        rw [Nat.toDigits_of_lt_base hn]
      · obtain ⟨m, d, hm, hd, rfl⟩ := (value_concat hcs).1 hval
        obtain ⟨hlt, rfl⟩ := decDigit_eq_some.1 hd
        have hhead : cs.head? ≠ some '0' := by
          rcases hzero with hlen | hhead
          · rw [List.length_append, List.length_singleton, Nat.add_eq_right] at hlen
            exact absurd (List.length_eq_zero_iff.1 hlen) hcs
          · rwa [List.head?_append_of_ne_nil _ hcs] at hhead
        have heq := ih hm (Or.inr hhead)
        have hpos : 0 < m := by
          refine Nat.pos_of_ne_zero ?_
          rintro rfl
          rw [heq, Nat.toDigits_zero] at hhead
          exact hhead rfl
        rw [heq, Nat.mul_comm, ← Nat.toDigits_append_toDigits (by decide) hpos hlt,
          Nat.toDigits_of_lt_base hlt]
  · rintro rfl
    refine ⟨value_toDigits n, ?_⟩
    rcases Nat.eq_zero_or_pos n with rfl | hpos
    · exact Or.inl rfl
    · exact Or.inr (head?_toDigits hpos)

theorem Decimal.signed {cs : List Char} {n : ℕ} (h : Decimal cs n) : Signed decDigit 10 cs n :=
  ⟨cs, Or.inl rfl, h.value⟩

theorem HexPair.signed {cs : List Char} {n : ℕ} (h : HexPair cs n) : Signed hexDigit 16 cs n :=
  ⟨cs, Or.inl rfl, h.value⟩

theorem HexPair.not_mem {cs : List Char} {n : ℕ} {c : Char} (h : HexPair cs n)
    (hdigit : hexDigit c = none) : c ∉ cs :=
  not_mem_of_value h.value hdigit

theorem Decimal.not_mem {cs : List Char} {n : ℕ} {c : Char} (h : Decimal cs n)
    (hdigit : decDigit c = none) : c ∉ cs :=
  not_mem_of_value h.value hdigit

theorem Decimal.plain {cs : List Char} {n : ℕ} (h : Decimal cs n) : PlainDecimal cs :=
  ⟨fun hhead => h.not_mem rfl (List.mem_of_mem_head? hhead), h.no_zero⟩

theorem Signed.decimal {cs : List Char} {n : ℕ} (h : Signed decDigit 10 cs n)
    (hplain : PlainDecimal cs) : Decimal cs n :=
  ⟨h.value_of_head hplain.1, hplain.2⟩

theorem Signed.hexPair {cs : List Char} {n : ℕ} (h : Signed hexDigit 16 cs n)
    (hlen : cs.length = 2) (hplus : '+' ∉ cs) : HexPair cs n :=
  ⟨h.value_of_head fun hhead => hplus (List.mem_of_mem_head? hhead), hlen⟩

/-- In lower case the two digits are what is printed. -/
theorem HexPair.toLower {cs : List Char} {n : ℕ} (h : HexPair cs n) :
    cs.map Char.toLower = [Nat.digitChar (n / 16), Nat.digitChar (n % 16)] := by
  obtain ⟨c, d, rfl⟩ := List.length_eq_two.1 h.length
  have hne : [c] ≠ [] := List.cons_ne_nil c []
  obtain ⟨high, low, hhigh, hlow, rfl⟩ := (value_concat hne).1 h.value
  rw [value_singleton] at hhigh
  obtain ⟨-, hc⟩ := toLower_of_hexDigit hhigh
  obtain ⟨hlt, hd⟩ := toLower_of_hexDigit hlow
  rw [List.map_cons, List.map_singleton, hc, hd, Nat.mul_add_mod_of_lt hlt,
    Nat.mul_comm, Nat.mul_add_div (by decide), Nat.div_eq_of_lt hlt, Nat.add_zero]

/-! ### The size of a numeral -/

theorem utf8Len_eq_length {cs : List Char} (h : ∀ c ∈ cs, c.toNat < 128) :
    String.utf8Len cs = cs.length := by
  induction cs with
  | nil => rfl
  | cons c cs ih =>
    have hc : c.utf8Size = 1 := by
      rw [Char.utf8Size_eq_one_iff, UInt32.le_iff_toNat_le]
      exact Nat.le_of_lt_succ (h c (List.mem_cons_self ..))
    rw [String.utf8Len_cons, ih fun x hx => h x (List.mem_cons_of_mem c hx), hc, List.length_cons]

theorem HexPair.utf8Len {cs : List Char} {n : ℕ} (h : HexPair cs n) : String.utf8Len cs = 2 := by
  rw [utf8Len_eq_length, h.length]
  intro c hc
  obtain ⟨d, hd⟩ := Option.isSome_iff_exists.1 (isSome_digit h.value c hc)
  exact toNat_lt_of_hexDigit hd

/-- A number below `10 ^ k` has at most `k` digits. -/
theorem Decimal.utf8Len_le {cs : List Char} {n k : ℕ} (h : Decimal cs n) (hk : 0 < k)
    (hn : n < 10 ^ k) : String.utf8Len cs ≤ k := by
  rw [utf8Len_eq_length]
  · rw [decimal_iff.1 h]
    exact (Nat.length_toDigits_le_iff (by decide) hk).2 hn
  · intro c hc
    obtain ⟨d, hd⟩ := Option.isSome_iff_exists.1 (isSome_digit h.value c hc)
    obtain ⟨hlt, rfl⟩ := decDigit_eq_some.1 hd
    interval_cases d <;> decide

end Numeral

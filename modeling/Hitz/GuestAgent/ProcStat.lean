import Hitz.Api.Metrics
import Hitz.Lib.Numeral
import Hitz.Lib.Words

/-!
# Process statistics (`parse_proc_pid_stat` in `hitz-guest-agent/src/main.rs`)

A line of `/proc/[pid]/stat` is `pid (comm) state f4 f5 ...`.  The name may hold anything, so it
ends at the last parenthesis of the line.  Fields 14, 15 and 24 are read as numbers; two of them are
added and one is multiplied without a check, which panics in a build with overflow checks where the
result does not fit.

`parseProcPidStat_safeExact_iff`: this is the only thing that goes wrong.
-/

namespace Hitz.GuestAgent

open Api Numeral Words

/-- `char::is_ascii_whitespace`. -/
def isAsciiWhitespace (c : Char) : Bool :=
  c == ' ' || c == '\t' || c == '\n' || c == '\x0c' || c == '\r'

/-- `str::parse::<u64>`. -/
def parseU64 (w : List Char) : Option UInt64 :=
  (value decDigit 10 (if w.head? = some '+' then w.tail else w)).bind fun n =>
    if n < 2 ^ 64 then some (UInt64.ofNat n) else none

/-- What is behind the first byte, `None` where this is in the middle of a character. -/
def skipByte : List Char → Option (List Char)
  | [] => none
  | c :: cs => if c.utf8Size = 1 then some cs else none

/-- What is read from a line. -/
structure StatFields where
  name : List Char
  state : Char
  utime : UInt64
  stime : UInt64
  rssPages : UInt64
  deriving DecidableEq, Repr

/-- `parse_proc_pid_stat`, up to the last field that is read. -/
def statFields (content : List Char) : Option StatFields := do
  let afterOpen ← (content.dropWhile (· ≠ '(')).tail?
  let (name, afterClose) ← splitLast ')' afterOpen
  let remaining ← skipByte afterClose
  let fields := split isAsciiWhitespace remaining
  let state ← fields.head?
  let utime ← fields[11]?.bind parseU64
  let stime ← fields[12]?.bind parseU64
  let rssPages ← fields[21]?.bind parseU64
  pure { name, state := state.head?.getD '?', utime, stime, rssPages }

/-- `a + b`; `none` is an overflow. -/
def addU64 (a b : UInt64) : Option UInt64 :=
  if a.toNat + b.toNat < 2 ^ 64 then some (a + b) else none

/-- `a * b`; `none` is an overflow. -/
def mulU64 (a b : UInt64) : Option UInt64 :=
  if a.toNat * b.toNat < 2 ^ 64 then some (a * b) else none

/-- The floating-point side of `cpu_pct`: zero, and the clamped percentage of the uptime. -/
structure Percent (F : Type) where
  zero : F
  ofTicks : (ticks uptimeTicks : UInt64) → F

variable {F : Type}

/-- `cpu_pct`; `none` is an overflow. -/
def cpuPct (percent : Percent F) (uptimeTicks utime stime : UInt64) : Option F :=
  if uptimeTicks = 0 then some percent.zero
  else (addU64 utime stime).map fun ticks => percent.ofTicks ticks uptimeTicks

/-- `parse_proc_pid_stat`; the outer `none` is an overflow. -/
def parseProcPidStat (percent : Percent F) (uptimeTicks : UInt64) (pid : UInt32)
    (content : String) : Option (Option (ProcMetrics F)) :=
  match statFields content.toList with
  | none => some none
  | some f => do
    let cpuPct ← cpuPct percent uptimeTicks f.utime f.stime
    let rssBytes ← mulU64 f.rssPages 4096
    some (some { pid, name := String.ofList f.name, cpuPct, rssBytes, state := f.state })

/-- A field of a line holds a number. -/
def HoldsNumber (fields : List (List Char)) (i : ℕ) (n : UInt64) : Prop :=
  ∃ w, fields[i]? = some w ∧ Signed decDigit 10 w n.toNat

/-- A line of `/proc/[pid]/stat`.  Only the name may hold a closing parenthesis; `fields` are the
ones from the fourth on, and `ending` is whatever follows. -/
structure StatLine where
  pid : List Char
  comm : List Char
  state : List Char
  fields : List (List Char)
  ending : List Char
  utime : UInt64
  stime : UInt64
  rss : UInt64
  pid_open : '(' ∉ pid
  isWord_state : IsWord isAsciiWhitespace state
  isWord_fields : ∀ w ∈ fields, IsWord isAsciiWhitespace w
  ends : Ends isAsciiWhitespace ending
  state_close : ')' ∉ state
  fields_close : ∀ w ∈ fields, ')' ∉ w
  ending_close : ')' ∉ ending
  field14 : HoldsNumber fields 10 utime
  field15 : HoldsNumber fields 11 stime
  field24 : HoldsNumber fields 20 rss

namespace StatLine

def text (line : StatLine) : List Char :=
  line.pid ++ ' ' :: '(' :: (line.comm ++ ')' :: ' ' ::
    (line.state ++ (line.fields.flatMap (' ' :: ·) ++ line.ending)))

/-- The metrics are those of the line. -/
structure Describes (line : StatLine) (percent : Percent F) (uptimeTicks : UInt64) (pid : UInt32)
    (m : ProcMetrics F) : Prop where
  pid : m.pid = pid
  name : m.name.toList = line.comm
  state : line.state.head? = some m.state
  rssBytes : m.rssBytes.toNat = 4096 * line.rss.toNat
  idle : uptimeTicks = 0 → m.cpuPct = percent.zero
  cpuPct : uptimeTicks ≠ 0 → ∃ ticks : UInt64,
    ticks.toNat = line.utime.toNat + line.stime.toNat ∧
      m.cpuPct = percent.ofTicks ticks uptimeTicks

end StatLine

/-- Nothing overflows, and a stat line is read as what it says. -/
structure SafeExact (percent : Percent F) (uptimeTicks : UInt64) (pid : UInt32)
    (content : String) : Prop where
  safe : parseProcPidStat percent uptimeTicks pid content ≠ none
  exact : ∀ line : StatLine, content.toList = line.text →
    ∃ m, parseProcPidStat percent uptimeTicks pid content = some (some m) ∧
      line.Describes percent uptimeTicks pid m

/-- The text has the shape of a line as far as it is read, with these numbers in fields 14, 15 and
24. -/
def HasNumbers (content : List Char) (utime stime rss : UInt64) : Prop :=
  ∃ before comm blank rest, content = before ++ '(' :: (comm ++ ')' :: blank :: rest) ∧
    '(' ∉ before ∧ ')' ∉ blank :: rest ∧ blank.utf8Size = 1 ∧
    HoldsNumber (split isAsciiWhitespace rest) 11 utime ∧
    HoldsNumber (split isAsciiWhitespace rest) 12 stime ∧
    HoldsNumber (split isAsciiWhitespace rest) 21 rss

/-- The numbers of the text are small enough: the ticks add up, and the pages are at most
`2 ^ 52 - 1`. -/
def Fits (uptimeTicks : UInt64) (content : String) : Prop :=
  ∀ utime stime rss, HasNumbers content.toList utime stime rss →
    (uptimeTicks = 0 ∨ utime.toNat + stime.toNat < 2 ^ 64) ∧ rss.toNat < 2 ^ 52

/-! ### What is read -/

theorem parseU64_eq_some_iff {w : List Char} {n : UInt64} :
    parseU64 w = some n ↔ Signed decDigit 10 w n.toNat := by
  rw [signed_iff rfl, parseU64, Option.bind_eq_some_iff]
  constructor
  · rintro ⟨k, hk, h⟩
    split_ifs at h with hlt
    rw [← Option.some.inj h, UInt64.toNat_ofNat', Nat.mod_eq_of_lt hlt, hk]
  · intro h
    exact ⟨n.toNat, h, by rw [if_pos n.toNat_lt, UInt64.ofNat_toNat]⟩

theorem skipByte_eq_some_iff {cs rest : List Char} :
    skipByte cs = some rest ↔ ∃ c, cs = c :: rest ∧ c.utf8Size = 1 := by
  cases cs with
  | nil => simp [skipByte]
  | cons c cs =>
    rw [skipByte]
    by_cases hc : c.utf8Size = 1
    · simp [hc, eq_comm]
    · simp [hc]

theorem tail?_dropWhile_eq_some_iff {content rest : List Char} :
    (content.dropWhile (· ≠ '(')).tail? = some rest ↔
      ∃ before, content = before ++ '(' :: rest ∧ '(' ∉ before := by
  constructor
  · intro h
    cases hdrop : content.dropWhile (· ≠ '(') with
    | nil =>
      rw [hdrop] at h
      cases h
    | cons c cs =>
      rw [hdrop, List.tail?_cons] at h
      rw [eq_of_dropWhile hdrop, Option.some.inj h] at hdrop
      exact ⟨_, dropWhile_eq_cons_iff.1 ⟨hdrop, rfl⟩⟩
  · rintro ⟨before, hcut⟩
    rw [(dropWhile_eq_cons_iff.2 hcut).1, List.tail?_cons]

/-- The text is cut at its first opening and at its last closing parenthesis. -/
theorem statFields_eq_some_iff {content : List Char} {f : StatFields} :
    statFields content = some f ↔
      ∃ before blank rest, content = before ++ '(' :: (f.name ++ ')' :: blank :: rest) ∧
        '(' ∉ before ∧ ')' ∉ blank :: rest ∧ blank.utf8Size = 1 ∧
        (∃ state, (split isAsciiWhitespace rest).head? = some state ∧
          f.state = state.head?.getD '?') ∧
        HoldsNumber (split isAsciiWhitespace rest) 11 f.utime ∧
        HoldsNumber (split isAsciiWhitespace rest) 12 f.stime ∧
        HoldsNumber (split isAsciiWhitespace rest) 21 f.rssPages := by
  simp only [statFields, Option.bind_eq_bind, Option.bind_eq_some_iff, Prod.exists,
    tail?_dropWhile_eq_some_iff, splitLast_eq_some_iff, skipByte_eq_some_iff,
    parseU64_eq_some_iff]
  constructor
  · rintro ⟨_, ⟨before, rfl, hopen⟩, name, _, ⟨rfl, hclose⟩, rest, ⟨blank, rfl, hblank⟩,
      state, hstate, utime, hutime, stime, hstime, rss, hrss, hf⟩
    rw [← Option.some.inj hf]
    exact ⟨before, blank, rest, rfl, hopen, hclose, hblank, ⟨state, hstate, rfl⟩, hutime, hstime,
      hrss⟩
  · rintro ⟨before, blank, rest, rfl, hopen, hclose, hblank, ⟨state, hstate, hf⟩, hutime, hstime,
      hrss⟩
    refine ⟨_, ⟨before, rfl, hopen⟩, f.name, _, ⟨rfl, hclose⟩, rest, ⟨blank, rfl, hblank⟩,
      state, hstate, f.utime, hutime, f.stime, hstime, f.rssPages, hrss, ?_⟩
    rw [← hf]
    rfl

theorem hasNumbers_iff {content : List Char} {utime stime rss : UInt64} :
    HasNumbers content utime stime rss ↔
      ∃ name state, statFields content = some ⟨name, state, utime, stime, rss⟩ := by
  simp only [statFields_eq_some_iff]
  constructor
  · rintro ⟨before, name, blank, rest, hcontent, hopen, hclose, hblank, hutime, hstime, hrss⟩
    obtain ⟨w, hw, -⟩ := id hutime
    cases hsplit : split isAsciiWhitespace rest with
    | nil =>
      rw [hsplit] at hw
      cases hw
    | cons state fields =>
      exact ⟨name, _, before, blank, rest, hcontent, hopen, hclose, hblank,
        ⟨state, by rw [hsplit, List.head?_cons], rfl⟩, hutime, hstime, hrss⟩
  · rintro ⟨name, state, before, blank, rest, hcontent, hopen, hclose, hblank, -, hnumbers⟩
    exact ⟨before, name, blank, rest, hcontent, hopen, hclose, hblank, hnumbers⟩

/-! ### What is computed -/

theorem cpuPct_eq_none_iff (percent : Percent F) {uptimeTicks utime stime : UInt64} :
    cpuPct percent uptimeTicks utime stime = none ↔
      ¬ (uptimeTicks = 0 ∨ utime.toNat + stime.toNat < 2 ^ 64) := by
  rw [cpuPct, addU64]
  by_cases hidle : uptimeTicks = 0
  · simp [hidle]
  · simp [hidle]

theorem mulU64_page_eq_none_iff {rss : UInt64} : mulU64 rss 4096 = none ↔ ¬ rss.toNat < 2 ^ 52 := by
  have hpage : (4096 : UInt64).toNat = 4096 := rfl
  have hfits : rss.toNat * 4096 < 2 ^ 64 ↔ rss.toNat < 2 ^ 52 := by omega
  rw [mulU64, hpage, ite_eq_right_iff, hfits]
  simp

theorem cpuPct_of_eq_some {percent : Percent F} {uptimeTicks utime stime : UInt64} {pct : F}
    (h : cpuPct percent uptimeTicks utime stime = some pct) :
    (uptimeTicks = 0 → pct = percent.zero) ∧
      (uptimeTicks ≠ 0 → ∃ ticks : UInt64, ticks.toNat = utime.toNat + stime.toNat ∧
        pct = percent.ofTicks ticks uptimeTicks) := by
  rw [cpuPct, addU64] at h
  split_ifs at h with hidle hlt
  · exact ⟨fun _ => (Option.some.inj h).symm, fun hne => absurd hidle hne⟩
  · have hsum : (utime + stime).toNat = utime.toNat + stime.toNat := by
      rw [UInt64.toNat_add, Nat.mod_eq_of_lt hlt]
    exact ⟨fun h0 => absurd h0 hidle, fun _ => ⟨_, hsum, (Option.some.inj h).symm⟩⟩
  · cases h

theorem toNat_of_mulU64_page {rss bytes : UInt64} (h : mulU64 rss 4096 = some bytes) :
    bytes.toNat = 4096 * rss.toNat := by
  rw [mulU64] at h
  split_ifs at h with hlt
  rw [← Option.some.inj h, UInt64.toNat_mul, Nat.mod_eq_of_lt hlt, Nat.mul_comm]
  rfl

/-- The parser fails to answer exactly where the numbers it reads are too large. -/
theorem parseProcPidStat_ne_none_iff (percent : Percent F) {uptimeTicks : UInt64} (pid : UInt32)
    {content : String} :
    parseProcPidStat percent uptimeTicks pid content ≠ none ↔ Fits uptimeTicks content := by
  simp only [Fits, hasNumbers_iff]
  rw [parseProcPidStat]
  cases hfields : statFields content.toList with
  | none => simp
  | some f =>
    obtain ⟨name, state, utime, stime, rss⟩ := f
    have hanswer : (do
        let cpuPct ← cpuPct percent uptimeTicks utime stime
        let rssBytes ← mulU64 rss 4096
        some (some (⟨pid, String.ofList name, cpuPct, rssBytes, state⟩ : ProcMetrics F))) ≠ none ↔
          (uptimeTicks = 0 ∨ utime.toNat + stime.toNat < 2 ^ 64) ∧ rss.toNat < 2 ^ 52 := by
      rw [← not_iff_not, not_and_or, ← cpuPct_eq_none_iff percent,
        ← mulU64_page_eq_none_iff, not_not]
      cases cpuPct percent uptimeTicks utime stime with
      | none => simp
      | some pct =>
        cases mulU64 rss 4096 with
        | none => simp
        | some bytes => simp
    refine hanswer.trans ⟨?_, fun h => h _ _ _ ⟨name, state, rfl⟩⟩
    rintro h utime' stime' rss' ⟨name', state', heq⟩
    cases heq
    exact h

theorem statFields_text (line : StatLine) :
    statFields line.text =
      some ⟨line.comm, line.state.head?.getD '?', line.utime, line.stime, line.rss⟩ := by
  obtain ⟨hends, hsplit⟩ :=
    split_flatMap line.isWord_fields (c := ' ') (by decide) line.ends
  have hwords : split isAsciiWhitespace
      (line.state ++ (line.fields.flatMap (' ' :: ·) ++ line.ending)) =
        line.state :: (line.fields ++ split isAsciiWhitespace line.ending) := by
    rw [split_append line.isWord_state hends, hsplit]
  have hfield : ∀ {i n} {rest : List (List Char)}, HoldsNumber line.fields i n →
      HoldsNumber (line.state :: (line.fields ++ rest)) (i + 1) n := by
    rintro i n rest ⟨w, hw, hn⟩
    have hlt : i < line.fields.length := (List.getElem?_eq_some_iff.1 hw).1
    exact ⟨w, by rw [List.getElem?_cons_succ, List.getElem?_append_left hlt, hw], hn⟩
  refine statFields_eq_some_iff.2 ⟨line.pid ++ [' '], ' ',
    line.state ++ (line.fields.flatMap (' ' :: ·) ++ line.ending), ?_, ?_, ?_, by decide, ?_⟩
  · rw [StatLine.text, List.append_assoc]
    rfl
  · rw [List.mem_append, not_or]
    exact ⟨line.pid_open, by decide⟩
  · simp only [List.mem_cons, List.mem_append, List.mem_flatMap, not_or]
    refine ⟨by decide, line.state_close, ?_, line.ending_close⟩
    rintro ⟨w, hw, hclose⟩
    exact hclose.elim (by decide) (line.fields_close w hw)
  · rw [hwords]
    exact ⟨⟨_, rfl, rfl⟩, hfield line.field14, hfield line.field15, hfield line.field24⟩

/-- Where the parser answers on a line, it answers what the line says. -/
theorem describes_of_ne_none {percent : Percent F} {uptimeTicks : UInt64} {pid : UInt32}
    {content : String} (h : parseProcPidStat percent uptimeTicks pid content ≠ none)
    {line : StatLine} (hline : content.toList = line.text) :
    ∃ m, parseProcPidStat percent uptimeTicks pid content = some (some m) ∧
      line.Describes percent uptimeTicks pid m := by
  rw [parseProcPidStat, hline, statFields_text] at h ⊢
  cases hcpu : cpuPct percent uptimeTicks line.utime line.stime with
  | none => exact absurd (by simp [hcpu]) h
  | some pct =>
    cases hmul : mulU64 line.rss 4096 with
    | none => exact absurd (by simp [hcpu, hmul]) h
    | some bytes =>
      obtain ⟨state, hstate⟩ := Option.isSome_iff_exists.1
        (List.isSome_head?.2 line.isWord_state.1)
      obtain ⟨hidle, hticks⟩ := cpuPct_of_eq_some hcpu
      refine ⟨⟨pid, String.ofList line.comm, pct, bytes, line.state.head?.getD '?'⟩,
        by simp [hcpu, hmul], ?_⟩
      exact
        { pid := rfl
          name := String.toList_ofList
          state := by rw [hstate, Option.getD_some]
          rssBytes := toNat_of_mulU64_page hmul
          idle := hidle
          cpuPct := hticks }

/-- The parser is safe and exact on a text exactly when the numbers it reads are small enough. -/
theorem parseProcPidStat_safeExact_iff (percent : Percent F) (uptimeTicks : UInt64) (pid : UInt32)
    (content : String) :
    SafeExact percent uptimeTicks pid content ↔ Fits uptimeTicks content := by
  rw [← parseProcPidStat_ne_none_iff percent pid]
  exact ⟨fun h => h.safe, fun h => ⟨h, fun _ => describes_of_ne_none h⟩⟩

/-- A line with the largest `utime` and one more tick: the sum overflows. -/
theorem proc_line_overflows : ¬ ∀ (F : Type) (percent : Percent F) (uptimeTicks : UInt64)
    (pid : UInt32) (content : String), SafeExact percent uptimeTicks pid content := by
  intro h
  have hsafe := (h Unit ⟨(), fun _ _ => ()⟩ 100 1
    "1 (a) S 0 0 0 0 0 0 0 0 0 0 18446744073709551615 1 0 0 0 0 0 0 0 0 0").safe
  revert hsafe
  decide +kernel

end Hitz.GuestAgent

import Hitz.GuestAgent.ProcStat

/-!
# Tables of `/proc` (`hitz-guest-agent/src/proc.rs`)

`/proc/diskstats` has a line for each block device, `/proc/net/dev` one for each network interface
below two header lines.  The parsers count columns and drop the lines that they cannot read.

* `BlockDevice`, `Interface`: what the kernel knows, with the columns in their documented order;
* `BlockDevice.Line`, `Interface.Line`: the texts that it may print for them;
* `LinesApart`: each line is read by itself.

`proc_tables_inverted`: the parsers give back the devices and the interfaces other than `lo`.
-/

namespace Hitz.GuestAgent

open Api Numeral Words

/-! ### The parsers -/

/-- `u64::saturating_mul`. -/
def saturatingMul (a b : UInt64) : UInt64 := UInt64.ofNat (min (a.toNat * b.toNat) (2 ^ 64 - 1))

/-- `char::is_whitespace`. -/
def isWhitespace (c : Char) : Bool :=
  9 ≤ c.toNat && c.toNat ≤ 13 || c.toNat == 0x20 || c.toNat == 0x85 || c.toNat == 0xA0 ||
    c.toNat == 0x1680 || 0x2000 ≤ c.toNat && c.toNat ≤ 0x200A || c.toNat == 0x2028 ||
    c.toNat == 0x2029 || c.toNat == 0x202F || c.toNat == 0x205F || c.toNat == 0x3000

/-- A line of `parse_proc_diskstats`. -/
def diskLine (line : List Char) : Option DiskMetrics := do
  let cols := split isAsciiWhitespace line
  let name ← cols[2]?
  let reads ← cols[3]?.bind parseU64
  let _readsMerged ← cols[4]?
  let readSec ← cols[5]?.bind parseU64
  let _msReading ← cols[6]?
  let writes ← cols[7]?.bind parseU64
  let _writesMerged ← cols[8]?
  let writeSec ← cols[9]?.bind parseU64
  pure
    { name := String.ofList name
      readsTotal := reads
      writesTotal := writes
      readBytes := saturatingMul readSec 512
      writeBytes := saturatingMul writeSec 512 }

/-- `parse_proc_diskstats`. -/
def parseProcDiskstats (content : String) : List DiskMetrics :=
  (lines content.toList).filterMap diskLine

/-- A line of `parse_proc_net_dev`. -/
def netLine (line : List Char) : Option NetMetrics := do
  let stats ← (line.dropWhile (· ≠ ':')).tail?
  let iface := trim isWhitespace (line.takeWhile (· ≠ ':'))
  if iface = "lo".toList then none
  else
    let cols := (split isAsciiWhitespace stats).map fun s => (parseU64 s).getD 0
    pure
      { interface := String.ofList iface
        rxBytes := cols[0]?.getD 0
        rxPackets := cols[1]?.getD 0
        rxErrors := cols[2]?.getD 0
        -- five columns are skipped here
        txBytes := cols[8]?.getD 0
        txPackets := cols[9]?.getD 0
        txErrors := cols[10]?.getD 0 }

/-- `parse_proc_net_dev`. -/
def parseProcNetDev (content : String) : List NetMetrics :=
  ((lines content.toList).drop 2).filterMap netLine

/-! ### What the kernel prints -/

/-- A block device. -/
structure BlockDevice where
  major : ℕ
  minor : ℕ
  name : String
  reads : UInt64
  readsMerged : UInt64
  sectorsRead : UInt64
  msReading : UInt64
  writes : UInt64
  writesMerged : UInt64
  sectorsWritten : UInt64
  others : List UInt64
  isWord_name : IsWord isAsciiWhitespace name.toList

/-- A network interface. -/
structure Interface where
  name : String
  rxBytes : UInt64
  rxPackets : UInt64
  rxErrs : UInt64
  rxDrop : UInt64
  rxFifo : UInt64
  rxFrame : UInt64
  rxCompressed : UInt64
  rxMulticast : UInt64
  txBytes : UInt64
  txPackets : UInt64
  txErrs : UInt64
  txDrop : UInt64
  txFifo : UInt64
  txColls : UInt64
  txCarrier : UInt64
  txCompressed : UInt64
  name_blank : ∀ c ∈ name.toList, isWhitespace c = false
  name_colon : ':' ∉ name.toList

/-- A counter, in decimal. -/
def counter (n : UInt64) : List Char := Nat.toDigits 10 n.toNat

namespace BlockDevice

def columns (d : BlockDevice) : List (List Char) :=
  Nat.toDigits 10 d.major :: Nat.toDigits 10 d.minor :: d.name.toList ::
    ([d.reads, d.readsMerged, d.sectorsRead, d.msReading, d.writes, d.writesMerged,
      d.sectorsWritten] ++ d.others).map counter

/-- A line for the device. -/
structure Line (d : BlockDevice) (line : List Char) : Prop where
  shows : Shows isAsciiWhitespace line d.columns
  single : '\n' ∉ line

def metrics (d : BlockDevice) : DiskMetrics where
  name := d.name
  readBytes := UInt64.ofNat (min (512 * d.sectorsRead.toNat) (2 ^ 64 - 1))
  writeBytes := UInt64.ofNat (min (512 * d.sectorsWritten.toNat) (2 ^ 64 - 1))
  readsTotal := d.reads
  writesTotal := d.writes

end BlockDevice

namespace Interface

def columns (n : Interface) : List (List Char) :=
  [n.rxBytes, n.rxPackets, n.rxErrs, n.rxDrop, n.rxFifo, n.rxFrame, n.rxCompressed, n.rxMulticast,
    n.txBytes, n.txPackets, n.txErrs, n.txDrop, n.txFifo, n.txColls, n.txCarrier,
    n.txCompressed].map counter

/-- A line for the interface: its padded name, a colon, and the columns. -/
structure Line (n : Interface) (line : List Char) : Prop where
  cut : ∃ before after stats, line = before ++ (n.name.toList ++ after) ++ ':' :: stats ∧
    (∀ c ∈ before, isAsciiWhitespace c = true) ∧ (∀ c ∈ after, isAsciiWhitespace c = true) ∧
    Shows isAsciiWhitespace stats n.columns
  single : '\n' ∉ line

def metrics (n : Interface) : NetMetrics where
  interface := n.name
  rxBytes := n.rxBytes
  txBytes := n.txBytes
  rxPackets := n.rxPackets
  txPackets := n.txPackets
  rxErrors := n.rxErrs
  txErrors := n.txErrs

end Interface

/-- Below its header a table is read line by line: each line adds a result of its own, or none, and
leaves the others as they are. -/
def LinesApart {α : Type} (parse : String → List α) (header : List (List Char)) : Prop :=
  ∀ line, '\n' ∉ line → ∃ own : Option α, ∀ before after, (∀ l ∈ before, '\n' ∉ l) →
    parse (String.ofList (unlines (header ++ before) ++ after)) =
        parse (String.ofList (unlines (header ++ before))) ++
          parse (String.ofList (unlines header ++ after)) ∧
      parse (String.ofList (unlines (header ++ before) ++ (line ++ '\n' :: after))) =
        parse (String.ofList (unlines (header ++ before))) ++
          (own.toList ++ parse (String.ofList (unlines header ++ after)))

/-! ### Columns -/

theorem isWhitespace_of_ascii {c : Char} (h : isAsciiWhitespace c = true) :
    isWhitespace c = true := by
  simp only [isAsciiWhitespace, Bool.or_eq_true, beq_iff_eq] at h
  obtain (((rfl | rfl) | rfl) | rfl) | rfl := h <;> rfl

theorem isWord_toDigits (n : ℕ) : IsWord isAsciiWhitespace (Nat.toDigits 10 n) := by
  refine ⟨Nat.toDigits_ne_nil, fun c hc => ?_⟩
  have hdigit := isDigit_iff.1 (Nat.isDigit_of_mem_toDigits (by decide) (by decide) hc)
  cases hblank : isAsciiWhitespace c with
  | false => rfl
  | true =>
    simp only [isAsciiWhitespace, Bool.or_eq_true, beq_iff_eq] at hblank
    obtain (((rfl | rfl) | rfl) | rfl) | rfl := hblank <;> exact absurd hdigit (by decide)

@[simp]
theorem parseU64_counter (n : UInt64) : parseU64 (counter n) = some n :=
  parseU64_eq_some_iff.2 (decimal_iff.2 rfl).signed

theorem saturatingMul_sector (n : UInt64) :
    saturatingMul n 512 = UInt64.ofNat (min (512 * n.toNat) (2 ^ 64 - 1)) := by
  have hsector : (512 : UInt64).toNat = 512 := rfl
  rw [saturatingMul, hsector, Nat.mul_comm]

theorem diskLine_eq_some {d : BlockDevice} {line : List Char} (h : d.Line line) :
    diskLine (stripCr line) = some d.metrics := by
  have hcols : split isAsciiWhitespace (stripCr line) = d.columns := by
    rw [split_stripCr rfl, h.shows.split]
  simp [diskLine, hcols, BlockDevice.columns, BlockDevice.metrics, saturatingMul_sector]

theorem netLine_eq {n : Interface} {line : List Char} (h : n.Line line) :
    netLine (stripCr line) = if n.name = "lo" then none else some n.metrics := by
  obtain ⟨before, after, stats, rfl, hbefore, hafter, hstats⟩ := h.cut
  have hcolon : ':' ∉ before ++ (n.name.toList ++ after) := by
    simp only [List.mem_append, not_or]
    exact ⟨fun hc => absurd (hbefore _ hc) (by decide), n.name_colon,
      fun hc => absurd (hafter _ hc) (by decide)⟩
  have hiface : trim isWhitespace (before ++ (n.name.toList ++ after)) = n.name.toList :=
    trim_append (fun c hc => isWhitespace_of_ascii (hbefore c hc)) n.name_blank
      fun c hc => isWhitespace_of_ascii (hafter c hc)
  have hcols : split isAsciiWhitespace (stripCr stats) = n.columns := by
    rw [split_stripCr rfl, hstats.split]
  have hname : n.name.toList = "lo".toList ↔ n.name = "lo" := String.toList_inj
  rw [stripCr_append_cons (by decide), netLine, dropWhile_append_cons hcolon,
    takeWhile_append_cons hcolon, hiface, List.tail?_cons, Option.bind_eq_bind, Option.bind_some]
  simp only [hname, hcols]
  split_ifs with hlo
  · rfl
  · simp [Interface.columns, Interface.metrics]

/-- One blank before each column. -/
def plain (columns : List (List Char)) : List Char := columns.flatMap (' ' :: ·)

theorem newline_not_mem_plain {columns : List (List Char)}
    (h : ∀ w ∈ columns, IsWord isAsciiWhitespace w) : '\n' ∉ plain columns := by
  simp only [plain, List.mem_flatMap, List.mem_cons, not_exists, not_and, not_or]
  exact fun w hw => ⟨by decide, fun hc => absurd ((h w hw).2 _ hc) (by decide)⟩

theorem BlockDevice.line_plain (d : BlockDevice) : d.Line (plain d.columns) := by
  have hwords : ∀ w ∈ d.columns, IsWord isAsciiWhitespace w := by
    simp only [columns, List.mem_cons, List.mem_map]
    rintro w (rfl | rfl | rfl | ⟨n, -, rfl⟩)
    · exact isWord_toDigits _
    · exact isWord_toDigits _
    · exact d.isWord_name
    · exact isWord_toDigits _
  exact ⟨shows_flatMap hwords rfl, newline_not_mem_plain hwords⟩

theorem Interface.line_plain (n : Interface) :
    n.Line (n.name.toList ++ ':' :: plain n.columns) := by
  have hwords : ∀ w ∈ n.columns, IsWord isAsciiWhitespace w := by
    intro w hw
    obtain ⟨k, -, rfl⟩ := List.mem_map.1 hw
    exact isWord_toDigits _
  refine ⟨⟨[], [], plain n.columns, by rw [List.append_nil, List.nil_append], by simp, by simp,
    shows_flatMap hwords rfl⟩, ?_⟩
  rw [List.mem_append, List.mem_cons, not_or, not_or]
  exact ⟨fun hc => absurd (n.name_blank _ hc) (by decide), by decide, newline_not_mem_plain hwords⟩

/-! ### Tables -/

section Rows

variable {α : Type} (row : List Char → Option α) {parse : String → List α}
  {header : List (List Char)}

/-- What is below the header is read line by line, and the rest of the text by itself. -/
theorem rows_append {before : List (List Char)} (hheader : ∀ line ∈ header, '\n' ∉ line)
    (hbefore : ∀ line ∈ before, '\n' ∉ line) (after : List Char) :
    ((lines (unlines (header ++ before) ++ after)).drop header.length).filterMap row =
      before.filterMap (fun line => row (stripCr line)) ++ (lines after).filterMap row := by
  have hlines : ∀ line ∈ header ++ before, '\n' ∉ line := fun line hline =>
    (List.mem_append.1 hline).elim (hheader line) (hbefore line)
  rw [lines_unlines_append hlines, List.map_append, List.append_assoc,
    List.drop_left' (List.length_map _), List.filterMap_append, List.filterMap_map]
  rfl

theorem rows_eq {before : List (List Char)} (hheader : ∀ line ∈ header, '\n' ∉ line)
    (hbefore : ∀ line ∈ before, '\n' ∉ line) :
    ((lines (unlines (header ++ before))).drop header.length).filterMap row =
      before.filterMap fun line => row (stripCr line) := by
  have hrows := rows_append row hheader hbefore []
  rwa [List.append_nil, show lines [] = [] from rfl, List.filterMap_nil, List.append_nil] at hrows

theorem linesApart_of_rows
    (hparse : ∀ cs, parse (String.ofList cs) = ((lines cs).drop header.length).filterMap row)
    (hheader : ∀ line ∈ header, '\n' ∉ line) : LinesApart parse header := by
  intro line hline
  refine ⟨row (stripCr line), fun before after hbefore => ?_⟩
  have hnone : ∀ l ∈ ([] : List (List Char)), '\n' ∉ l := fun l hl => absurd hl List.not_mem_nil
  have hbelow : ∀ cs, parse (String.ofList (unlines header ++ cs)) = (lines cs).filterMap row := by
    intro cs
    have hrows := rows_append row hheader hnone cs
    rwa [List.append_nil, ← hparse] at hrows
  rw [hbelow, hparse, hparse, hparse, rows_append row hheader hbefore, rows_append row hheader hbefore,
    rows_eq row hheader hbefore, lines_append hline]
  refine ⟨rfl, ?_⟩
  cases hrow : row (stripCr line) with
  | none => rw [List.filterMap_cons_none hrow, Option.toList_none, List.nil_append]
  | some own => rw [List.filterMap_cons_some hrow, Option.toList_some, List.singleton_append]

/-- A table with a line for each thing. -/
theorem filterMap_of_forall₂ {β : Type} {Line : β → List Char → Prop} {read : β → Option α}
    (hrow : ∀ x line, Line x line → row (stripCr line) = read x) {xs : List β}
    {ls : List (List Char)} (h : List.Forall₂ Line xs ls) :
    ls.filterMap (fun line => row (stripCr line)) = xs.filterMap read := by
  induction h with
  | nil => rfl
  | cons hline _ ih => rw [List.filterMap_cons, List.filterMap_cons, hrow _ _ hline, ih]

end Rows

theorem forall_newline {β : Type} {Line : β → List Char → Prop} {xs : List β}
    {ls : List (List Char)} (hLine : ∀ x line, Line x line → '\n' ∉ line)
    (h : List.Forall₂ Line xs ls) : ∀ line ∈ ls, '\n' ∉ line := by
  induction h with
  | nil => simp
  | cons hline _ ih => exact List.forall_mem_cons.2 ⟨hLine _ _ hline, ih⟩

theorem parseProcDiskstats_table {devices : List BlockDevice} {ls : List (List Char)}
    (h : List.Forall₂ BlockDevice.Line devices ls) :
    parseProcDiskstats (String.ofList (unlines ls)) = devices.map BlockDevice.metrics := by
  have hrows := rows_eq diskLine (List.forall_mem_nil _)
    (forall_newline (fun _ _ hline => hline.single) h)
  rw [parseProcDiskstats, String.toList_ofList]
  calc
    (lines (unlines ls)).filterMap diskLine
        = ls.filterMap fun line => diskLine (stripCr line) := hrows
    _ = devices.filterMap fun d => some d.metrics :=
      filterMap_of_forall₂ _ (fun _ _ hline => diskLine_eq_some hline) h
    _ = devices.map BlockDevice.metrics := congrFun List.filterMap_eq_map' _

theorem parseProcNetDev_table {interfaces : List Interface} {ls : List (List Char)}
    {header₁ header₂ : List Char} (hheader : ∀ line ∈ [header₁, header₂], '\n' ∉ line)
    (h : List.Forall₂ Interface.Line interfaces ls) :
    parseProcNetDev (String.ofList (unlines (header₁ :: header₂ :: ls))) =
      (interfaces.filter fun n => n.name ≠ "lo").map Interface.metrics := by
  have hrows := rows_eq netLine hheader
    (forall_newline (fun _ _ hline => hline.single) h)
  rw [parseProcNetDev, String.toList_ofList]
  calc
    ((lines (unlines (header₁ :: header₂ :: ls))).drop 2).filterMap netLine
        = ls.filterMap fun line => netLine (stripCr line) := hrows
    _ = interfaces.filterMap fun n => if n.name = "lo" then none else some n.metrics :=
      filterMap_of_forall₂ _ (fun _ _ hline => netLine_eq hline) h
    _ = (interfaces.filter fun n => n.name ≠ "lo").map Interface.metrics := by
      rw [← List.filterMap_eq_map, List.filterMap_filter]
      refine List.filterMap_congr fun n _ => ?_
      by_cases hlo : n.name = "lo" <;> simp [hlo]

/-- **The parsers invert the kernel's tables**, up to the interface `lo`, and read each line by
itself. -/
theorem proc_tables_inverted {devices : List BlockDevice} {interfaces : List Interface}
    {diskLines netLines : List (List Char)} {header₁ header₂ : List Char}
    (hdisks : List.Forall₂ BlockDevice.Line devices diskLines)
    (hnets : List.Forall₂ Interface.Line interfaces netLines)
    (hheader₁ : '\n' ∉ header₁) (hheader₂ : '\n' ∉ header₂) :
    parseProcDiskstats (String.ofList (unlines diskLines)) = devices.map BlockDevice.metrics ∧
      parseProcNetDev (String.ofList (unlines (header₁ :: header₂ :: netLines))) =
        (interfaces.filter fun n => n.name ≠ "lo").map Interface.metrics ∧
      LinesApart parseProcDiskstats [] ∧ LinesApart parseProcNetDev [header₁, header₂] := by
  have hheader : ∀ line ∈ [header₁, header₂], '\n' ∉ line := by
    simp only [List.mem_cons, List.not_mem_nil, or_false]
    rintro line (rfl | rfl)
    · exact hheader₁
    · exact hheader₂
  refine ⟨parseProcDiskstats_table hdisks, parseProcNetDev_table hheader hnets, ?_, ?_⟩
  · refine linesApart_of_rows diskLine (fun cs => ?_) (List.forall_mem_nil _)
    rw [parseProcDiskstats, String.toList_ofList]
    rfl
  · refine linesApart_of_rows netLine (fun cs => ?_) hheader
    rw [parseProcNetDev, String.toList_ofList]
    rfl

/-- A device and two interfaces. -/
theorem fixtures_inverted :
    ∃ (vda : BlockDevice) (lo eth0 : Interface), vda.name = "vda" ∧ lo.name = "lo" ∧
      eth0.name = "eth0" ∧
      parseProcDiskstats (String.ofList (unlines [plain vda.columns])) = [vda.metrics] ∧
      parseProcNetDev (String.ofList (unlines ["Inter-|".toList, " face |".toList,
        lo.name.toList ++ ':' :: plain lo.columns,
        eth0.name.toList ++ ':' :: plain eth0.columns])) = [eth0.metrics] := by
  let vda : BlockDevice :=
    ⟨8, 0, "vda", 100, 0, 800, 20, 50, 0, 400, [10, 0, 30, 30], by decide⟩
  let lo : Interface :=
    ⟨"lo", 1, 1, 0, 0, 0, 0, 0, 0, 1, 1, 0, 0, 0, 0, 0, 0, by simp [isWhitespace], by decide⟩
  let eth0 : Interface :=
    ⟨"eth0", 5000, 40, 0, 0, 0, 0, 0, 0, 2000, 20, 0, 0, 0, 0, 0, 0, by simp [isWhitespace],
      by decide⟩
  obtain ⟨hdisks, hnets, -⟩ := proc_tables_inverted (.cons vda.line_plain .nil)
    (.cons lo.line_plain (.cons eth0.line_plain .nil)) (by decide : '\n' ∉ "Inter-|".toList)
    (by decide : '\n' ∉ " face |".toList)
  exact ⟨vda, lo, eth0, rfl, rfl, rfl, hdisks, hnets⟩

end Hitz.GuestAgent

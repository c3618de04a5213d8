import Hitz.Api.Metrics
import Hitz.Lib.Exposition

/-!
# Prometheus export (`hitz-api/src/prometheus.rs`)

`to_prometheus` writes a `HELP` line, a `TYPE` line and a sample for every number of a snapshot.  It
writes label values as they are, and the two header lines again for every sample of a metric.

The three load averages are samples of one metric, so no text is a valid document; apart from this,
the samples are read back exactly when no name holds a backslash, a quote or a line feed
(`toPrometheus_never_faithful`).
-/

namespace Hitz.Api

open Exposition

/-- The arguments of `metric!`; the value is as it is printed. -/
structure Metric where
  name : String
  kind : String
  help : String
  labels : List (String × String) := []
  value : List Char

namespace Metric

variable (vmId : String) (timestamp : UInt64) (m : Metric)

/-- The labels of the sample: the VM, and the ones that the caller adds. -/
def allLabels : List (List Char × List Char) :=
  (("vm_id", vmId) :: m.labels).map fun l => (l.1.toList, l.2.toList)

def helpLine : List Char := "# HELP ".toList ++ (m.name.toList ++ ' ' :: m.help.toList)

def typeLine : List Char := "# TYPE ".toList ++ (m.name.toList ++ ' ' :: m.kind.toList)

def sampleLine : List Char :=
  m.name.toList ++ '{' :: (writeLabels (m.allLabels vmId) ++ '}' ::
    ' ' :: (m.value ++ ' ' :: Nat.toDigits 10 timestamp.toNat))

/-- `metric!`. -/
def write : List Char :=
  m.helpLine ++ '\n' :: (m.typeLine ++ '\n' :: (m.sampleLine vmId timestamp ++ ['\n']))

/-- The sample that is meant. -/
def sample : Sample where
  name := m.name.toList
  labels := m.allLabels vmId
  value := m.value
  timestamp := some (Nat.toDigits 10 timestamp.toNat)

end Metric

/-- `Display` of a `u64`. -/
def displayU64 (n : UInt64) : List Char := Nat.toDigits 10 n.toNat

/-- `Display` of the floating-point numbers. -/
structure FloatDisplay (F : Type) where
  display : F → List Char
  isWord : ∀ x, IsWord (display x)

section

variable {F : Type} (floats : FloatDisplay F)

def utilisationMetrics (cpu : CpuMetrics F) : List Metric :=
  { name := "hitz_cpu_total_pct", kind := "gauge", help := "Overall CPU utilisation percentage"
    value := floats.display cpu.totalPct } ::
  cpu.perCore.zipIdx.map fun (corePct, i) =>
    { name := "hitz_cpu_core_pct", kind := "gauge", help := "Per-core CPU utilisation percentage"
      labels := [("core", toString i)], value := floats.display corePct }

def loadAvgMetrics (cpu : CpuMetrics F) : List Metric :=
  [{ name := "hitz_cpu_load_avg", kind := "gauge", help := "System load average over 1 minute"
     labels := [("window", "1m")], value := floats.display cpu.loadAvg[0] },
   { name := "hitz_cpu_load_avg", kind := "gauge", help := "System load average over 5 minutes"
     labels := [("window", "5m")], value := floats.display cpu.loadAvg[1] },
   { name := "hitz_cpu_load_avg", kind := "gauge", help := "System load average over 15 minutes"
     labels := [("window", "15m")], value := floats.display cpu.loadAvg[2] }]

def memoryMetrics (memory : MemoryMetrics) : List Metric :=
  [{ name := "hitz_memory_total_bytes", kind := "gauge", help := "Total physical memory in bytes"
     value := displayU64 memory.totalBytes },
   { name := "hitz_memory_used_bytes", kind := "gauge", help := "Memory in use in bytes"
     value := displayU64 memory.usedBytes },
   { name := "hitz_memory_free_bytes", kind := "gauge", help := "Free memory in bytes"
     value := displayU64 memory.freeBytes },
   { name := "hitz_memory_buffers_bytes", kind := "gauge", help := "Memory used for buffers in bytes"
     value := displayU64 memory.buffersBytes },
   { name := "hitz_memory_cached_bytes", kind := "gauge"
     help := "Memory used for page cache in bytes", value := displayU64 memory.cachedBytes },
   { name := "hitz_memory_swap_total_bytes", kind := "gauge", help := "Total swap space in bytes"
     value := displayU64 memory.swapTotal },
   { name := "hitz_memory_swap_used_bytes", kind := "gauge", help := "Swap space in use in bytes"
     value := displayU64 memory.swapUsed }]

def diskMetrics (disk : DiskMetrics) : List Metric :=
  [{ name := "hitz_disk_reads_total", kind := "counter", help := "Total completed read operations"
     labels := [("device", disk.name)], value := displayU64 disk.readsTotal },
   { name := "hitz_disk_writes_total", kind := "counter", help := "Total completed write operations"
     labels := [("device", disk.name)], value := displayU64 disk.writesTotal },
   { name := "hitz_disk_read_bytes_total", kind := "counter", help := "Total bytes read"
     labels := [("device", disk.name)], value := displayU64 disk.readBytes },
   { name := "hitz_disk_write_bytes_total", kind := "counter", help := "Total bytes written"
     labels := [("device", disk.name)], value := displayU64 disk.writeBytes }]

def netMetrics (net : NetMetrics) : List Metric :=
  [{ name := "hitz_net_rx_bytes_total", kind := "counter", help := "Total bytes received"
     labels := [("interface", net.interface)], value := displayU64 net.rxBytes },
   { name := "hitz_net_tx_bytes_total", kind := "counter", help := "Total bytes transmitted"
     labels := [("interface", net.interface)], value := displayU64 net.txBytes },
   { name := "hitz_net_rx_packets_total", kind := "counter", help := "Total packets received"
     labels := [("interface", net.interface)], value := displayU64 net.rxPackets },
   { name := "hitz_net_tx_packets_total", kind := "counter", help := "Total packets transmitted"
     labels := [("interface", net.interface)], value := displayU64 net.txPackets },
   { name := "hitz_net_rx_errors_total", kind := "counter", help := "Total receive errors"
     labels := [("interface", net.interface)], value := displayU64 net.rxErrors },
   { name := "hitz_net_tx_errors_total", kind := "counter", help := "Total transmit errors"
     labels := [("interface", net.interface)], value := displayU64 net.txErrors }]

def procMetrics (proc : ProcMetrics F) : List Metric :=
  [{ name := "hitz_process_cpu_pct", kind := "gauge"
     help := "CPU utilisation percentage for process"
     labels := [("pid", toString proc.pid.toNat), ("name", proc.name)]
     value := floats.display proc.cpuPct },
   { name := "hitz_process_rss_bytes", kind := "gauge"
     help := "Resident set size in bytes for process"
     labels := [("pid", toString proc.pid.toNat), ("name", proc.name)]
     value := displayU64 proc.rssBytes }]

/-- The calls of `metric!`, in order. -/
def metrics (snap : MetricsSnapshot F) : List Metric :=
  utilisationMetrics floats snap.cpu ++ loadAvgMetrics floats snap.cpu ++
    memoryMetrics snap.memory ++ snap.disks.flatMap diskMetrics ++
    snap.networks.flatMap netMetrics ++ snap.processes.flatMap (procMetrics floats)

/-- `to_prometheus`. -/
def toPrometheus (snap : MetricsSnapshot F) (vmId : String) : List Char :=
  (metrics floats snap).flatMap (Metric.write vmId snap.timestampMs)

/-- The samples of a snapshot. -/
def snapshotSamples (snap : MetricsSnapshot F) (vmId : String) : List Sample :=
  (metrics floats snap).map (Metric.sample vmId snap.timestampMs)

end

/-- The text is a valid document, and its samples are the expected ones. -/
def Faithful (text : List Char) (expected : List Sample) : Prop :=
  ∃ entries, parse text = some entries ∧ WellTyped entries ∧
    ∀ s, s ∈ samples entries ↔ s ∈ expected

/-- The samples of the text, read without the rule about `TYPE` lines, are the expected ones. -/
def ReadBack (text : List Char) (expected : List Sample) : Prop :=
  (parse text).map samples = some expected

/-- In none of the names is there anything to escape. -/
structure NamesPlain {F : Type} (vmId : String) (snap : MetricsSnapshot F) : Prop where
  vm : Plain vmId.toList
  disks : ∀ disk ∈ snap.disks, Plain disk.name.toList
  networks : ∀ net ∈ snap.networks, Plain net.interface.toList
  processes : ∀ proc ∈ snap.processes, Plain proc.name.toList

/-- What all metrics of a snapshot have in common. -/
structure Metric.Standard (m : Metric) : Prop where
  name : IsName m.name.toList
  kind : IsWord m.kind.toList ∧ m.kind ∈ kinds
  help : '\n' ∉ m.help.toList
  labels : ∀ l ∈ m.labels, IsName l.1.toList
  value : IsWord m.value

/-! ### The text of a metric -/

/-- Numbers are printed as one word. -/
theorem isWord_toDigits (n : ℕ) : IsWord (Nat.toDigits 10 n) := by
  have hdigit : ∀ c ∈ Nat.toDigits 10 n, c.isDigit = true := fun c hc =>
    Nat.isDigit_of_mem_toDigits (by decide) (by decide) hc
  refine ⟨⟨Nat.toDigits_ne_nil, fun c hc => ?_⟩, fun h => ?_⟩
  · rw [isBlank, Bool.or_eq_false_iff, beq_eq_false_iff_ne, beq_eq_false_iff_ne]
    constructor
    · rintro rfl
      cases hdigit _ hc
    · rintro rfl
      cases hdigit _ hc
  · cases hdigit _ h

namespace Metric

variable {vmId : String} {timestamp : UInt64} {m : Metric}

theorem isName_vmId : IsName "vm_id".toList := by decide

theorem Standard.isName_labels (h : m.Standard) : ∀ l ∈ m.allLabels vmId, IsName l.1 := by
  intro l hl
  obtain ⟨label, hlabel, rfl⟩ := List.mem_map.1 hl
  rcases List.mem_cons.1 hlabel with rfl | hlabel
  · dsimp only
    exact isName_vmId
  · exact h.labels label hlabel

theorem allLabels_ne_nil : m.allLabels vmId ≠ [] := List.cons_ne_nil _ _

theorem parseLine_help : parseLine m.helpLine = some .comment := by
  have hhelp : IsWord "HELP".toList := by decide
  exact parseLine_comment hhelp (by decide) _

theorem Standard.parseLine_type (h : m.Standard) :
    parseLine m.typeLine = some (.typed m.name.toList) :=
  parseLine_typed (isWord_name h.name) h.kind.1 (by rw [String.ofList_toList]; exact h.kind.2)

theorem Standard.newline_sample (h : m.Standard) (hplain : ∀ l ∈ m.allLabels vmId, Plain l.2) :
    '\n' ∉ m.sampleLine vmId timestamp := by
  have hnumbers : '\n' ∉ '}' :: ' ' :: (m.value ++ ' ' :: Nat.toDigits 10 timestamp.toNat) := by
    simp only [List.mem_append, List.mem_cons, not_or]
    exact ⟨by decide, by decide, h.value.2, by decide, (isWord_toDigits _).2⟩
  exact List.not_mem_append (isWord_name h.name).2
    (List.not_mem_cons_of_ne_of_not_mem (by decide)
      (newline_writeLabels h.isName_labels hplain hnumbers))

theorem Standard.newline_help (h : m.Standard) : '\n' ∉ m.helpLine := by
  have hkeyword : '\n' ∉ "# HELP ".toList := by decide
  exact List.not_mem_append hkeyword (List.not_mem_append (isWord_name h.name).2
    (List.not_mem_cons_of_ne_of_not_mem (by decide) h.help))

theorem Standard.newline_type (h : m.Standard) : '\n' ∉ m.typeLine := by
  have hkeyword : '\n' ∉ "# TYPE ".toList := by decide
  exact List.not_mem_append hkeyword (List.not_mem_append (isWord_name h.name).2
    (List.not_mem_cons_of_ne_of_not_mem (by decide) h.kind.1.2))

/-- A sample with nothing to escape is read back. -/
theorem Standard.parseLine_sample (h : m.Standard) (hplain : ∀ l ∈ m.allLabels vmId, Plain l.2) :
    parseLine (m.sampleLine vmId timestamp) = some (.sample (m.sample vmId timestamp)) := by
  have hlength := fun rest => (length_le_writeLabels (m.allLabels vmId) rest).trans (Nat.le_succ _)
  rw [sampleLine, Exposition.parseLine_sample h.name,
    readLabels_write allLabels_ne_nil h.isName_labels hplain (hlength _), Option.bind_some,
    readNumbers_write h.value (isWord_toDigits _)]
  rfl

end Metric

/-! ### The text of a snapshot -/

section Text

variable {vmId : String} {timestamp : UInt64}

/-- The samples of a text, line by line. -/
theorem parseLines_write {m : Metric} (h : m.Standard) {rest : List Char} {es : List Entry} :
    parseLines (m.write vmId timestamp ++ rest) = some es ↔
      ∃ es', parseLines (m.sampleLine vmId timestamp ++ '\n' :: rest) = some es' ∧
        .comment :: .typed m.name.toList :: es' = es := by
  have htext : m.write vmId timestamp ++ rest = m.helpLine ++ '\n' :: (m.typeLine ++ '\n' ::
      (m.sampleLine vmId timestamp ++ '\n' :: rest)) := by
    simp [Metric.write]
  rw [htext, parseLines_cons_eq_some_iff h.newline_help]
  constructor
  · rintro ⟨e, _, he, h', rfl⟩
    obtain ⟨e', es', he', h'', rfl⟩ := (parseLines_cons_eq_some_iff h.newline_type).1 h'
    obtain rfl := Option.some.inj (he.symm.trans Metric.parseLine_help)
    obtain rfl := Option.some.inj (he'.symm.trans h.parseLine_type)
    exact ⟨es', h'', rfl⟩
  · rintro ⟨es', h', rfl⟩
    exact ⟨_, _, Metric.parseLine_help,
      (parseLines_cons_eq_some_iff h.newline_type).2 ⟨_, _, h.parseLine_type, h', rfl⟩, rfl⟩

/-- Where a sample is read back from the start of its line, its labels had nothing to escape. -/
theorem plain_of_sample {m : Metric} (h : m.Standard) {rest : List Char} {e : Entry}
    (he : parseLine (firstLine (m.sampleLine vmId timestamp ++ rest)) = some e)
    {ss : List Sample} {es : List Entry}
    (hs : samples (e :: es) = m.sample vmId timestamp :: ss) :
    ∀ l ∈ m.allLabels vmId, Plain l.2 := by
  rw [Metric.sampleLine, List.append_assoc, firstLine_append (isWord_name h.name).2,
    List.cons_append, firstLine_cons (by decide), Exposition.parseLine_sample h.name] at he
  obtain ⟨p, hp, he⟩ := Option.bind_eq_some_iff.1 he
  obtain ⟨q, -, rfl⟩ := Option.map_eq_some_iff.1 he
  have hlabels : p.1 = m.allLabels vmId := by
    have := (List.cons.inj hs).1
    exact congrArg Sample.labels this
  rw [List.append_assoc] at hp
  exact plain_of_readLabels h.isName_labels (hp.trans (congrArg some (Prod.ext hlabels rfl)))

/-- The samples of a text are read back exactly when there is nothing to escape. -/
theorem samples_eq_iff {ms : List Metric} (h : ∀ m ∈ ms, m.Standard) :
    (parseLines (ms.flatMap (Metric.write vmId timestamp))).map samples =
      some (ms.map (Metric.sample vmId timestamp)) ↔
    ∀ m ∈ ms, ∀ l ∈ m.allLabels vmId, Plain l.2 := by
  induction ms with
  | nil => simp [parseLines, parseLine, samples]
  | cons m ms ih =>
    obtain ⟨hm, hms⟩ := List.forall_mem_cons.1 h
    rw [List.flatMap_cons, Option.map_eq_some_iff, List.forall_mem_cons, ← ih hms]
    constructor
    · rintro ⟨_, hes, hs⟩
      obtain ⟨_, hes', rfl⟩ := (parseLines_write hm).1 hes
      obtain ⟨e, es, rfl, he⟩ := parseLine_firstLine hes'
      have hplain := plain_of_sample hm he hs
      -- so the sample ends where its line does, and the rest of the text is read on its own
      obtain ⟨e', es', he', hrest, heq⟩ :=
        (parseLines_cons_eq_some_iff (hm.newline_sample hplain)).1 hes'
      obtain ⟨rfl, rfl⟩ := List.cons.inj heq
      obtain rfl := Option.some.inj (he'.symm.trans (hm.parseLine_sample hplain))
      refine ⟨hplain, ?_⟩
      rw [hrest]
      exact congrArg some (List.cons.inj hs).2
    · rintro ⟨hplain, hrest⟩
      obtain ⟨es, hes, hs⟩ := Option.map_eq_some_iff.1 hrest
      refine ⟨_, (parseLines_write hm).2 ⟨_, (parseLines_cons_eq_some_iff
        (hm.newline_sample hplain)).2 ⟨_, es, hm.parseLine_sample hplain, hes, rfl⟩, rfl⟩, ?_⟩
      exact congrArg (m.sample vmId timestamp :: ·) hs

/-- A text ends with a line feed. -/
theorem parse_eq_parseLines (ms : List Metric) :
    parse (ms.flatMap (Metric.write vmId timestamp)) =
      parseLines (ms.flatMap (Metric.write vmId timestamp)) := by
  apply if_pos
  rcases List.eq_nil_or_concat ms with rfl | ⟨ms, m, rfl⟩
  · exact Or.inl rfl
  · right
    have hwrite : m.write vmId timestamp = (m.helpLine ++ '\n' :: (m.typeLine ++ '\n' ::
        m.sampleLine vmId timestamp)) ++ ['\n'] := by
      simp [Metric.write]
    rw [List.concat_eq_append, List.flatMap_append, List.flatMap_singleton, hwrite,
      ← List.append_assoc, List.getLast?_concat]

/-- Two samples of one metric have two `TYPE` lines. -/
theorem not_wellTyped_of_mem {m m' : Metric} (hm : m.Standard) (hname : m.name = m'.name)
    (hkind : m.kind = m'.kind) {before between after : List Metric} {es : List Entry}
    (h : parseLines ((before ++ m :: (between ++ m' :: after)).flatMap
      (Metric.write vmId timestamp)) = some es) : ¬WellTyped es := by
  have htype : m'.typeLine = m.typeLine := by
    unfold Metric.typeLine
    rw [hname, hkind]
  have htext : (before ++ m :: (between ++ m' :: after)).flatMap (Metric.write vmId timestamp) =
      (before.flatMap (Metric.write vmId timestamp) ++ m.helpLine) ++ '\n' :: (m.typeLine ++ '\n' ::
        ((m.sampleLine vmId timestamp ++ '\n' :: (between.flatMap (Metric.write vmId timestamp) ++
          m'.helpLine)) ++ '\n' :: (m'.typeLine ++ '\n' :: (m'.sampleLine vmId timestamp ++ '\n' ::
            after.flatMap (Metric.write vmId timestamp))))) := by
    simp [Metric.write]
  rw [htext, htype] at h
  exact not_wellTyped_of_twice hm.newline_type hm.parseLine_type h

end Text

/-! ### The metrics of a snapshot -/

theorem isWord_displayU64 (n : UInt64) : IsWord (displayU64 n) := isWord_toDigits n.toNat

theorem standard_mk {name kind help : String} {labels : List (String × String)}
    {value : List Char} (hname : IsName name.toList) (hkind : IsWord kind.toList ∧ kind ∈ kinds)
    (hhelp : '\n' ∉ help.toList) (hlabels : ∀ l ∈ labels, IsName l.1.toList)
    (hvalue : IsWord value) : Metric.Standard ⟨name, kind, help, labels, value⟩ :=
  ⟨hname, hkind, hhelp, hlabels, hvalue⟩

theorem gauge_mem : IsWord "gauge".toList ∧ "gauge" ∈ kinds := by decide

theorem counter_mem : IsWord "counter".toList ∧ "counter" ∈ kinds := by decide

theorem isName_singleton {key value : String} (h : IsName key.toList) :
    ∀ l ∈ [(key, value)], IsName l.1.toList :=
  List.forall_mem_singleton.2 h

section Snapshot

variable {F : Type} {floats : FloatDisplay F}

theorem standard_utilisation (cpu : CpuMetrics F) :
    ∀ m ∈ utilisationMetrics floats cpu, m.Standard := by
  intro m hm
  rcases List.mem_cons.1 hm with rfl | hm
  · exact standard_mk (by decide) gauge_mem (by decide) (by simp) (floats.isWord _)
  · obtain ⟨⟨corePct, i⟩, -, rfl⟩ := List.mem_map.1 hm
    exact standard_mk (by decide) gauge_mem (by decide) (isName_singleton (by decide))
      (floats.isWord _)

theorem standard_loadAvg (cpu : CpuMetrics F) : ∀ m ∈ loadAvgMetrics floats cpu, m.Standard := by
  intro m hm
  simp only [loadAvgMetrics, List.mem_cons, List.not_mem_nil, or_false] at hm
  rcases hm with rfl | rfl | rfl <;>
    exact standard_mk (by decide) gauge_mem (by decide) (isName_singleton (by decide))
      (floats.isWord _)

theorem standard_memory (memory : MemoryMetrics) : ∀ m ∈ memoryMetrics memory, m.Standard := by
  intro m hm
  simp only [memoryMetrics, List.mem_cons, List.not_mem_nil, or_false] at hm
  rcases hm with rfl | rfl | rfl | rfl | rfl | rfl | rfl <;>
    exact standard_mk (by decide) gauge_mem (by decide) (by simp) (isWord_displayU64 _)

theorem standard_disk (disk : DiskMetrics) : ∀ m ∈ diskMetrics disk, m.Standard := by
  intro m hm
  simp only [diskMetrics, List.mem_cons, List.not_mem_nil, or_false] at hm
  rcases hm with rfl | rfl | rfl | rfl <;>
    exact standard_mk (by decide) counter_mem (by decide) (isName_singleton (by decide))
      (isWord_displayU64 _)

theorem standard_net (net : NetMetrics) : ∀ m ∈ netMetrics net, m.Standard := by
  intro m hm
  simp only [netMetrics, List.mem_cons, List.not_mem_nil, or_false] at hm
  rcases hm with rfl | rfl | rfl | rfl | rfl | rfl <;>
    exact standard_mk (by decide) counter_mem (by decide) (isName_singleton (by decide))
      (isWord_displayU64 _)

theorem standard_proc (proc : ProcMetrics F) : ∀ m ∈ procMetrics floats proc, m.Standard := by
  have hlabels : ∀ l ∈ [("pid", toString proc.pid.toNat), ("name", proc.name)],
      IsName l.1.toList := by
    have hpid : IsName "pid".toList := by decide
    exact List.forall_mem_cons.2 ⟨hpid, isName_singleton (by decide)⟩
  intro m hm
  simp only [procMetrics, List.mem_cons, List.not_mem_nil, or_false] at hm
  rcases hm with rfl | rfl
  · exact standard_mk (by decide) gauge_mem (by decide) hlabels (floats.isWord _)
  · exact standard_mk (by decide) gauge_mem (by decide) hlabels (isWord_displayU64 _)

/-- Every metric has a valid name, type and help text, and a value of one word. -/
theorem standard_metrics (snap : MetricsSnapshot F) : ∀ m ∈ metrics floats snap, m.Standard := by
  intro m hm
  simp only [metrics, List.mem_append] at hm
  rcases hm with ((((hm | hm) | hm) | hm) | hm) | hm
  · exact standard_utilisation _ m hm
  · exact standard_loadAvg _ m hm
  · exact standard_memory _ m hm
  · obtain ⟨disk, -, hm⟩ := List.mem_flatMap.1 hm
    exact standard_disk disk m hm
  · obtain ⟨net, -, hm⟩ := List.mem_flatMap.1 hm
    exact standard_net net m hm
  · obtain ⟨proc, -, hm⟩ := List.mem_flatMap.1 hm
    exact standard_proc proc m hm

theorem plain_toString (n : ℕ) : Plain (toString n).toList := by
  have hdigit : ∀ c ∈ (toString n).toList, c.isDigit = true := by
    intro c hc
    refine Nat.isDigit_of_mem_toDigits (b := 10) (n := n) (by decide) (by decide) ?_
    simpa [toString, Nat.repr] using hc
  refine ⟨fun h => ?_, fun h => ?_, fun h => ?_⟩ <;> cases hdigit _ h

/-- The labels besides the VM's that are no names are numbers and constants. -/
theorem labels_plain_iff (snap : MetricsSnapshot F) :
    (∀ m ∈ metrics floats snap, ∀ l ∈ m.labels, Plain l.2.toList) ↔
      (∀ disk ∈ snap.disks, Plain disk.name.toList) ∧
      (∀ net ∈ snap.networks, Plain net.interface.toList) ∧
      ∀ proc ∈ snap.processes, Plain proc.name.toList := by
  have hutilisation : ∀ m ∈ utilisationMetrics floats snap.cpu,
      ∀ l ∈ m.labels, Plain l.2.toList := by
    intro m hm
    rcases List.mem_cons.1 hm with rfl | hm
    · exact List.forall_mem_nil _
    · obtain ⟨⟨corePct, i⟩, -, rfl⟩ := List.mem_map.1 hm
      exact List.forall_mem_singleton.2 (plain_toString i)
  have hloadAvg : ∀ m ∈ loadAvgMetrics floats snap.cpu, ∀ l ∈ m.labels, Plain l.2.toList := by
    have hwindows : Plain "1m".toList ∧ Plain "5m".toList ∧ Plain "15m".toList := by decide
    simp only [loadAvgMetrics, List.forall_mem_cons]
    tauto
  have hmemory : ∀ m ∈ memoryMetrics snap.memory, ∀ l ∈ m.labels, Plain l.2.toList := by
    simp [memoryMetrics]
  have hdisk : ∀ disk, (∀ m ∈ diskMetrics disk, ∀ l ∈ m.labels, Plain l.2.toList) ↔
      Plain disk.name.toList := by
    simp [diskMetrics]
  have hnet : ∀ net, (∀ m ∈ netMetrics net, ∀ l ∈ m.labels, Plain l.2.toList) ↔
      Plain net.interface.toList := by
    simp [netMetrics]
  have hproc : ∀ proc, (∀ m ∈ procMetrics floats proc, ∀ l ∈ m.labels, Plain l.2.toList) ↔
      Plain proc.name.toList := by
    intro proc
    have hpid := plain_toString proc.pid.toNat
    simp only [procMetrics, List.forall_mem_cons]
    tauto
  simp only [metrics, List.forall_mem_append, List.forall_mem_flatMap, hdisk, hnet, hproc]
  tauto

theorem allLabels_plain_iff {vmId : String} {snap : MetricsSnapshot F} :
    (∀ m ∈ metrics floats snap, ∀ l ∈ m.allLabels vmId, Plain l.2) ↔ NamesPlain vmId snap := by
  have hall : ∀ m : Metric, (∀ l ∈ m.allLabels vmId, Plain l.2) ↔
      Plain vmId.toList ∧ ∀ l ∈ m.labels, Plain l.2.toList := by
    intro m
    rw [Metric.allLabels, List.forall_mem_map, List.forall_mem_cons]
  have hne : ∃ m, m ∈ metrics floats snap := ⟨_, List.mem_cons_self ..⟩
  obtain ⟨m, hm⟩ := hne
  simp only [hall]
  constructor
  · intro h
    obtain ⟨hdisks, hnetworks, hprocesses⟩ := (labels_plain_iff snap).1 fun m hm => (h m hm).2
    exact ⟨(h m hm).1, hdisks, hnetworks, hprocesses⟩
  · intro h m hm
    exact ⟨h.vm, (labels_plain_iff snap).2 ⟨h.disks, h.networks, h.processes⟩ m hm⟩

/-- The load averages are three samples of one metric. -/
theorem toPrometheus_not_wellTyped (snap : MetricsSnapshot F) (vmId : String)
    {es : List Entry} (h : parse (toPrometheus floats snap vmId) = some es) : ¬WellTyped es := by
  obtain ⟨m, m', m'', havg, hname, hkind⟩ : ∃ m m' m'' : Metric,
      loadAvgMetrics floats snap.cpu = [m, m', m''] ∧ m.name = m'.name ∧ m.kind = m'.kind :=
    ⟨_, _, _, rfl, rfl, rfl⟩
  have hmem : m ∈ loadAvgMetrics floats snap.cpu := by
    rw [havg]
    exact List.mem_cons_self ..
  have hm : m.Standard := standard_loadAvg snap.cpu m hmem
  have hmetrics : metrics floats snap = utilisationMetrics floats snap.cpu ++ m :: ([] ++ m' ::
      (m'' :: (memoryMetrics snap.memory ++ (snap.disks.flatMap diskMetrics ++
        (snap.networks.flatMap netMetrics ++ snap.processes.flatMap (procMetrics floats)))))) := by
    simp [metrics, havg]
  rw [toPrometheus, parse_eq_parseLines, hmetrics] at h
  exact not_wellTyped_of_mem hm hname hkind h

/-- No text is a valid document.  Read without the rule about `TYPE` lines, it has the samples of
the snapshot exactly when there is nothing to escape in the names. -/
theorem toPrometheus_never_faithful (floats : FloatDisplay F) (snap : MetricsSnapshot F)
    (vmId : String) :
    ¬Faithful (toPrometheus floats snap vmId) (snapshotSamples floats snap vmId) ∧
      (ReadBack (toPrometheus floats snap vmId) (snapshotSamples floats snap vmId) ↔
        NamesPlain vmId snap) := by
  constructor
  · rintro ⟨es, hes, hwell, -⟩
    exact toPrometheus_not_wellTyped snap vmId hes hwell
  · rw [ReadBack, toPrometheus, parse_eq_parseLines, snapshotSamples,
      samples_eq_iff (standard_metrics snap), allLabels_plain_iff]

/-- A snapshot of a guest without disks, interfaces and processes. -/
def idleSnapshot : MetricsSnapshot Unit where
  timestampMs := 1700000000000
  cpu := ⟨(), [], Vector.replicate 3 ()⟩
  memory := ⟨0, 0, 0, 0, 0, 0, 0⟩
  disks := []
  networks := []
  processes := []

/-- The text of an idle guest is no valid document. -/
theorem idle_snapshot_not_faithful : ¬ ∀ (F : Type) (floats : FloatDisplay F)
    (snap : MetricsSnapshot F) (vmId : String),
    Faithful (toPrometheus floats snap vmId) (snapshotSamples floats snap vmId) := by
  intro h
  obtain ⟨es, hes, hwell, -⟩ := h Unit ⟨fun _ => ['0'], fun _ => by decide⟩ idleSnapshot "vm"
  exact toPrometheus_not_wellTyped idleSnapshot "vm" hes hwell

end Snapshot

end Hitz.Api

import Hitz.Api.Health
import Hitz.Api.Types

/-!
# The analyzer (`hitz-cli/src/analyzer.rs`)

`analyze_vm` turns a snapshot into insights for the user.  Like the health assessment and the
fingerprint, it adds up the counters of all interfaces with `u64` additions.

`aggregation_exact_iff`: the three aggregations are exact, and none overflows, exactly when the
totals of the network errors, of the disk bytes and of the network bytes fit in 64 bits.
-/

namespace Hitz.Cli

open Api Wrapped

inductive WarningLevel
  | info
  | warning
  | critical
  deriving DecidableEq, Repr

structure ResourceInsight where
  level : WarningLevel
  message : String
  deriving DecidableEq, Repr

section

variable {F D : Type} (fl : Floats F D)

def cpuInsight (cpu : CpuMetrics F) : ResourceInsight :=
  let pct := fl.single.fixed cpu.totalPct
  if fl.single.above cpu.totalPct 90 then ⟨.critical, "High CPU utilization: " ++ pct ++ "%"⟩
  else if fl.single.above cpu.totalPct 75 then
    ⟨.warning, "Elevated CPU utilization: " ++ pct ++ "%"⟩
  else ⟨.info, "Healthy CPU utilization: " ++ pct ++ "%"⟩

def memoryInsights (info : VmInfo) (memory : MemoryMetrics) : List ResourceInsight :=
  if 0 < memory.totalBytes then
    let usedPct := fl.percent memory.usedBytes memory.totalBytes
    let pct := fl.double.fixed usedPct
    let usage : ResourceInsight :=
      if fl.double.above usedPct 90 then
        ⟨.critical, "High Memory utilization: " ++ pct ++ "% (OOM Risk)"⟩
      else if fl.double.above usedPct 75 then
        ⟨.warning, "Elevated Memory utilization: " ++ pct ++ "%"⟩
      else ⟨.info, "Healthy Memory utilization: " ++ pct ++ "%"⟩
    if fl.double.below usedPct 10 && decide (512 < info.config.ramMib) then
      [usage, ⟨.info, "VM may be over-provisioned for memory (using <10% of >512 MiB)"⟩]
    else [usage]
  else []

/-- Only the first process is looked at. -/
def processInsights (processes : List (ProcMetrics F)) : List ResourceInsight :=
  match processes.head?.filter fun p => fl.single.above p.cpuPct 80 with
  | none => []
  | some topProc =>
    [⟨.warning, "Process '" ++ topProc.name ++ "' (PID " ++ toString topProc.pid ++
      ") is consuming " ++ fl.single.fixed topProc.cpuPct ++ "% CPU"⟩]

def networkInsights (rxErrs txErrs : ℕ) : List ResourceInsight :=
  if 0 < rxErrs ∨ 0 < txErrs then
    [⟨.warning, "Network errors detected (RX: " ++ toString rxErrs ++ ", TX: " ++
      toString txErrs ++ ")"⟩]
  else []

/-- The insights for the totals of received and sent errors. -/
def insightsOf (info : VmInfo) (m : MetricsSnapshot F) (rxErrs txErrs : ℕ) :
    List ResourceInsight :=
  cpuInsight fl m.cpu :: (memoryInsights fl info m.memory ++ (processInsights fl m.processes ++
    networkInsights rxErrs txErrs))

/-- `analyze_vm`. -/
def analyzeVm (info : VmInfo) (m : MetricsSnapshot F) : Wrapped (List ResourceInsight) := do
  let rxErrs ← sum (fun n => pure n.rxErrors) m.networks
  let txErrs ← sum (fun n => pure n.txErrors) m.networks
  pure (insightsOf fl info m rxErrs.toNat txErrs.toNat)

end

/-! ### The exact totals -/

section

variable {F : Type} (m : MetricsSnapshot F)

/-- The exact number of errors of received packets. -/
def rxErrors : ℕ := (m.networks.map fun n => n.rxErrors.toNat).sum

/-- The exact number of errors of sent packets. -/
def txErrors : ℕ := (m.networks.map fun n => n.txErrors.toNat).sum

theorem netErrors_eq : m.netErrors = rxErrors m + txErrors m := List.sum_map_add

theorem sum_rxErrors : sum (fun n => pure n.rxErrors) m.networks = of (rxErrors m) := by
  simp only [pure_eq_of, sum_of, rxErrors]

theorem sum_txErrors : sum (fun n => pure n.txErrors) m.networks = of (txErrors m) := by
  simp only [pure_eq_of, sum_of, txErrors]

variable {D : Type} (fl : Floats F D) (info : VmInfo)

theorem analyzeVm_eq_pure_iff :
    analyzeVm fl info m = pure (insightsOf fl info m (rxErrors m) (txErrors m)) ↔
      rxErrors m < 2 ^ 64 ∧ txErrors m < 2 ^ 64 := by
  rw [analyzeVm, sum_rxErrors, sum_txErrors]
  exact of_bind_of_bind_pure_iff (rxErrors m) (txErrors m) (insightsOf fl info m)

/-- No addition overflows, and the results are those of the exact totals. -/
structure AggregatesExactly : Prop where
  health : assessHealth fl m = pure (healthOf fl m m.netErrors)
  fingerprint : generateFingerprint fl m = pure (fingerprintOf fl m m.diskBytes m.netBytes)
  insights : analyzeVm fl info m = pure (insightsOf fl info m (rxErrors m) (txErrors m))

/-- **The aggregations are exact** exactly when the totals fit in 64 bits. -/
theorem aggregation_exact_iff :
    AggregatesExactly m fl info ↔
      m.netErrors < 2 ^ 64 ∧ m.diskBytes < 2 ^ 64 ∧ m.netBytes < 2 ^ 64 := by
  constructor
  · intro h
    exact ⟨(assessHealth_eq_pure_iff fl m).1 h.health,
      (generateFingerprint_eq_pure_iff fl m).1 h.fingerprint⟩
  · rintro ⟨herrors, hbytes⟩
    -- the analyzer adds the two kinds of errors up apart, so its totals are smaller
    have htotal := netErrors_eq m
    exact ⟨(assessHealth_eq_pure_iff fl m).2 herrors,
      (generateFingerprint_eq_pure_iff fl m).2 hbytes,
      (analyzeVm_eq_pure_iff m fl info).2 ⟨by omega, by omega⟩⟩

end

/-- A guest that reports one more error than fits, on one interface. -/
theorem one_interface_overflows :
    ¬ ∀ (F D : Type) (fl : Floats F D) (info : VmInfo) (m : MetricsSnapshot F),
      AggregatesExactly m fl info := by
  intro h
  let ops : FloatOps Unit := ⟨fun _ _ => false, fun _ _ => false, fun _ => "0.0", fun _ => 0⟩
  let eth0 : NetMetrics := ⟨"eth0", 0, 0, 0, 0, 18446744073709551615, 1⟩
  let m : MetricsSnapshot Unit := {
    timestampMs := 0
    cpu := ⟨(), [], Vector.replicate 3 ()⟩
    memory := ⟨0, 0, 0, 0, 0, 0, 0⟩
    disks := []
    networks := [eth0]
    processes := [] }
  let info : VmInfo :=
    ⟨"vm", .running, { kernelPath := "vmlinux", ramMib := 512 }, none⟩
  have hhealth := (h Unit Unit ⟨ops, ops, fun _ _ => (), fun _ => 0⟩ info m).health
  have hflag := congrArg Wrapped.overflowed hhealth
  exact absurd hflag (by decide)

end Hitz.Cli

import Hitz.Vmm.MmioGrammar
import Hitz.Vmm.MmioSemantics

/-!
# What a handled exit does to the registers

* MMIO: the platform does not say how long the instruction is, so the handler can only step over an
  instruction it decodes.  `handled_mmio_progress_iff`: RIP moves on exactly if the bytes start with
  an encoding of the grammar; `stuck_forever` is a run that never gets past a `MOVZX`.
* Port I/O: `handleIoPort_eq_ok` is what the handler does, `PortSemantics` what the architecture
  asks for, and `handleIoPort_semantics_iff` says when the two agree.
-/

namespace Hitz.Vmm

open Bytes Hal Whp X86

variable {D : Type} [DeviceBus D]

/-! ### MMIO exits -/

/-- The instruction bytes of an exit. -/
def exitBytes (mmio : MmioExit) : List UInt8 :=
  mmio.instructionBytes.toList.take mmio.instructionByteCount.toNat

/-- The bytes of the exit start with an encoding of the decoder's grammar. -/
def Decodable (mmio : MmioExit) : Prop := ∃ e : Encoding, e.bytes <+: exitBytes mmio

/-- From `rip` to `rip'` there is one instruction: of at most the 16 bytes the platform hands over,
and as long as its encoding if it has one in the grammar. -/
def OneInstruction (mmio : MmioExit) (rip rip' : UInt64) : Prop :=
  ∃ n, 0 < n ∧ n ≤ 16 ∧ (∀ e : Encoding, e.bytes <+: exitBytes mmio → n = e.bytes.length) ∧
    rip' = rip + UInt64.ofNat n

theorem length_exitBytes_le (mmio : MmioExit) : (exitBytes mmio).length ≤ 16 := by
  rw [exitBytes, List.length_take, Vector.length_toList]
  exact min_le_right _ _

theorem Encoding.length_pos (e : Encoding) : 0 < e.bytes.length := by
  simp [Encoding.bytes]

/-- The length by which the handler moves RIP. -/
def steppedOver (mmio : MmioExit) : ℕ :=
  match decodeMmioInstruction (exitBytes mmio) with
  | some d => d.instructionLen
  | none => mmio.instructionLen.toNat

/-- RIP after a handled MMIO exit. -/
theorem rip_handleMmio {mmio : MmioExit} {s s' : VmState D}
    (h : handleMmio mmio s = (.ok (), s')) :
    s'.vcpu.regs.rip = s.vcpu.regs.rip + UInt64.ofNat (steppedOver mmio) := by
  unfold handleMmio at h
  rw [← exitBytes] at h
  unfold steppedOver
  cases hd : decodeMmioInstruction (exitBytes mmio) with
  | none =>
    rw [hd] at h
    obtain ⟨calls, rfl⟩ := advanceRip_eq_ok h
    rfl
  | some d =>
    rw [hd] at h
    obtain ⟨e, -, hdec⟩ := decodes (length_exitBytes_le mmio) hd
    dsimp only at h
    split_ifs at h
    · rw [(handleMmioWrite_eq_ok hdec.size_le h).2]
    · rw [(handleMmioRead_eq_ok hdec.size_le h).2]

/-- The handler steps over the encoding if there is one, and otherwise over as many bytes as the
platform says. -/
theorem steppedOver_cases (mmio : MmioExit) :
    (∃ e : Encoding, e.bytes <+: exitBytes mmio ∧ steppedOver mmio = e.bytes.length) ∨
      ¬ Decodable mmio ∧ steppedOver mmio = mmio.instructionLen.toNat := by
  have hlen : (exitBytes mmio).length < 256 := by
    have := length_exitBytes_le mmio
    omega
  unfold steppedOver
  cases hd : decodeMmioInstruction (exitBytes mmio) with
  | some d =>
    obtain ⟨e, he, rfl⟩ := (decode_iff_of_lt hlen).1 hd
    exact Or.inl ⟨e, he, rfl⟩
  | none =>
    refine Or.inr ⟨?_, rfl⟩
    rintro ⟨e, he⟩
    have hsome := (decode_iff_of_lt hlen).2 ⟨e, he, rfl⟩
    rw [hd] at hsome
    cases hsome

/-- Two encodings at the front of the same bytes have the same length. -/
theorem Encoding.length_unique {bytes : List UInt8} (hlen : bytes.length < 256) {e e' : Encoding}
    (he : e.bytes <+: bytes) (he' : e'.bytes <+: bytes) : e.bytes.length = e'.bytes.length := by
  have h := (decode_iff_of_lt hlen).2 ⟨e, he, rfl⟩
  rw [(decode_iff_of_lt hlen).2 ⟨e', he', rfl⟩] at h
  exact (congrArg DecodedMmio.instructionLen (Option.some.inj h)).symm

/-- A distance of 1 to 16 is a distance. -/
theorem add_ofNat_ne {n : ℕ} (hpos : 0 < n) (hle : n ≤ 16) (rip : UInt64) :
    rip + UInt64.ofNat n ≠ rip := by
  intro h
  have htoNat := congrArg UInt64.toNat h
  have hrip := rip.toNat_lt
  rw [UInt64.toNat_add, UInt64.toNat_ofNat', Nat.mod_eq_of_lt (show n < 2 ^ 64 by omega)] at htoNat
  omega

theorem OneInstruction.ne {mmio : MmioExit} {rip rip' : UInt64} (h : OneInstruction mmio rip rip') :
    rip' ≠ rip := by
  obtain ⟨n, hpos, hle, -, rfl⟩ := h
  exact add_ofNat_ne hpos hle rip

/-- One handled exit. -/
theorem handleMmio_progress_iff {mmio : MmioExit} (hlen : mmio.instructionLen = 0)
    {s s' : VmState D} (h : handleMmio mmio s = (.ok (), s')) :
    (OneInstruction mmio s.vcpu.regs.rip s'.vcpu.regs.rip ↔ Decodable mmio) ∧
      (s'.vcpu.regs.rip ≠ s.vcpu.regs.rip ↔ Decodable mmio) := by
  have hrip := rip_handleMmio h
  have hbytes := length_exitBytes_le mmio
  rcases steppedOver_cases mmio with ⟨e, he, hstep⟩ | ⟨hnot, hstep⟩
  · rw [hstep] at hrip
    have hone : OneInstruction mmio s.vcpu.regs.rip s'.vcpu.regs.rip :=
      ⟨e.bytes.length, e.length_pos, he.length_le.trans hbytes,
        fun e' he' => Encoding.length_unique (by omega) he he', hrip⟩
    exact ⟨iff_of_true hone ⟨e, he⟩, iff_of_true hone.ne ⟨e, he⟩⟩
  · -- nothing is stepped over
    have hsame : s'.vcpu.regs.rip = s.vcpu.regs.rip := by
      rw [hrip, hstep, hlen]
      exact UInt64.add_zero _
    exact ⟨iff_of_false (fun hone => hone.ne hsame) hnot, iff_of_false (fun hne => hne hsame) hnot⟩

/-- Polling the devices does not run the guest. -/
theorem guest_pollDevices {s s' : VmState D} (h : pollDevices s = (.ok (), s')) :
    s'.vcpu.guest = s.vcpu.guest ∧ s'.vcpu.runs = s.vcpu.runs := by
  obtain ⟨irq, t, hpoll, hrest⟩ := Vm.bind_eq_ok h
  obtain ⟨devices, rfl⟩ := busPoll_eq_ok hpoll
  cases irq with
  | none =>
    cases hrest
    exact ⟨rfl, rfl⟩
  | some v => rcases injectOrDefer_eq_ok hrest with rfl | rfl <;> exact ⟨rfl, rfl⟩

omit [DeviceBus D] in
/-- The exit is the guest's, and so are the registers. -/
theorem runVcpu_eq_ok {exit : VcpuExit} {s s' : VmState D} (h : runVcpu s = (.ok exit, s')) :
    s.vcpu.guest s.vcpu.runs = (exit, s'.vcpu.regs) := by
  unfold runVcpu at h
  split at h
  · cases h
  · rename_i exit' vcpu hv
    cases h
    unfold WhpVcpu.run at hv
    obtain ⟨rfl, rfl⟩ := WhpVcpu.call_eq_ok hv
    rfl

/-- A turn of the loop handles the exit of the guest, from the registers the guest left. -/
theorem loopTurn_eq_ok_none {s s' : VmState D} (h : loopTurn s = (.ok none, s')) :
    ∃ exit t, s.vcpu.guest s.vcpu.runs = (exit, t.vcpu.regs) ∧
      dispatchExit exit t = (.ok none, s') := by
  unfold loopTurn at h
  dsimp only at h
  split at h
  · cases h
  · obtain ⟨_, t, hpoll, h⟩ := Vm.bind_eq_ok h
    obtain ⟨exit, u, hrun, hexit⟩ := Vm.bind_eq_ok h
    obtain ⟨hguest, hruns⟩ := guest_pollDevices hpoll
    have hfrom := runVcpu_eq_ok hrun
    rw [hguest, hruns] at hfrom
    exact ⟨exit, u, hfrom, hexit⟩

/-- `movzx eax, byte [rax]`. -/
def movzx : MmioExit := exitOf false #v[0x0F, 0xB6, 0x00, 0, 0, 0, 0, 0, 0, 0, 0, 0, 0, 0, 0, 0] 3

/-- After `n` turns with a guest that is about to execute `movzx`. -/
def stuck (n : ℕ) : VmState ScriptedBus where
  vcpu := {
    regs := { rip := 0x1000 }
    guest := fun _ => (.mmio movzx, { rip := 0x1000 })
    calls := 3 * n
    runs := n }
  devices := {}
  loops := n

theorem loopTurn_stuck (n : ℕ) : loopTurn (stuck n) = (.ok none, stuck (n + 1)) := rfl

theorem afterTurns_stuck (n k : ℕ) : afterTurns n (stuck k) = some (stuck (k + n)) := by
  induction n generalizing k with
  | zero => rfl
  | succ n ih =>
    rw [afterTurns, loopTurn_stuck]
    dsimp only
    rw [ih, Nat.add_right_comm, Nat.add_assoc]

/-- A port exit with the width of the access, which the handler does not look at. -/
structure PortAccess extends IoPortExit where
  width : ℕ
  width_mem : width = 1 ∨ width = 2 ∨ width = 4

/-- The port belongs to the serial console or to the interrupt controllers. -/
def Handled (D : Type) [DeviceBus D] (port : UInt16) : Prop :=
  DeviceBus.handlesPort D port = true ∨ port ∈ picPorts

instance (port : UInt16) : Decidable (Handled D port) :=
  inferInstanceAs (Decidable (_ ∨ _))

/-- The accumulator, as wide as the access. -/
def accumulator (io : PortAccess) : Operand where
  reg := 0
  size := io.width

/-- From `regs` to `regs'` an `OUT` moves RIP only; an `IN` also puts a value of its width into the
accumulator, and this value is all ones if nothing answers. -/
def PortSemantics (D : Type) [DeviceBus D] (io : PortAccess) (regs regs' : StandardRegs) : Prop :=
  if io.isWrite then regs' = { regs with rip := regs.rip + UInt64.ofNat io.instructionLen.toNat }
  else ∃ v < 2 ^ (8 * io.width),
    regs' = { regs with
      rip := regs.rip + UInt64.ofNat io.instructionLen.toNat
      rax := UInt64.ofNat ((accumulator io).insert regs.rax.toNat v) } ∧
    (¬ Handled D io.port → v = 2 ^ (8 * io.width) - 1)

omit [DeviceBus D] in
theorem advanceRipWithRax_eq_ok {len : ℕ} {rax : UInt64} {s s' : VmState D}
    (h : advanceRipWithRax len rax s = (.ok (), s')) :
    s'.vcpu.regs = { s.vcpu.regs with rip := s.vcpu.regs.rip + UInt64.ofNat len, rax } := by
  obtain ⟨regs, t, hget, hset⟩ := Vm.bind_eq_ok h
  obtain ⟨rfl, rfl⟩ := getRegs_eq_ok hget
  obtain rfl := setRegs_eq_ok hset
  rfl

/-- The handler puts a byte into RAX, `0xFF` if nothing answers. -/
theorem handleIoPort_eq_ok {io : IoPortExit} {s s' : VmState D}
    (h : handleIoPort io s = (.ok (), s')) :
    if io.isWrite then s'.vcpu.regs =
      { s.vcpu.regs with rip := s.vcpu.regs.rip + UInt64.ofNat io.instructionLen.toNat }
    else ∃ b : UInt8, s'.vcpu.regs =
        { s.vcpu.regs with
          rip := s.vcpu.regs.rip + UInt64.ofNat io.instructionLen.toNat
          rax := b.toUInt64 } ∧
      (¬ Handled D io.port → b = 0xFF) := by
  unfold handleIoPort at h
  unfold Handled
  cases hw : io.isWrite with
  | true =>
    simp only [hw, if_true, ite_self] at h ⊢
    by_cases hserial : DeviceBus.handlesPort D io.port = true
    · rw [if_pos hserial] at h
      obtain ⟨_, t, hwrite, hrip⟩ := Vm.bind_eq_ok h
      cases hwrite
      obtain ⟨calls, rfl⟩ := advanceRip_eq_ok hrip
      rfl
    · rw [if_neg hserial] at h
      obtain ⟨calls, rfl⟩ := advanceRip_eq_ok h
      rfl
  | false =>
    simp only [hw, Bool.false_eq_true, if_false] at h ⊢
    by_cases hserial : DeviceBus.handlesPort D io.port = true
    · rw [if_pos hserial] at h
      obtain ⟨value, t, hread, hrip⟩ := Vm.bind_eq_ok h
      cases hread
      have hregs := advanceRipWithRax_eq_ok hrip
      exact ⟨_, hregs, fun hnot => absurd (Or.inl hserial) hnot⟩
    · rw [if_neg hserial] at h
      by_cases hpic : io.port ∈ picPorts
      · rw [if_pos hpic] at h
        exact ⟨0, advanceRipWithRax_eq_ok h, fun hnot => absurd (Or.inr hpic) hnot⟩
      · rw [if_neg hpic] at h
        exact ⟨0xFF, advanceRipWithRax_eq_ok h, fun _ => rfl⟩

/-- A byte in RAX is a value of the access's width in the accumulator exactly if nothing of RAX is
to be kept. -/
theorem byte_insert_iff (io : PortAccess) (r : UInt64) (b : UInt8) {v : ℕ}
    (hv : v < 2 ^ (8 * io.width)) :
    b.toUInt64 = UInt64.ofNat ((accumulator io).insert r.toNat v) ↔
      v = b.toNat ∧ (io.width < 4 → r.toNat < 2 ^ (8 * io.width)) := by
  have hw : io.width = 1 ∨ io.width = 2 ∨ io.width = 4 ∨ io.width = 8 :=
    io.width_mem.imp_right fun h => h.imp_right Or.inl
  have hb := b.toNat_lt
  have hpow : 2 ^ 8 ≤ 2 ^ (8 * io.width) := Nat.pow_le_pow_right (by omega) (by omega)
  rw [eq_comm, ofNat_eq_iff_of_lt ((accumulator io).insert_lt v r.toNat_lt hw),
    UInt8.toNat_toUInt64]
  constructor
  · intro h
    -- what is in the accumulator is what was put there
    have hread : (accumulator io).read b.toNat = v := by
      rw [← h]
      exact Operand.read_insert r.toNat hw hv
    have hvb : v = b.toNat := by
      rw [← hread]
      exact Nat.mod_eq_of_lt (by show b.toNat < 2 ^ (8 * io.width); omega)
    subst hvb
    exact ⟨rfl, (insert_low_eq_iff hw hv).1 h⟩
  · rintro ⟨rfl, hr⟩
    exact (insert_low_eq_iff hw hv).2 hr

/-- **Port I/O against the architecture.**  The handler replaces all of RAX by a byte; this is right
for an `OUT`, and for an `IN` if RAX has nothing above the access to keep and, where nothing
answers, the access is one byte wide. -/
theorem handleIoPort_semantics_iff (io : PortAccess) (s s' : VmState D)
    (h : handleIoPort io.toIoPortExit s = (.ok (), s')) :
    PortSemantics D io s.vcpu.regs s'.vcpu.regs ↔ io.isWrite = true ∨
      (io.width < 4 → s.vcpu.regs.rax.toNat < 2 ^ (8 * io.width)) ∧
        (¬ Handled D io.port → io.width = 1) := by
  have heff := handleIoPort_eq_ok h
  unfold PortSemantics
  cases hw : io.isWrite with
  | true =>
    rw [hw, if_pos rfl] at heff
    simp [heff]
  | false =>
    rw [hw, if_neg (by simp)] at heff
    obtain ⟨b, hregs, hff⟩ := heff
    have hb := b.toNat_lt
    have hpow : 2 ^ 8 ≤ 2 ^ (8 * io.width) :=
      Nat.pow_le_pow_right (by omega) (by have := io.width_mem; omega)
    rw [if_neg (by simp), hregs]
    simp only [Bool.false_eq_true, false_or]
    constructor
    · rintro ⟨v, hv, heq, hones⟩
      obtain ⟨rfl, hr⟩ := (byte_insert_iff io s.vcpu.regs.rax b hv).1 (congrArg StandardRegs.rax heq)
      refine ⟨hr, fun hnot => ?_⟩
      have h255 := hones hnot
      rw [hff hnot] at h255
      rcases io.width_mem with h₁ | h₂ | h₄
      · exact h₁
      · rw [h₂] at h255
        exact absurd h255 (by decide)
      · rw [h₄] at h255
        exact absurd h255 (by decide)
    · rintro ⟨hr, hone⟩
      have hv : b.toNat < 2 ^ (8 * io.width) := by omega
      refine ⟨b.toNat, hv, ?_, fun hnot => ?_⟩
      · rw [← (byte_insert_iff io s.vcpu.regs.rax b hv).2 ⟨rfl, hr⟩]
      · rw [hff hnot, hone hnot]
        rfl

/-- `in al, dx` at a port where nothing is, with a value in the rest of RAX. -/
def inAl : PortAccess where
  port := 0x1234
  data := [0, 0, 0, 0]
  isWrite := false
  instructionLen := 1
  width := 1
  width_mem := Or.inl rfl

/-- `out dx, al` at the same port. -/
def outAl : PortAccess := { inAl with isWrite := true }

theorem outAl_semantics : PortSemantics ScriptedBus outAl loadState.vcpu.regs
    (handleIoPort outAl.toIoPortExit loadState).2.vcpu.regs :=
  (handleIoPort_semantics_iff outAl loadState (handleIoPort outAl.toIoPortExit loadState).2
    rfl).2 (Or.inl rfl)

/-- RAX is `0xff` afterwards, not `0x11223344556677ff`. -/
theorem inAl_clobbers_rax : (handleIoPort inAl.toIoPortExit loadState).1 = .ok () ∧
    (handleIoPort inAl.toIoPortExit loadState).2.vcpu.regs.rax = 0xFF ∧
    ¬ PortSemantics ScriptedBus inAl loadState.vcpu.regs
      (handleIoPort inAl.toIoPortExit loadState).2.vcpu.regs := by
  refine ⟨rfl, rfl, ?_⟩
  rintro ⟨v, hv, heq, -⟩
  have hrax := congrArg StandardRegs.rax heq
  have hiff := (byte_insert_iff inAl loadState.vcpu.regs.rax 0xFF hv).1 hrax
  exact absurd (hiff.2 (by decide)) (by decide)

end Hitz.Vmm

import Hitz.Lib.RingLog
import Hitz.Vmm.Memory
import Hitz.Devices.Drain

/-!
# A virtqueue is an exactly-once FIFO

The guest publishes chain heads in the available ring; the device pops them and pushes each one
into the used ring.  The two sides take turns in any order (`Step`): a publish, a pop, a push of
the oldest chain popped and not yet pushed, or any other write to guest memory that stays clear of
both rings (the guest filling descriptors and buffers, the device filling buffers).

The free-running indices are `u16`, so after 65536 publications they start again at zero; the
slot of an entry is its index modulo the queue size.  `Inv` relates both to the position of the
entry in the history, and `inv_of_run` shows that every run keeps it.  A turn of the queue loop of
the backends is such a run (`run_of_drainStep`).
-/

namespace Hitz.Devices

open ByteStore Bytes RingLog Relation

variable {M : Type} [ByteStore M]

/-! ### Words in memory -/

/-- The `u16` at an address. -/
def u16At (m : M) (a : ℕ) : UInt16 := UInt16.ofNat (leNat (bytes m a 2))

/-- The `u32` at an address. -/
def u32At (m : M) (a : ℕ) : UInt32 := UInt32.ofNat (leNat (bytes m a 4))

theorem readU16_of_mapped {m : M} {a : ℕ} (h : mapped m a 2 = true) :
    readU16 m a = some (u16At m a) := by
  rw [readU16, read_of_mapped h]
  rfl

theorem readU16_eq_some {m : M} {a : ℕ} {v : UInt16} (h : readU16 m a = some v) :
    mapped m a 2 = true ∧ v = u16At m a := by
  obtain ⟨bs, hr, rfl⟩ := Option.map_eq_some_iff.1 h
  obtain ⟨hm, rfl⟩ := read_eq_some hr
  exact ⟨hm, rfl⟩

theorem u16At_write {m m' : M} {a : ℕ} {v : UInt16}
    (h : write m a (leBytes 2 v.toNat) = some m') : u16At m' a = v := by
  have hb := bytes_write h
  rw [length_leBytes] at hb
  have hv : v.toNat < 256 ^ 2 := v.toNat_lt
  rw [u16At, hb, leNat_leBytes, Nat.mod_eq_of_lt hv, UInt16.ofNat_toNat]

theorem u32At_write {m m' : M} {a : ℕ} {v : UInt32}
    (h : write m a (leBytes 4 v.toNat) = some m') : u32At m' a = v := by
  have hb := bytes_write h
  rw [length_leBytes] at hb
  have hv : v.toNat < 256 ^ 4 := v.toNat_lt
  rw [u32At, hb, leNat_leBytes, Nat.mod_eq_of_lt hv, UInt32.ofNat_toNat]

theorem u16At_agree {S : Set ℕ} {m m' : M} (h : Agree S m m') {a : ℕ}
    (hd : ∀ x, a ≤ x → x < a + 2 → x ∉ S) : u16At m' a = u16At m a := by
  rw [u16At, u16At, h.bytes_eq hd]

theorem u32At_agree {S : Set ℕ} {m m' : M} (h : Agree S m m') {a : ℕ}
    (hd : ∀ x, a ≤ x → x < a + 4 → x ∉ S) : u32At m' a = u32At m a := by
  rw [u32At, u32At, h.bytes_eq hd]

/-! ### The rings of a queue -/

namespace VirtQueue

/-- The available ring: flags, `avail.idx` and `size` heads. -/
def availArea (q : VirtQueue) : Set ℕ :=
  Set.Ico q.availGpa.toNat (q.availGpa.toNat + 4 + 2 * q.size.toNat)

/-- The used ring: flags, `used.idx` and `size` elements. -/
def usedArea (q : VirtQueue) : Set ℕ :=
  Set.Ico q.usedGpa.toNat (q.usedGpa.toNat + 4 + 8 * q.size.toNat)

/-- `avail.idx`. -/
def availIdx (q : VirtQueue) (m : M) : UInt16 := u16At m (q.availGpa.toNat + 2)

/-- A slot of the available ring. -/
def availSlot (q : VirtQueue) (m : M) (i : ℕ) : UInt16 := u16At m (q.availGpa.toNat + 4 + 2 * i)

/-- `used.idx`. -/
def usedIdx (q : VirtQueue) (m : M) : UInt16 := u16At m (q.usedGpa.toNat + 2)

/-- An element of the used ring: `id` and `len`. -/
def usedElem (q : VirtQueue) (m : M) (i : ℕ) : UInt32 × UInt32 :=
  (u32At m (q.usedGpa.toNat + 4 + 8 * i), u32At m (q.usedGpa.toNat + 4 + 8 * i + 4))

/-- A ready queue of power-of-two size whose rings are mapped and disjoint. -/
structure RingsOk (q : VirtQueue) (m : M) : Prop where
  ready : q.ready = true
  pow_two : ∃ k ≤ 8, q.size.toNat = 2 ^ k
  avail_mapped : mapped m q.availGpa.toNat (4 + 2 * q.size.toNat) = true
  used_mapped : mapped m q.usedGpa.toNat (4 + 8 * q.size.toNat) = true
  disjoint : Disjoint q.availArea q.usedArea

/-- The guest driver publishes a head: it writes the next ring slot and then advances
`avail.idx`. -/
def publish (q : VirtQueue) (m : M) (head : UInt16) : Option M := do
  let idx ← readU16 m (q.availGpa.toNat + 2)
  let m ← write m (q.availGpa.toNat + 4 + 2 * (idx.toNat % q.size.toNat)) (leBytes 2 head.toNat)
  write m (q.availGpa.toNat + 2) (leBytes 2 (idx + 1).toNat)

end VirtQueue

/-! ### Runs -/

/-- Guest and device, with the history of what was published, popped and pushed.  `inflight` are
the heads popped and not yet pushed. -/
structure World (M : Type) where
  queue : VirtQueue
  mem : M
  inflight : List UInt16 := []
  published : List UInt16 := []
  popped : List UInt16 := []
  pushed : List (UInt16 × UInt32) := []

/-- One step of the guest or of the device.  At most `size` heads are outstanding: published and
not yet in the used ring. -/
inductive Step : World M → World M → Prop
  | publish {w : World M} {m' : M} (head : UInt16)
      (room : w.published.length < w.pushed.length + w.queue.size.toNat)
      (h : w.queue.publish w.mem head = some m') :
      Step w { w with mem := m', published := w.published ++ [head] }
  | pop {w : World M} {chain : DescriptorChain} {q' : VirtQueue}
      (h : w.queue.popChain w.mem = some (chain, q')) :
      Step w { w with queue := q', inflight := w.inflight ++ [chain.headIdx]
                      popped := w.popped ++ [chain.headIdx] }
  | popNone {w : World M} (h : w.queue.popChain w.mem = none) : Step w w
  | push {w : World M} {head : UInt16} {rest : List UInt16} (len : UInt32)
      (next : w.inflight = head :: rest) :
      Step w { w with mem := w.queue.pushUsed w.mem head len, inflight := rest
                      pushed := w.pushed ++ [(head, len)] }
  | access {w : World M} {m' : M}
      (h : Agree (w.queue.availArea ∪ w.queue.usedArea)ᶜ w.mem m') :
      Step w { w with mem := m' }

/-- The used-ring element of a pushed chain. -/
def elemOf (p : UInt16 × UInt32) : UInt32 × UInt32 := (p.1.toUInt32, p.2)

/-- What every run from `(q₀, m₀)` keeps. -/
structure Inv (q₀ : VirtQueue) (m₀ : M) (w : World M) : Prop where
  queue_eq : w.queue =
    { q₀ with lastAvailIdx := UInt16.ofNat (q₀.lastAvailIdx.toNat + w.popped.length) }
  mapped_eq : mapped w.mem = mapped m₀
  avail_idx : q₀.availIdx w.mem = UInt16.ofNat (q₀.lastAvailIdx.toNat + w.published.length)
  fifo : w.popped <+: w.published
  room : w.published.length ≤ w.popped.length + q₀.size.toNat
  avail_ring : Holds (q₀.availSlot w.mem) q₀.size.toNat q₀.lastAvailIdx.toNat w.published
    w.popped.length
  pushed_eq : w.pushed.map Prod.fst ++ w.inflight = w.popped
  used_idx : q₀.usedIdx w.mem = UInt16.ofNat ((q₀.usedIdx m₀).toNat + w.pushed.length)
  used_ring : Holds (q₀.usedElem w.mem) q₀.size.toNat (q₀.usedIdx m₀).toNat
    (w.pushed.map elemOf) (w.pushed.length - q₀.size.toNat)

namespace VirtQueue.RingsOk

variable {q : VirtQueue} {m : M} (hq : q.RingsOk m)
include hq

theorem dvd : q.size.toNat ∣ 65536 := by
  obtain ⟨k, hk, hs⟩ := hq.pow_two
  rw [hs]
  exact pow_dvd_pow 2 (show k ≤ 16 by omega)

theorem not_mem_usedArea {x : ℕ} (h : x ∈ q.availArea) : x ∉ q.usedArea :=
  fun hx => Set.disjoint_left.1 hq.disjoint h hx

theorem not_mem_availArea {x : ℕ} (h : x ∈ q.usedArea) : x ∉ q.availArea :=
  fun hx => Set.disjoint_left.1 hq.disjoint hx h

end VirtQueue.RingsOk

theorem slot_ofNat {q : VirtQueue} {m : M} (hq : q.RingsOk m) (n : ℕ) :
    (UInt16.ofNat n).toNat % q.size.toNat = n % q.size.toNat := by
  rw [UInt16.toNat_ofNat']
  exact slot_mod hq.dvd n

/-! ### What the operations do to the rings -/

/-- Publishing changes the available ring only: the next slot and `avail.idx`. -/
theorem publish_spec {q : VirtQueue} {m m' : M} {head : UInt16}
    (h : q.publish m head = some m') :
    Agree q.availArea m m' ∧ q.availIdx m' = q.availIdx m + 1 ∧
      q.availSlot m' ((q.availIdx m).toNat % q.size.toNat) = head ∧
      ∀ i < q.size.toNat, i ≠ (q.availIdx m).toNat % q.size.toNat →
        q.availSlot m' i = q.availSlot m i := by
  simp only [VirtQueue.publish, Option.bind_eq_bind, Option.bind_eq_some_iff] at h
  obtain ⟨idx, hidx, m₁, h₁, h₂⟩ := h
  obtain ⟨-, rfl⟩ := readU16_eq_some hidx
  change write m (q.availGpa.toNat + 4 + 2 * ((q.availIdx m).toNat % q.size.toNat)) _ = some m₁
    at h₁
  have hslot := q.slot_lt (q.availIdx m).toNat
  have ha₁ := agree_write h₁
  have ha₂ := agree_write h₂
  rw [length_leBytes] at ha₁ ha₂
  -- the second write leaves the slots alone
  have hkeep : ∀ i, q.availSlot m' i = q.availSlot m₁ i := fun i =>
    u16At_agree ha₂ fun x hx _ hmem => by
      have := hmem.2
      omega
  refine ⟨?_, u16At_write h₂, ?_, fun i hi hne => ?_⟩
  · refine (ha₁.mono fun x hx => ?_).trans (ha₂.mono fun x hx => ?_)
    · exact ⟨by have := hx.1; omega, by have := hx.2; omega⟩
    · exact ⟨by have := hx.1; omega, by have := hx.2; omega⟩
  · rw [hkeep]
    exact u16At_write h₁
  · rw [hkeep]
    apply u16At_agree ha₁
    intro x hx₁ hx₂ hmem
    have h₁ := hmem.1
    have h₂ := hmem.2
    omega

/-- A push on a mapped used ring writes the next element and advances `used.idx`. -/
theorem pushUsed_spec {q : VirtQueue} {m : M}
    (hm : mapped m q.usedGpa.toNat (4 + 8 * q.size.toNat) = true) (head : UInt16) (len : UInt32) :
    q.usedIdx (q.pushUsed m head len) = q.usedIdx m + 1 ∧
      q.usedElem (q.pushUsed m head len) ((q.usedIdx m).toNat % q.size.toNat) =
        elemOf (head, len) ∧
      ∀ i < q.size.toNat, i ≠ (q.usedIdx m).toNat % q.size.toNat →
        q.usedElem (q.pushUsed m head len) i = q.usedElem m i := by
  have hslot := q.slot_lt (q.usedIdx m).toNat
  have hlt := mapped_lt m _ _ hm (by omega)
  set slot := (q.usedIdx m).toNat % q.size.toNat with hslotdef
  have hsub : ∀ (m' : M) (a k : ℕ), mapped m' = mapped m → q.usedGpa.toNat ≤ a →
      a + k ≤ q.usedGpa.toNat + 4 + 8 * q.size.toNat → mapped m' a k = true := by
    intro m' a k hm' h₁ h₂
    rw [hm']
    exact mapped_sub m _ _ a k hm h₁ (by omega)
  have hc₁ : checkedAdd q.usedGpa.toNat 2 = some (q.usedGpa.toNat + 2) :=
    checkedAdd_eq_some.2 ⟨by omega, rfl⟩
  have hc₂ : checkedAdd q.usedGpa.toNat 4 = some (q.usedGpa.toNat + 4) :=
    checkedAdd_eq_some.2 ⟨by omega, rfl⟩
  have hc₃ : checkedAdd (q.usedGpa.toNat + 4) (slot * 8) =
      some (q.usedGpa.toNat + 4 + slot * 8) := checkedAdd_eq_some.2 ⟨by omega, rfl⟩
  have hc₄ : checkedAdd (q.usedGpa.toNat + 4 + slot * 8) 4 =
      some (q.usedGpa.toNat + 4 + slot * 8 + 4) := checkedAdd_eq_some.2 ⟨by omega, rfl⟩
  have hread : readU16 m (q.usedGpa.toNat + 2) = some (q.usedIdx m) :=
    readU16_of_mapped (hsub m _ _ rfl (by omega) (by omega))
  -- the three writes of the source, in order
  obtain ⟨m₁, h₁⟩ := exists_write (m := m) (a := q.usedGpa.toNat + 4 + slot * 8)
    (d := leBytes 4 head.toNat) (by rw [length_leBytes]; exact hsub m _ _ rfl (by omega) (by omega))
  have hm₁ := mapped_write _ _ _ _ h₁
  obtain ⟨m₂, h₂⟩ := exists_write (m := m₁) (a := q.usedGpa.toNat + 4 + slot * 8 + 4)
    (d := leBytes 4 len.toNat)
    (by rw [length_leBytes]; exact hsub m₁ _ _ hm₁ (by omega) (by omega))
  have hm₂ := (mapped_write _ _ _ _ h₂).trans hm₁
  obtain ⟨m₃, h₃⟩ := exists_write (m := m₂) (a := q.usedGpa.toNat + 2)
    (d := leBytes 2 (q.usedIdx m + 1).toNat)
    (by rw [length_leBytes]; exact hsub m₂ _ _ hm₂ (by omega) (by omega))
  have hpush : q.pushUsed m head len = m₃ := by
    simp only [VirtQueue.pushUsed, hc₁, hread, ← hslotdef, hc₂, Option.bind_some, hc₃,
      put_of_write h₁, hc₄, put_of_write h₂, put_of_write h₃]
  rw [hpush]
  have ha₁ := agree_write h₁
  have ha₂ := agree_write h₂
  have ha₃ := agree_write h₃
  rw [length_leBytes] at ha₁ ha₂ ha₃
  refine ⟨u16At_write h₃, ?_, fun i hi hne => ?_⟩
  · have hid : u32At m₃ (q.usedGpa.toNat + 4 + 8 * slot) = head.toUInt32 := by
      rw [u32At_agree ha₃ (fun x hx _ hmem => by have := hmem.2; omega),
        u32At_agree ha₂ (fun x hx hx' hmem => by have := hmem.1; omega),
        show q.usedGpa.toNat + 4 + 8 * slot = q.usedGpa.toNat + 4 + slot * 8 by omega]
      exact u32At_write (v := head.toUInt32) (by simpa using h₁)
    have hlen : u32At m₃ (q.usedGpa.toNat + 4 + 8 * slot + 4) = len := by
      rw [u32At_agree ha₃ (fun x hx _ hmem => by have := hmem.2; omega),
        show q.usedGpa.toNat + 4 + 8 * slot + 4 = q.usedGpa.toNat + 4 + slot * 8 + 4 by omega]
      exact u32At_write h₂
    rw [VirtQueue.usedElem, hid, hlen]
    rfl
  · have hother : ∀ b, b = 0 ∨ b = 4 →
        u32At m₃ (q.usedGpa.toNat + 4 + 8 * i + b) = u32At m (q.usedGpa.toNat + 4 + 8 * i + b) := by
      intro b hb
      rw [u32At_agree ha₃ (fun x hx _ hmem => by have := hmem.2; omega),
        u32At_agree ha₂ (fun x hx hx' hmem => by have h₁ := hmem.1; have h₂ := hmem.2; omega),
        u32At_agree ha₁ (fun x hx hx' hmem => by have h₁ := hmem.1; have h₂ := hmem.2; omega)]
    exact Prod.ext (hother 0 (Or.inl rfl)) (hother 4 (Or.inr rfl))

/-- On a mapped available ring a pop succeeds whenever the indices differ. -/
theorem VirtQueue.popChain_of_mapped {q : VirtQueue} {m : M} (hready : q.ready = true)
    (hmap : mapped m q.availGpa.toNat (4 + 2 * q.size.toNat) = true)
    (hne : q.lastAvailIdx ≠ q.availIdx m) :
    ∃ chain, q.popChain m = some (chain, { q with lastAvailIdx := q.lastAvailIdx + 1 }) := by
  have hlt := mapped_lt _ _ _ hmap (by omega)
  have hslot := q.slot_lt q.lastAvailIdx.toNat
  have hread : ∀ a, q.availGpa.toNat ≤ a →
      a + 2 ≤ q.availGpa.toNat + (4 + 2 * q.size.toNat) → readU16 m a = some (u16At m a) :=
    fun a h₁ h₂ => readU16_of_mapped (mapped_sub _ _ _ a 2 hmap h₁ h₂)
  have hc₁ : checkedAdd q.availGpa.toNat 2 = some (q.availGpa.toNat + 2) :=
    checkedAdd_eq_some.2 ⟨by omega, rfl⟩
  have hc₂ : checkedAdd q.availGpa.toNat 4 = some (q.availGpa.toNat + 4) :=
    checkedAdd_eq_some.2 ⟨by omega, rfl⟩
  have hc₃ : checkedAdd (q.availGpa.toNat + 4) (q.lastAvailIdx.toNat % q.size.toNat * 2) =
      some (q.availGpa.toNat + 4 + q.lastAvailIdx.toNat % q.size.toNat * 2) :=
    checkedAdd_eq_some.2 ⟨by omega, rfl⟩
  have hr₁ := hread (q.availGpa.toNat + 2) (by omega) (by omega)
  have hr₂ := hread (q.availGpa.toNat + 4 + q.lastAvailIdx.toNat % q.size.toNat * 2) (by omega)
    (by omega)
  have hne' : ¬ q.lastAvailIdx = u16At m (q.availGpa.toNat + 2) := hne
  simp [VirtQueue.popChain, hready, hc₁, hc₂, hc₃, hr₁, hr₂, hne']

theorem VirtQueue.usedRing_subset (q : VirtQueue) : q.usedRing ⊆ q.usedArea :=
  fun _ hx => ⟨by have := hx.1; omega, hx.2⟩

theorem availIdx_agree {q : VirtQueue} {S : Set ℕ} {m m' : M} (h : Agree S m m')
    (hd : ∀ x ∈ q.availArea, x ∉ S) : q.availIdx m' = q.availIdx m := by
  have hs := q.size_pos
  exact u16At_agree h fun x h₁ h₂ => hd x ⟨by omega, by omega⟩

theorem availSlot_agree {q : VirtQueue} {S : Set ℕ} {m m' : M} (h : Agree S m m')
    (hd : ∀ x ∈ q.availArea, x ∉ S) {i : ℕ} (hi : i < q.size.toNat) :
    q.availSlot m' i = q.availSlot m i :=
  u16At_agree h fun x h₁ h₂ => hd x ⟨by omega, by omega⟩

theorem usedIdx_agree {q : VirtQueue} {S : Set ℕ} {m m' : M} (h : Agree S m m')
    (hd : ∀ x ∈ q.usedArea, x ∉ S) : q.usedIdx m' = q.usedIdx m := by
  have hs := q.size_pos
  exact u16At_agree h fun x h₁ h₂ => hd x ⟨by omega, by omega⟩

theorem usedElem_agree {q : VirtQueue} {S : Set ℕ} {m m' : M} (h : Agree S m m')
    (hd : ∀ x ∈ q.usedArea, x ∉ S) {i : ℕ} (hi : i < q.size.toNat) :
    q.usedElem m' i = q.usedElem m i :=
  Prod.ext (u32At_agree h fun x h₁ h₂ => hd x ⟨by omega, by omega⟩)
    (u32At_agree h fun x h₁ h₂ => hd x ⟨by omega, by omega⟩)

/-! ### Every step keeps the invariant -/

section Steps

variable {q₀ : VirtQueue} {m₀ : M} {w : World M}

theorem Inv.publish (hq : q₀.RingsOk m₀) (hI : Inv q₀ m₀ w) {m' : M} {head : UInt16}
    (room : w.published.length < w.pushed.length + w.queue.size.toNat)
    (h : w.queue.publish w.mem head = some m') :
    Inv q₀ m₀ { w with mem := m', published := w.published ++ [head] } := by
  rw [hI.queue_eq] at room h
  change w.published.length < w.pushed.length + q₀.size.toNat at room
  obtain ⟨hag, hidx, hslot, hkeep⟩ := publish_spec (q := q₀) h
  have hpl : w.pushed.length ≤ w.popped.length := by
    rw [← hI.pushed_eq]
    simp
  have hlt : w.published.length < w.popped.length + q₀.size.toNat := by omega
  have hused : ∀ x ∈ q₀.usedArea, x ∉ q₀.availArea := fun _ => hq.not_mem_availArea
  rw [hI.avail_idx, slot_ofNat hq] at hslot hkeep
  exact {
    queue_eq := hI.queue_eq
    mapped_eq := hag.mapped_eq.trans hI.mapped_eq
    avail_idx := by
      show q₀.availIdx m' = _
      rw [hidx, hI.avail_idx, List.length_append, List.length_singleton, ← Nat.add_assoc]
      exact (UInt16.ofNat_add _ _).symm
    fifo := hI.fifo.trans (List.prefix_append _ _)
    room := by
      show (w.published ++ [head]).length ≤ w.popped.length + q₀.size.toNat
      rw [List.length_append, List.length_singleton]
      omega
    avail_ring := hI.avail_ring.push q₀.size_pos hlt hslot hkeep
    pushed_eq := hI.pushed_eq
    used_idx := by
      show q₀.usedIdx m' = _
      rw [usedIdx_agree hag hused]
      exact hI.used_idx
    used_ring := hI.used_ring.congr q₀.size_pos fun i hi => usedElem_agree hag hused hi }

/-- The two free-running indices differ by the number of heads that wait to be popped, which is
far below `2^16`. -/
theorem Inv.idx_eq_iff (hI : Inv q₀ m₀ w) :
    w.queue.lastAvailIdx = q₀.availIdx w.mem ↔ w.popped.length = w.published.length := by
  have hle := hI.fifo.length_le
  have hroom := hI.room
  have hsize := q₀.size_le
  rw [hI.queue_eq, hI.avail_idx]
  constructor
  · intro h
    have h' := congrArg UInt16.toNat h
    simp only [UInt16.toNat_ofNat'] at h'
    omega
  · intro h
    rw [h]

theorem Inv.pop (hq : q₀.RingsOk m₀) (hI : Inv q₀ m₀ w) {chain : DescriptorChain}
    {q' : VirtQueue} (h : w.queue.popChain w.mem = some (chain, q')) :
    Inv q₀ m₀ { w with queue := q', inflight := w.inflight ++ [chain.headIdx]
                       popped := w.popped ++ [chain.headIdx] } := by
  obtain ⟨availIdx, headIdx, -, hidx, hne, hhead, rfl, rfl⟩ := VirtQueue.popChain_eq_some h
  have hle := hI.fifo.length_le
  have hlt : w.popped.length < w.published.length := by
    refine lt_of_le_of_ne hle fun heq => hne ?_
    rw [hI.idx_eq_iff.2 heq, (readU16_eq_some hidx).2, hI.queue_eq]
    rfl
  -- the head read from the slot is the first head published and not yet popped
  have hval : headIdx = w.published[w.popped.length] := by
    have hring := hI.avail_ring w.popped.length _ le_rfl (List.getElem?_eq_getElem hlt)
    rw [← hring, (readU16_eq_some hhead).2, hI.queue_eq]
    simp only [VirtQueue.availSlot, slot_ofNat hq]
    rw [Nat.mul_comm]
  have hpre : w.popped ++ [headIdx] <+: w.published := by
    obtain ⟨rest, hrest⟩ := hI.fifo
    have hget : w.published[w.popped.length] = headIdx := hval.symm
    cases rest with
    | nil =>
      rw [List.append_nil] at hrest
      rw [hrest] at hlt
      omega
    | cons r rest =>
      have hr : r = headIdx := by
        rw [← hget]
        simp [← hrest]
      exact ⟨rest, by rw [← hrest, hr, List.append_assoc]; rfl⟩
  exact {
    queue_eq := by
      show ({ w.queue with lastAvailIdx := w.queue.lastAvailIdx + 1 } : VirtQueue) = _
      rw [hI.queue_eq]
      simp only [List.length_append, List.length_singleton, ← Nat.add_assoc]
      congr 1
      exact (UInt16.ofNat_add _ _).symm
    mapped_eq := hI.mapped_eq
    avail_idx := hI.avail_idx
    fifo := hpre
    room := by
      have := hI.room
      show w.published.length ≤ (w.popped ++ [headIdx]).length + q₀.size.toNat
      rw [List.length_append]
      omega
    avail_ring := hI.avail_ring.mono (by simp)
    pushed_eq := by
      show w.pushed.map Prod.fst ++ (w.inflight ++ [headIdx]) = w.popped ++ [headIdx]
      rw [← List.append_assoc, hI.pushed_eq]
    used_idx := hI.used_idx
    used_ring := hI.used_ring }

theorem Inv.push (hq : q₀.RingsOk m₀) (hI : Inv q₀ m₀ w) {head : UInt16} {rest : List UInt16}
    (len : UInt32) (next : w.inflight = head :: rest) :
    Inv q₀ m₀ { w with mem := w.queue.pushUsed w.mem head len, inflight := rest
                       pushed := w.pushed ++ [(head, len)] } := by
  have hsame : w.queue.pushUsed w.mem head len = q₀.pushUsed w.mem head len := by
    rw [hI.queue_eq]
    rfl
  have hag := q₀.agree_pushUsed w.mem head len
  have hm : mapped w.mem q₀.usedGpa.toNat (4 + 8 * q₀.size.toNat) = true := by
    rw [hI.mapped_eq]
    exact hq.used_mapped
  obtain ⟨hidx, helem, hkeep⟩ := pushUsed_spec hm head len
  have havail : ∀ x ∈ q₀.availArea, x ∉ q₀.usedRing :=
    fun _ hx hu => hq.not_mem_usedArea hx (q₀.usedRing_subset hu)
  have hlen : (w.pushed.map elemOf).length = w.pushed.length := List.length_map _
  rw [hI.used_idx, slot_ofNat hq] at helem hkeep
  rw [hsame]
  exact {
    queue_eq := hI.queue_eq
    mapped_eq := hag.mapped_eq.trans hI.mapped_eq
    avail_idx := by
      show q₀.availIdx (q₀.pushUsed w.mem head len) = _
      rw [availIdx_agree hag havail]
      exact hI.avail_idx
    fifo := hI.fifo
    room := hI.room
    avail_ring := hI.avail_ring.congr q₀.size_pos fun i hi => availSlot_agree hag havail hi
    pushed_eq := by
      have hp := hI.pushed_eq
      rw [next] at hp
      simpa using hp
    used_idx := by
      show q₀.usedIdx (q₀.pushUsed w.mem head len) = _
      rw [hidx, hI.used_idx, List.length_append, List.length_singleton, ← Nat.add_assoc]
      exact (UInt16.ofNat_add _ _).symm
    used_ring := by
      show Holds _ _ _ ((w.pushed ++ [(head, len)]).map elemOf) _
      rw [List.map_append, List.length_append, List.length_singleton]
      have hmono : Holds _ _ _ _ (w.pushed.length + 1 - q₀.size.toNat) :=
        hI.used_ring.mono (by omega)
      have hpos := q₀.size_pos
      refine hmono.push hpos (by omega) ?_ ?_
      · rw [hlen]
        exact helem
      · rw [hlen]
        exact hkeep }

theorem Inv.access (hI : Inv q₀ m₀ w) {m' : M}
    (h : Agree (w.queue.availArea ∪ w.queue.usedArea)ᶜ w.mem m') :
    Inv q₀ m₀ { w with mem := m' } := by
  have hag : Agree (q₀.availArea ∪ q₀.usedArea)ᶜ w.mem m' := by
    rw [hI.queue_eq] at h
    exact h
  have havail : ∀ x ∈ q₀.availArea, x ∉ (q₀.availArea ∪ q₀.usedArea)ᶜ :=
    fun _ hx hn => hn (Or.inl hx)
  have hused : ∀ x ∈ q₀.usedArea, x ∉ (q₀.availArea ∪ q₀.usedArea)ᶜ :=
    fun _ hx hn => hn (Or.inr hx)
  exact {
    queue_eq := hI.queue_eq
    mapped_eq := hag.mapped_eq.trans hI.mapped_eq
    avail_idx := (availIdx_agree hag havail).trans hI.avail_idx
    fifo := hI.fifo
    room := hI.room
    avail_ring := hI.avail_ring.congr q₀.size_pos fun i hi => availSlot_agree hag havail hi
    pushed_eq := hI.pushed_eq
    used_idx := (usedIdx_agree hag hused).trans hI.used_idx
    used_ring := hI.used_ring.congr q₀.size_pos fun i hi => usedElem_agree hag hused hi }

theorem Inv.step (hq : q₀.RingsOk m₀) (hI : Inv q₀ m₀ w) {w' : World M} (h : Step w w') :
    Inv q₀ m₀ w' := by
  cases h with
  | publish head room h => exact hI.publish hq room h
  | pop h => exact hI.pop hq h
  | popNone h => exact hI
  | push len next => exact hI.push hq len next
  | access h => exact hI.access h

end Steps

/-- The start: an empty queue, nothing published yet. -/
theorem inv_start {q : VirtQueue} {m : M} (hempty : q.lastAvailIdx = q.availIdx m) :
    Inv q m { queue := q, mem := m } where
  queue_eq := by simp
  mapped_eq := rfl
  avail_idx := by simp [hempty]
  fifo := List.prefix_rfl
  room := by simp
  avail_ring := fun k v _ hv => by simp at hv
  pushed_eq := rfl
  used_idx := by simp
  used_ring := fun k v _ hv => by simp at hv

theorem inv_of_run {q : VirtQueue} {m : M} (hq : q.RingsOk m)
    (hempty : q.lastAvailIdx = q.availIdx m) {w : World M}
    (hrun : ReflTransGen Step { queue := q, mem := m } w) : Inv q m w := by
  induction hrun with
  | refl => exact inv_start hempty
  | tail _ hstep ih => exact ih.step hq hstep

/-- A turn of the queue loop is a run: it pops a chain, accesses the buffers and pushes the head
it popped. -/
theorem run_of_drainStep {σ : Type} {serve : σ → DescriptorChain → M → Served σ M}
    {s s' : LoopState σ M} (h : drainStep serve s = some s') (w : World M)
    (hq : w.queue = s.queue) (hm : w.mem = s.mem) (hidle : w.inflight = [])
    (hserve : ∀ chain, Agree (s.queue.availArea ∪ s.queue.usedArea)ᶜ s.mem
      (serve s.dev chain s.mem).mem) :
    ∃ w', ReflTransGen Step w w' ∧ w'.queue = s'.queue ∧ w'.mem = s'.mem ∧ w'.inflight = [] := by
  obtain ⟨chain, queue, hpop, rfl⟩ := drainStep_eq_some h
  obtain ⟨-, -, -, -, -, -, -, hqueue⟩ := VirtQueue.popChain_eq_some hpop
  have hpop' : Step w _ := Step.pop (by rw [hq, hm]; exact hpop)
  refine ⟨_, ((ReflTransGen.single hpop').tail
    (@Step.access _ _ _ (serve s.dev chain s.mem).mem ?_)).tail
    (@Step.push _ _ _ chain.headIdx [] (serve s.dev chain s.mem).written ?_),
    rfl, rfl, rfl⟩
  · show Agree (queue.availArea ∪ queue.usedArea)ᶜ w.mem _
    rw [hm, hqueue]
    exact hserve chain
  · show w.inflight ++ [chain.headIdx] = [chain.headIdx]
    rw [hidle, List.nil_append]

/-- On a mapped available ring the device finds nothing to pop only when nothing waits. -/
theorem Inv.popped_eq_of_popChain_eq_none {q₀ : VirtQueue} {m₀ : M} {w : World M}
    (hq : q₀.RingsOk m₀) (hI : Inv q₀ m₀ w) (h : w.queue.popChain w.mem = none) :
    w.popped = w.published := by
  refine hI.fifo.eq_of_length (hI.idx_eq_iff.1 ?_)
  by_contra hne
  have hmap : mapped w.mem q₀.availGpa.toNat (4 + 2 * q₀.size.toNat) = true := by
    rw [hI.mapped_eq]
    exact hq.avail_mapped
  have hpop := VirtQueue.popChain_of_mapped (q := w.queue) (m := w.mem)
    (by rw [hI.queue_eq]; exact hq.ready) (by rw [hI.queue_eq]; exact hmap)
    (by rw [hI.queue_eq] at hne ⊢; exact hne)
  obtain ⟨chain, hpop⟩ := hpop
  rw [hpop] at h
  cases h

/-- **A virtqueue is an exactly-once FIFO.**  In every run, the heads popped so far are the heads
published so far, in order, up to the ones that still wait; none waits when the device finds the
queue empty; the used ring gets the popped heads in the same order, one element each, in
consecutive slots; and `used.idx` counts them modulo `2^16`. -/
theorem virtqueue_fifo (q : VirtQueue) (m : M) (hq : q.RingsOk m)
    (hempty : q.lastAvailIdx = q.availIdx m) (w : World M)
    (hrun : ReflTransGen Step { queue := q, mem := m } w) :
    w.popped <+: w.published ∧
      (w.queue.popChain w.mem = none → w.popped = w.published) ∧
      (∀ chain q', w.queue.popChain w.mem = some (chain, q') →
        w.published[w.popped.length]? = some chain.headIdx) ∧
      w.pushed.map Prod.fst ++ w.inflight = w.popped ∧
      (q.usedIdx w.mem).toNat = ((q.usedIdx m).toNat + w.pushed.length) % 2 ^ 16 ∧
      ∀ k p, w.pushed.length ≤ k + q.size.toNat → w.pushed[k]? = some p →
        q.usedElem w.mem (((q.usedIdx m).toNat + k) % 2 ^ 16 % q.size.toNat) =
          (p.1.toUInt32, p.2) := by
  have hI := inv_of_run hq hempty hrun
  refine ⟨hI.fifo, hI.popped_eq_of_popChain_eq_none hq, fun chain q' h => ?_, hI.pushed_eq, ?_,
    fun k p hk hp => ?_⟩
  · obtain ⟨rest, hrest⟩ := (hI.pop hq h).fifo
    simp only at hrest
    rw [← hrest]
    simp
  · rw [hI.used_idx, UInt16.toNat_ofNat']
  · have hdvd : q.size.toNat ∣ 2 ^ 16 := hq.dvd
    rw [slot_mod hdvd]
    exact hI.used_ring k (elemOf p) (by omega) (by rw [List.getElem?_map, hp]; rfl)

/-- A queue of four entries whose indices are about to wrap. -/
def wrapQueue : VirtQueue where
  size := 4
  descGpa := 256
  availGpa := 0
  usedGpa := 64
  lastAvailIdx := 65535
  ready := true
  size_pos := VirtQueue.four_pos
  size_le := VirtQueue.four_le

/-- Memory in which both indices of `wrapQueue` are 65535. -/
def wrapMemory : Vmm.MappedMemory :=
  Vmm.MappedMemory.ram 4096 Vmm.MappedMemory.page_pos fun i => if i ∈ [2, 3, 66, 67] then 255 else 0

/-- Memory after the guest has published head 3. -/
def wrapPublished : Vmm.MappedMemory := (wrapQueue.publish wrapMemory 3).getD wrapMemory

/-- One head goes round the queue while both indices wrap. -/
theorem virtqueue_fifo_wrap : ∃ w : World Vmm.MappedMemory,
    ReflTransGen Step { queue := wrapQueue, mem := wrapMemory } w ∧
      w.published = [3] ∧ w.popped = [3] ∧ w.pushed = [(3, 7)] ∧
      wrapQueue.usedElem w.mem 3 = (3, 7) ∧ (wrapQueue.usedIdx w.mem).toNat = 0 := by
  have hq : wrapQueue.RingsOk wrapMemory :=
    { ready := rfl
      pow_two := ⟨2, by decide, rfl⟩
      avail_mapped := by decide
      used_mapped := by decide
      disjoint := by
        refine Set.disjoint_left.2 fun x hx hx' => ?_
        have h₁ : x < 12 := hx.2
        have h₂ : 64 ≤ x := hx'.1
        omega }
  have hempty : wrapQueue.lastAvailIdx = wrapQueue.availIdx wrapMemory := by decide
  have hpub : wrapQueue.publish wrapMemory 3 = some wrapPublished := by
    have hsome : (wrapQueue.publish wrapMemory 3).isSome = true := by decide
    rw [wrapPublished, Option.getD_of_ne_none (Option.isSome_iff_ne_none.1 hsome)]
  have hpop : (wrapQueue.popChain wrapPublished).map (fun p => p.1.headIdx) = some 3 := by decide
  obtain ⟨⟨chain, q'⟩, hpop, hhead⟩ := Option.map_eq_some_iff.1 hpop
  dsimp only at hhead
  have hrun := ((ReflTransGen.single (Step.publish (w := { queue := wrapQueue, mem := wrapMemory })
    3 (by decide) hpub)).tail (Step.pop hpop)).tail (@Step.push _ _ _ chain.headIdx _ 7 rfl)
  obtain ⟨-, -, -, -, hidx, helem⟩ := virtqueue_fifo _ _ hq hempty _ hrun
  refine ⟨_, hrun, rfl, by rw [← hhead]; rfl, by rw [← hhead]; rfl, ?_, ?_⟩
  · have h := helem 0 (chain.headIdx, 7) (show 1 ≤ 0 + 4 by decide) rfl
    have hslot :
        ((wrapQueue.usedIdx wrapMemory).toNat + 0) % 2 ^ 16 % wrapQueue.size.toNat = 3 := by
      decide
    rw [hslot] at h
    have helem : (chain.headIdx.toUInt32, (7 : UInt32)) = (3, 7) := by rw [hhead]; rfl
    exact h.trans helem
  · have hlast : ((wrapQueue.usedIdx wrapMemory).toNat + 1) % 2 ^ 16 = 0 := by decide
    exact hidx.trans hlast

end Hitz.Devices

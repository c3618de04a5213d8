import Hitz.Lib.Runs
import Hitz.Vmm.SerialBuf

/-!
# Waking the readers of the serial console

`write` and `close` change the ring under its lock and notify the readers after releasing it, on a
watch channel: a version that every send increases.  A reader looks at the ring under the lock and,
finding nothing, waits in `changed()` until the version differs from the one it has seen.

* `Console`, `ConsoleStep`, `step`: the atomic steps of any number of writers, closers and readers,
  in any order.  A reader's receiver is a clone of the buffer's own, which never waits and so has
  seen only the first version;
* `WakeInv`: at a version it has seen, a waiting reader misses only what has not been announced;
* `no_lost_wakeup`: in every state of every run.

A write past `2^64` bytes panics and poisons the lock; the later calls then take their error paths.
-/

namespace Hitz.Vmm

/-- A call that has released the lock and not sent its notification yet: a write, with the stream
position after its bytes, or a close. -/
inductive Unsent
  | write (stop : ℕ)
  | close
  deriving DecidableEq, Repr

/-- Where a reader is: in `reader()` with its position read and the receiver not cloned yet,
between calls, at the top of the loop of `read_chunk`, or in `changed()`. -/
inductive ReaderPhase
  | creating
  | idle
  | checking
  | waiting
  deriving DecidableEq, Repr

/-- A reader: its position in the stream and the version its receiver has seen. -/
structure ReaderTask where
  readPos : ℕ
  seen : ℕ
  phase : ReaderPhase
  deriving DecidableEq, Repr

/-- The buffer, its channel, the calls in flight and the readers. -/
structure Console where
  inner : Inner
  poisoned : Bool
  /-- The version of the watch channel. -/
  version : ℕ
  /-- What the buffer's own receiver has seen. -/
  sharedSeen : ℕ
  unsent : List Unsent
  readers : List ReaderTask
  /-- The last `SerialBuf`, and with it the last sender, is gone. -/
  dropped : Bool
  deriving DecidableEq, Repr

/-- The atomic steps of a reader. -/
inductive ReaderStep
  | clone
  | call
  | check
  | changed
  | cancel
  deriving DecidableEq, Repr

/-- The atomic steps: the lock sections of `write`, `close` and `reader`, a send, a reader's step,
and dropping the last handle. -/
inductive ConsoleStep
  | write (data : List UInt8)
  | close
  | send (k : ℕ)
  | reader
  | read (i : ℕ) (s : ReaderStep)
  | drop
  deriving DecidableEq, Repr

/-- A reader's step in a console.  A step that is not due leaves the reader alone. -/
def ReaderTask.advance (c : Console) (r : ReaderTask) : ReaderStep → ReaderTask
  | .clone => if r.phase = .creating then { r with seen := c.sharedSeen, phase := .idle } else r
  | .call => if r.phase = .idle then { r with phase := .checking } else r
  | .check =>
    if r.phase = .checking then
      if c.poisoned then { r with phase := .idle }
      else
        match c.inner.readChunk r.readPos with
        | (.chunk _, pos) => { r with readPos := pos, phase := .idle }
        | (.closed, pos) => { r with readPos := pos, phase := .idle }
        | (.park, pos) => { r with readPos := pos, phase := .waiting }
    else r
  | .changed =>
    if r.phase = .waiting then
      if c.version ≠ r.seen then { r with seen := c.version, phase := .checking }
      else if c.dropped then { r with phase := .idle }
      else r
    else r
  | .cancel => if r.phase = .waiting then { r with phase := .idle } else r

namespace Console

/-- A new buffer. -/
def withCapacity (capacity : ℕ) : Console where
  inner := Inner.withCapacity capacity
  poisoned := false
  version := 0
  sharedSeen := 0
  unsent := []
  readers := []
  dropped := false

/-- One atomic step. -/
def step (c : Console) : ConsoleStep → Console
  | .write data =>
    if c.dropped || c.poisoned then c
    else
      match c.inner.write data with
      | none => { c with poisoned := true }
      | some inner =>
        { c with inner := inner, unsent := c.unsent ++ [.write inner.totalWritten] }
  | .close =>
    if c.dropped then c
    else
      { c with
        inner := if c.poisoned then c.inner else c.inner.close
        unsent := c.unsent ++ [.close] }
  | .send k =>
    if k < c.unsent.length then
      { c with version := c.version + 1, unsent := c.unsent.eraseIdx k }
    else c
  | .reader =>
    if c.dropped then c
    else
      { c with
        readers := c.readers ++
          [⟨if c.poisoned then 0 else c.inner.totalWritten, 0, .creating⟩] }
  | .read i s => { c with readers := c.readers.modify i fun r => r.advance c s }
  | .drop =>
    if c.unsent = [] ∧ ∀ r ∈ c.readers, r.phase ≠ .creating then { c with dropped := true } else c

/-- A write whose bytes the reader has not read is still to be announced. -/
def WriteUnsent (c : Console) (r : ReaderTask) : Prop :=
  ∃ stop, Unsent.write stop ∈ c.unsent ∧ r.readPos < stop

/-- A reader waiting in `changed()` with something to see is woken by the present version, or the
call that put it there has still to send. -/
def NoLostWakeup (c : Console) : Prop :=
  ∀ r ∈ c.readers, r.phase = .waiting → r.readPos < c.inner.totalWritten ∨ c.inner.closed = true →
    c.version ≠ r.seen ∨ ((r.readPos < c.inner.totalWritten → c.WriteUnsent r) ∧
      (c.inner.closed = true → Unsent.close ∈ c.unsent))

/-- What every step keeps. -/
structure WakeInv (c : Console) : Prop where
  shared_le : c.sharedSeen ≤ c.version
  seen_le : ∀ r ∈ c.readers, r.seen ≤ c.version
  waiting : ∀ r ∈ c.readers, r.phase = .waiting → r.seen = c.version →
    (r.readPos < c.inner.totalWritten → c.WriteUnsent r) ∧
      (c.inner.closed = true → Unsent.close ∈ c.unsent)

theorem WakeInv.noLostWakeup {c : Console} (h : c.WakeInv) : c.NoLostWakeup := by
  intro r hr hwait _
  by_cases hseen : c.version = r.seen
  · exact Or.inr (h.waiting r hr hwait hseen.symm)
  · exact Or.inl hseen

theorem wakeInv_withCapacity (capacity : ℕ) : (withCapacity capacity).WakeInv :=
  ⟨le_rfl, by simp [withCapacity], by simp [withCapacity]⟩

/-! ### One step -/

theorem write_total {inner inner' : Inner} {data : List UInt8}
    (h : inner.write data = some inner') :
    inner'.totalWritten = inner.totalWritten + data.length ∧ inner'.closed = inner.closed := by
  unfold Inner.write at h
  dsimp only at h
  generalize (if inner.buf.length < data.length then
    data.drop (data.length - inner.buf.length) else data) = d at h
  split at h
  · split_ifs at h
    cases h
    exact ⟨rfl, rfl⟩
  · split_ifs at h
    cases h
    exact ⟨rfl, rfl⟩

/-- A reader goes to wait only when it has read everything and the buffer is open. -/
theorem readChunk_park {inner : Inner} {p pos : ℕ} (h : inner.readChunk p = (.park, pos)) :
    pos = p ∧ inner.totalWritten ≤ p ∧ inner.closed = false := by
  unfold Inner.readChunk at h
  split_ifs at h with hlt hclosed
  · cases h
  · cases h
  · cases h
    exact ⟨rfl, by omega, by simpa using hclosed⟩

/-- What a reader's step does to the receiver, and when it begins or goes on to wait. -/
theorem advance_cases (c : Console) (r : ReaderTask) (s : ReaderStep) :
    ((r.advance c s).seen = r.seen ∨ (r.advance c s).seen = c.sharedSeen ∨
      (r.advance c s).seen = c.version) ∧
    ((r.advance c s).phase = .waiting →
      r.advance c s = r ∨ (c.inner.totalWritten ≤ (r.advance c s).readPos ∧
        c.inner.closed = false)) := by
  cases s with
  | clone =>
    by_cases hp : r.phase = .creating
    · simp [ReaderTask.advance, hp]
    · simp [ReaderTask.advance, hp]
  | call =>
    by_cases hp : r.phase = .idle
    · simp [ReaderTask.advance, hp]
    · simp [ReaderTask.advance, hp]
  | check =>
    by_cases hp : r.phase = .checking
    · by_cases hpoison : c.poisoned = true
      · simp [ReaderTask.advance, hp, hpoison]
      · simp only [ReaderTask.advance, hp, if_true, hpoison]
        cases hread : c.inner.readChunk r.readPos with
        | mk result pos =>
          cases result with
          | chunk bytes => simp
          | closed => simp
          | park =>
            obtain ⟨rfl, hle, hopen⟩ := readChunk_park hread
            simp [hle, hopen]
    · simp [ReaderTask.advance, hp]
  | changed =>
    by_cases hp : r.phase = .waiting
    · by_cases hv : c.version ≠ r.seen
      · simp [ReaderTask.advance, hp, hv]
      · by_cases hd : c.dropped = true
        · simp [ReaderTask.advance, hp, hv, hd]
        · simp [ReaderTask.advance, hp, hv, hd]
    · simp [ReaderTask.advance, hp]
  | cancel =>
    by_cases hp : r.phase = .waiting
    · simp [ReaderTask.advance, hp]
    · simp [ReaderTask.advance, hp]

/-- Readers are untouched, the version stays, and what is new to see is in flight. -/
theorem WakeInv.publish {c c' : Console} (h : c.WakeInv) (hr : c'.readers = c.readers)
    (hv : c'.version = c.version) (hs : c'.sharedSeen = c.sharedSeen)
    (hu : ∀ u ∈ c.unsent, u ∈ c'.unsent)
    (ht : c'.inner.totalWritten = c.inner.totalWritten ∨
      Unsent.write c'.inner.totalWritten ∈ c'.unsent)
    (hc : c'.inner.closed = c.inner.closed ∨ Unsent.close ∈ c'.unsent) : c'.WakeInv := by
  refine ⟨by rw [hs, hv]; exact h.shared_le, ?_, ?_⟩
  · intro r hmem
    rw [hr] at hmem
    rw [hv]
    exact h.seen_le r hmem
  · intro r hmem hwait hseen
    rw [hr] at hmem
    rw [hv] at hseen
    obtain ⟨hwrite, hclose⟩ := h.waiting r hmem hwait hseen
    constructor
    · intro hunread
      rcases ht with ht | ht
      · rw [ht] at hunread
        obtain ⟨stop, hmem', hstop⟩ := hwrite hunread
        exact ⟨stop, hu _ hmem', hstop⟩
      · exact ⟨_, ht, hunread⟩
    · intro hclosed
      rcases hc with hc | hc
      · rw [hc] at hclosed
        exact hu _ (hclose hclosed)
      · exact hc

/-- A send makes the version new to every reader. -/
theorem WakeInv.send {c : Console} (h : c.WakeInv) (k : ℕ) :
    WakeInv { c with version := c.version + 1, unsent := c.unsent.eraseIdx k } := by
  refine ⟨Nat.le_succ_of_le h.shared_le, fun r hr => Nat.le_succ_of_le (h.seen_le r hr), ?_⟩
  intro r hr _ hseen
  have := h.seen_le r hr
  have hseen' : r.seen = c.version + 1 := hseen
  omega

/-- A new reader is not waiting and has seen no version. -/
theorem WakeInv.reader {c : Console} (h : c.WakeInv) (p : ℕ) :
    WakeInv { c with readers := c.readers ++ [⟨p, 0, .creating⟩] } := by
  refine ⟨h.shared_le, ?_, ?_⟩
  · intro r hr
    rcases List.mem_append.1 hr with hr | hr
    · exact h.seen_le r hr
    · rw [List.mem_singleton.1 hr]
      exact Nat.zero_le _
  · intro r hr hwait hseen
    rcases List.mem_append.1 hr with hr | hr
    · exact h.waiting r hr hwait hseen
    · rw [List.mem_singleton.1 hr] at hwait
      cases hwait

/-- A reader begins to wait only with nothing to see. -/
theorem WakeInv.read {c : Console} (h : c.WakeInv) (i : ℕ) (s : ReaderStep) :
    WakeInv { c with readers := c.readers.modify i fun r => r.advance c s } := by
  -- a reader afterwards is a reader from before, or one that took this step
  have hmem : ∀ r' ∈ c.readers.modify i (fun r => r.advance c s),
      r' ∈ c.readers ∨ ∃ r ∈ c.readers, r' = r.advance c s := by
    intro r' hr'
    obtain ⟨j, hj⟩ := List.mem_iff_getElem?.1 hr'
    rw [List.getElem?_modify] at hj
    obtain ⟨r, hr, heq⟩ := Option.map_eq_some_iff.1 hj
    have hr := List.mem_of_getElem? hr
    split_ifs at heq
    · exact Or.inr ⟨r, hr, heq.symm⟩
    · exact Or.inl (heq ▸ hr)
  refine ⟨h.shared_le, ?_, ?_⟩
  · intro r' hr'
    rcases hmem r' hr' with hr | ⟨r, hr, rfl⟩
    · exact h.seen_le r' hr
    · rcases (advance_cases c r s).1 with hseen | hseen | hseen
      · rw [hseen]
        exact h.seen_le r hr
      · rw [hseen]
        exact h.shared_le
      · exact hseen.le
  · intro r' hr' hwait hseen
    rcases hmem r' hr' with hr | ⟨r, hr, rfl⟩
    · exact h.waiting r' hr hwait hseen
    · rcases (advance_cases c r s).2 hwait with heq | ⟨hall, hopen⟩
      · rw [heq] at hwait hseen ⊢
        exact h.waiting r hr hwait hseen
      · constructor
        · intro hunread
          have hunread' : (r.advance c s).readPos < c.inner.totalWritten := hunread
          omega
        · intro hclosed
          have hclosed' : c.inner.closed = true := hclosed
          rw [hopen] at hclosed'
          cases hclosed'

/-- Every step keeps the invariant. -/
theorem WakeInv.step {c : Console} (h : c.WakeInv) (e : ConsoleStep) : (c.step e).WakeInv := by
  cases e with
  | write data =>
    unfold Console.step
    dsimp only
    split_ifs
    · exact h
    · cases hw : c.inner.write data with
      | none => exact ⟨h.shared_le, h.seen_le, h.waiting⟩
      | some inner =>
        exact h.publish rfl rfl rfl (fun u hu => List.mem_append_left _ hu)
          (Or.inr (by simp)) (Or.inl (write_total hw).2)
  | close =>
    unfold Console.step
    dsimp only
    split_ifs
    · exact h
    · exact h.publish rfl rfl rfl (fun u hu => List.mem_append_left _ hu) (Or.inl rfl)
        (Or.inr (by simp))
    · exact h.publish rfl rfl rfl (fun u hu => List.mem_append_left _ hu) (Or.inl rfl)
        (Or.inr (by simp))
  | send k =>
    unfold Console.step
    dsimp only
    split_ifs
    · exact h.send k
    · exact h
  | reader =>
    unfold Console.step
    dsimp only
    split_ifs
    · exact h
    · exact h.reader _
    · exact h.reader _
  | read i s => exact h.read i s
  | drop =>
    unfold Console.step
    dsimp only
    split_ifs
    · exact ⟨h.shared_le, h.seen_le, h.waiting⟩
    · exact h

/-! ### Every run -/

/-- **No lost wakeup.**  Whatever the order of the steps of writers, closers and readers, a reader
that waits with something to see is woken by the present version or by a call still in flight. -/
theorem no_lost_wakeup (capacity : ℕ) (steps : List ConsoleStep) :
    Runs.Always step (withCapacity capacity) NoLostWakeup steps := by
  have hgood : Runs.EachStep step (withCapacity capacity) (fun _ _ => True) steps :=
    fun _ _ _ _ => trivial
  have hinv : Runs.Always step (withCapacity capacity) WakeInv steps :=
    hgood.always (wakeInv_withCapacity capacity) fun c e h _ => h.step e
  intro before after heq
  exact (hinv before after heq).noLostWakeup

/-- A reader waits, and a byte is in the ring that has not been announced. -/
example : [.reader, .read 0 .clone, .read 0 .call, .read 0 .check, .write [65]].foldl step
    (withCapacity 2) = ⟨⟨[65, 0], 1, 1, false⟩, false, 0, 0, [.write 1], [⟨0, 0, .waiting⟩],
      false⟩ := by decide

/-- Once every call has sent, a waiting reader with something to see goes on at its next poll. -/
theorem WakeInv.advance_changed {c : Console} (h : c.WakeInv) (hu : c.unsent = [])
    {r : ReaderTask} (hr : r ∈ c.readers) (hwait : r.phase = .waiting)
    (hsee : r.readPos < c.inner.totalWritten ∨ c.inner.closed = true) :
    (r.advance c .changed).phase = .checking := by
  have hv : c.version ≠ r.seen := by
    intro hv
    obtain ⟨hwrite, hclose⟩ := h.waiting r hr hwait hv.symm
    rcases hsee with hsee | hsee
    · obtain ⟨stop, hmem, -⟩ := hwrite hsee
      rw [hu] at hmem
      cases hmem
    · have hmem := hclose hsee
      rw [hu] at hmem
      cases hmem
  simp [ReaderTask.advance, hwait, hv]

end Console

end Hitz.Vmm

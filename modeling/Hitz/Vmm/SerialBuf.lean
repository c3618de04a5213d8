import Hitz.Lib.Bytes
import Hitz.Lib.RingLog

/-!
# The serial output ring (`hitz-vmm/src/serial_buf.rs`)

A `SerialBuf` keeps the last bytes written to the serial port; any number of readers follow it,
each at its own position in the stream.

* `Inner.write`, `Inner.readChunk` follow the source, branch by branch; one call of `read_chunk`
  takes the lock until it finds data or the end, and `park` says that it would wait;
* `Op`, `exec`, `run`: interleavings of writes, reader creations, closes and reads;
* `LogInv`: the ring is the tail of the stream of all bytes written.

The stream counter is a `u64`; `none` is the overflow panic after `2^64` bytes.
-/

namespace Hitz.Vmm

open Bytes RingLog

/-- Shared interior of the ring buffer. -/
structure Inner where
  buf : List UInt8
  writePos : ℕ
  totalWritten : ℕ
  closed : Bool
  deriving DecidableEq, Repr

/-- What a call of `read_chunk` comes to: some bytes, `None`, or waiting for a notification. -/
inductive ReadResult
  | chunk (bytes : List UInt8)
  | closed
  | park
  deriving DecidableEq, Repr

namespace Inner

/-- `SerialBuf::with_capacity`. -/
def withCapacity (capacity : ℕ) : Inner where
  buf := List.replicate capacity 0
  writePos := 0
  totalWritten := 0
  closed := false

/-- `SerialBuf::close`. -/
def close (inner : Inner) : Inner := { inner with closed := true }

/-- `<SerialBuf as Write>::write`. -/
def write (inner : Inner) (data : List UInt8) : Option Inner :=
  let cap := inner.buf.length
  let len := data.length
  let dataToWrite := if cap < len then data.drop (len - cap) else data
  let writeLen := dataToWrite.length
  -- bytes that would be overwritten at once are skipped, but the position advances over them
  let skipped := len - cap
  let pos := (inner.writePos + skipped) % cap
  let spaceToEnd := cap - pos
  let inner :=
    if writeLen ≤ spaceToEnd then
      { inner with
        buf := overwrite inner.buf pos dataToWrite
        writePos := (pos + writeLen) % cap }
    else
      { inner with
        buf := overwrite (overwrite inner.buf pos (dataToWrite.take spaceToEnd)) 0
          (dataToWrite.drop spaceToEnd)
        writePos := writeLen - spaceToEnd }
  if inner.totalWritten + len < 2 ^ 64 then
    some { inner with totalWritten := inner.totalWritten + len }
  else none

/-- `SerialReader::read_chunk` for a reader at `readPos`: the result and its new position. -/
def readChunk (inner : Inner) (readPos : ℕ) : ReadResult × ℕ :=
  if readPos < inner.totalWritten then
    let available := inner.totalWritten - readPos
    let cap := inner.buf.length
    -- a reader that was lapped skips to the oldest byte still in the ring
    let readPos := if cap < available then inner.totalWritten - cap else readPos
    let toRead := inner.totalWritten - readPos
    let result :=
      if 0 < toRead then
        let start := (inner.writePos + cap - toRead % cap) % cap
        if start + toRead ≤ cap then (inner.buf.drop start).take toRead
        else inner.buf.drop start ++ inner.buf.take (toRead - (cap - start))
      else []
    (.chunk result, inner.totalWritten)
  else if inner.closed then (.closed, readPos)
  else (.park, readPos)

/-- The bytes in the ring, oldest first. -/
def contents (inner : Inner) : List UInt8 :=
  if inner.totalWritten < inner.buf.length then inner.buf.take inner.totalWritten
  else inner.buf.drop inner.writePos ++ inner.buf.take inner.writePos

end Inner

/-! ### The ring is the tail of the stream -/

/-- The ring of capacity `cap` after the bytes `S` were written. -/
structure LogInv (cap : ℕ) (S : List UInt8) (inner : Inner) : Prop where
  length_eq : inner.buf.length = cap
  writePos_eq : inner.writePos = S.length % cap
  total_eq : inner.totalWritten = S.length
  holds : Holds (fun i => inner.buf.getD i 0) cap 0 S (S.length - cap)

theorem logInv_withCapacity (cap : ℕ) : LogInv cap [] (Inner.withCapacity cap) where
  length_eq := List.length_replicate
  writePos_eq := rfl
  total_eq := rfl
  holds := fun _ _ _ h => by simp at h

theorem LogInv.close {cap : ℕ} {S : List UInt8} {inner : Inner} (h : LogInv cap S inner) :
    LogInv cap S inner.close :=
  ⟨h.length_eq, h.writePos_eq, h.total_eq, h.holds⟩

/-- The last bytes of `data` that fit the ring, and the bytes before them. -/
theorem take_append_dataToWrite (data : List UInt8) (cap : ℕ) :
    data.take (data.length - cap) ++ (if cap < data.length then data.drop (data.length - cap)
      else data) = data := by
  split_ifs with h
  · exact List.take_append_drop _ _
  · rw [Nat.sub_eq_zero_of_le (by omega), List.take_zero, List.nil_append]

/-- The ring after a write, whichever of the two copies the source takes. -/
theorem write_eq_some {inner inner' : Inner} {data : List UInt8} (hcap : 0 < inner.buf.length)
    (h : inner.write data = some inner') :
    ∃ d, data = data.take (data.length - inner.buf.length) ++ d ∧ d.length ≤ inner.buf.length ∧
      d.length = data.length - (data.length - inner.buf.length) ∧
      inner'.buf = copyIn inner.buf
        ((inner.writePos + (data.length - inner.buf.length)) % inner.buf.length) d ∧
      inner'.writePos = (inner.writePos + data.length) % inner.buf.length ∧
      inner'.totalWritten = inner.totalWritten + data.length ∧ inner'.closed = inner.closed := by
  have hsplit := take_append_dataToWrite data inner.buf.length
  have hlen : (if inner.buf.length < data.length then data.drop (data.length - inner.buf.length)
      else data).length = data.length - (data.length - inner.buf.length) := by
    split_ifs
    · rw [List.length_drop]
    · omega
  unfold Inner.write at h
  dsimp only at h
  generalize hd : (if inner.buf.length < data.length then
    data.drop (data.length - inner.buf.length) else data) = d at h hsplit hlen
  have hpos := Nat.mod_lt (inner.writePos + (data.length - inner.buf.length)) hcap
  -- the end of the block, counted without the skip
  have hend : ((inner.writePos + (data.length - inner.buf.length)) % inner.buf.length + d.length) %
      inner.buf.length = (inner.writePos + data.length) % inner.buf.length := by
    rw [Nat.mod_add_mod]
    congr 1
    omega
  refine ⟨d, hsplit.symm, by omega, hlen, ?_⟩
  split at h
  · rename_i hfit
    split_ifs at h
    cases h
    exact ⟨by rw [copyIn, if_pos hfit], hend, rfl, rfl⟩
  · rename_i hfit
    split_ifs at h
    cases h
    refine ⟨by rw [copyIn, if_neg hfit], ?_, rfl, rfl⟩
    rw [add_mod_size hpos (by omega), if_neg (by omega)] at hend
    rw [← hend]
    dsimp only
    omega

/-- A write appends its bytes to the stream. -/
theorem LogInv.write {cap : ℕ} (hcap : 0 < cap) {S data : List UInt8} {inner inner' : Inner}
    (h : LogInv cap S inner) (hw : inner.write data = some inner') :
    LogInv cap (S ++ data) inner' := by
  obtain ⟨hlen, hwp, htot, hholds⟩ := h
  subst hlen
  obtain ⟨d, hdata, hd, hdlen, hbuf, hpos', htot', -⟩ := write_eq_some hcap hw
  set cap := inner.buf.length
  set skip := data.take (data.length - cap)
  have hskip : skip.length = data.length - cap := List.length_take_of_le (by omega)
  have hpos : (inner.writePos + (data.length - cap)) % cap = (S ++ skip).length % cap := by
    rw [hwp, List.length_append, hskip, Nat.mod_add_mod]
  have hlt := Nat.mod_lt (S ++ skip).length hcap
  rw [hpos] at hbuf
  have hold : Holds (fun i => inner.buf.getD i 0) cap 0 (S ++ skip)
      ((S ++ skip).length + d.length - cap) := by
    rcases Nat.eq_zero_or_pos (data.length - cap) with hz | hp
    · have hnil : skip = [] := List.length_eq_zero_iff.1 (by omega)
      rw [hnil, List.append_nil]
      exact hholds.mono (by omega)
    · -- after a skip the block fills the whole ring, so nothing older is kept
      intro k v hk hv
      rw [List.getElem?_eq_none (by omega)] at hv
      cases hv
  refine ⟨by rw [hbuf]; exact length_copyIn hlt hd, ?_, ?_, ?_⟩
  · rw [hpos', hwp, Nat.mod_add_mod, List.length_append]
  · rw [htot', htot, List.length_append]
  · have hcat : S ++ data = (S ++ skip) ++ d := by rw [List.append_assoc, ← hdata]
    have hlo : (S ++ data).length - cap = (S ++ skip).length + d.length - cap := by
      rw [hcat, List.length_append]
    rw [hlo, hcat, hbuf]
    refine hold.append hcap (by omega) (fun j v hj => ?_) fun i hi hne => ?_
    · have hjlt : j < d.length := (List.getElem?_eq_some_iff.1 hj).1
      have hcell := getElem?_copyIn_block hlt hd hjlt
      rw [Nat.mod_add_mod] at hcell
      simp only [List.getD_eq_getElem?_getD, Nat.zero_add]
      rw [hcell, hj, Option.getD_some]
    · simp only [List.getD_eq_getElem?_getD]
      rw [getElem?_copyIn_other hlt hd hi fun j hj => ?_]
      rw [Nat.mod_add_mod]
      simpa using hne j hj

/-- The block of the last `n` bytes, read out of the ring. -/
theorem LogInv.copyOut_eq {cap : ℕ} (hcap : 0 < cap) {S : List UInt8} {inner : Inner}
    (h : LogInv cap S inner) {n : ℕ} (hn : n ≤ cap) (hS : n ≤ S.length) :
    copyOut inner.buf ((inner.writePos + cap - n % cap) % cap) n = S.drop (S.length - n) := by
  obtain ⟨hlen, hwp, -, hholds⟩ := h
  subst hlen
  set cap := inner.buf.length with hcapdef
  have hstart : (inner.writePos + cap - n % cap) % cap = (S.length - n) % cap := by
    -- both sides plus `n` are the write position
    have hmod := Nat.mod_lt n hcap
    refine Nat.ModEq.add_right_cancel' n ?_
    calc (inner.writePos + cap - n % cap) + n
        ≡ (inner.writePos + cap - n % cap) + n % cap [MOD cap] :=
          Nat.ModEq.add_left _ (Nat.mod_modEq n cap).symm
      _ = S.length % cap + cap := by rw [hwp]; omega
      _ ≡ S.length [MOD cap] := by simp [Nat.ModEq]
      _ = S.length - n + n := (Nat.sub_add_cancel hS).symm
  rw [hstart]
  apply List.ext_getElem?
  intro j
  rw [getElem?_copyOut (Nat.mod_lt _ hcap) hn]
  split_ifs with hj
  · have hlt : S.length - n + j < S.length := by omega
    have hcell := hholds (S.length - n + j) _ (by omega) (List.getElem?_eq_getElem hlt)
    have hbound := Nat.mod_lt (S.length - n + j) hcap
    rw [List.getElem?_drop, List.getElem?_eq_getElem hlt, ← hcapdef, Nat.mod_add_mod, ← hcell]
    simp only [Nat.zero_add, List.getD_eq_getElem?_getD]
    rw [List.getElem?_eq_getElem hbound, Option.getD_some]
  · rw [List.getElem?_eq_none]
    rw [List.length_drop]
    omega

/-- A reader behind the stream gets the bytes it has missed, as far as the ring still has them. -/
theorem LogInv.readChunk {cap : ℕ} (hcap : 0 < cap) {S : List UInt8} {inner : Inner}
    (h : LogInv cap S inner) {p : ℕ} (hp : p < S.length) :
    inner.readChunk p =
      (.chunk (S.drop (S.length - min cap (S.length - p))), S.length) := by
  have hlen := h.length_eq
  have htot := h.total_eq
  -- the position after the lap check
  have hto : inner.totalWritten - (if cap < inner.totalWritten - p then inner.totalWritten - cap
      else p) = min cap (S.length - p) := by
    split_ifs <;> omega
  have hout := h.copyOut_eq hcap (n := min cap (S.length - p)) (by omega) (by omega)
  rw [copyOut, hlen] at hout
  unfold Inner.readChunk
  dsimp only
  rw [hlen, if_pos (by omega), hto, if_pos (by omega), hout, htot]

/-- A reader that has everything waits, unless the buffer is closed. -/
theorem LogInv.readChunk_end {cap : ℕ} {S : List UInt8} {inner : Inner} (h : LogInv cap S inner)
    {p : ℕ} (hp : ¬ p < S.length) :
    inner.readChunk p = (if inner.closed then .closed else .park, p) := by
  rw [Inner.readChunk, h.total_eq, if_neg hp]
  split_ifs <;> rfl

theorem LogInv.contents {cap : ℕ} (hcap : 0 < cap) {S : List UInt8} {inner : Inner}
    (h : LogInv cap S inner) : inner.contents = S.drop (S.length - min S.length cap) := by
  have hlen := h.length_eq
  have hwp := h.writePos_eq
  unfold Inner.contents
  rw [hlen, h.total_eq]
  split_ifs with hlt
  · have hout := h.copyOut_eq hcap (n := S.length) hlt.le le_rfl
    have hstart : (inner.writePos + cap - S.length % cap) % cap = 0 := by
      rw [hwp, Nat.add_sub_cancel_left, Nat.mod_self]
    rw [hstart, copyOut, if_pos (by omega), List.drop_zero] at hout
    rw [hout, Nat.min_eq_left hlt.le]
  · have hout := h.copyOut_eq hcap (n := cap) le_rfl (by omega)
    have hstart : (inner.writePos + cap - cap % cap) % cap = inner.writePos := by
      rw [Nat.mod_self, Nat.sub_zero, Nat.add_mod_right, hwp, Nat.mod_mod]
    have hpos : inner.writePos < cap := by
      rw [hwp]
      exact Nat.mod_lt _ hcap
    rw [hstart, copyOut, hlen] at hout
    rw [Nat.min_eq_right (by omega), ← hout]
    split_ifs with hz
    · have hzero : inner.writePos = 0 := by omega
      rw [hzero, List.take_zero, List.append_nil, List.drop_zero, ← hlen, List.take_length]
    · congr 2
      omega

/-! ### Interleavings -/

/-- The buffer and the positions of its readers. -/
structure SerialSystem where
  inner : Inner
  readers : List ℕ := []
  deriving DecidableEq, Repr

/-- The calls that take the lock. -/
inductive SerialOp
  | write (data : List UInt8)
  | reader
  | close
  | readChunk (i : ℕ)
  deriving DecidableEq, Repr

/-- One call, with the result if reader `i` read. -/
def SerialSystem.exec (s : SerialSystem) : SerialOp → Option (SerialSystem × List (ℕ × ReadResult))
  | .write data => (s.inner.write data).map fun inner => ({ s with inner }, [])
  | .reader => some ({ s with readers := s.readers ++ [s.inner.totalWritten] }, [])
  | .close => some ({ s with inner := s.inner.close }, [])
  | .readChunk i =>
    match s.readers[i]? with
    | none => some (s, [])
    | some p =>
      let (r, p') := s.inner.readChunk p
      some ({ s with readers := s.readers.set i p' }, [(i, r)])

/-- A sequence of calls and the results of its reads. -/
def SerialSystem.run (s : SerialSystem) : List SerialOp →
    Option (SerialSystem × List (ℕ × ReadResult))
  | [] => some (s, [])
  | op :: ops =>
    (s.exec op).bind fun (s', r) => (s'.run ops).map fun (s'', rs) => (s'', r ++ rs)

/-- All bytes written by a sequence of calls. -/
def written (ops : List SerialOp) : List UInt8 :=
  ops.flatMap fun
    | .write data => data
    | _ => []

/-- The results of one reader, in order. -/
def resultsOf (i : ℕ) (rs : List (ℕ × ReadResult)) : List ReadResult :=
  (rs.filter fun r => r.1 = i).map Prod.snd

/-- The ring follows the stream, and no reader is ahead of it. -/
structure SystemInv (cap : ℕ) (S : List UInt8) (s : SerialSystem) : Prop where
  log : LogInv cap S s.inner
  readers_le : ∀ p ∈ s.readers, p ≤ S.length

theorem SystemInv.exec {cap : ℕ} (hcap : 0 < cap) {S : List UInt8} {s s' : SerialSystem}
    {op : SerialOp} {r : List (ℕ × ReadResult)} (h : SystemInv cap S s)
    (hexec : s.exec op = some (s', r)) : SystemInv cap (S ++ written [op]) s' := by
  obtain ⟨hlog, hle⟩ := h
  cases op with
  | write data =>
    obtain ⟨inner, hw, heq⟩ := Option.map_eq_some_iff.1 hexec
    cases heq
    have hS : S ++ written [.write data] = S ++ data := by simp [written]
    rw [hS]
    refine ⟨hlog.write hcap hw, fun p hp => ?_⟩
    have := hle p hp
    rw [List.length_append]
    omega
  | reader =>
    cases hexec
    have hS : S ++ written [.reader] = S := by simp [written]
    rw [hS]
    refine ⟨hlog, fun p hp => ?_⟩
    rcases List.mem_append.1 hp with hp | hp
    · exact hle p hp
    · rw [List.mem_singleton.1 hp, hlog.total_eq]
  | close =>
    cases hexec
    have hS : S ++ written [.close] = S := by simp [written]
    rw [hS]
    exact ⟨hlog.close, hle⟩
  | readChunk i =>
    have hS : S ++ written [.readChunk i] = S := by simp [written]
    rw [hS]
    unfold SerialSystem.exec at hexec
    dsimp only at hexec
    cases hp : s.readers[i]? with
    | none =>
      rw [hp] at hexec
      cases hexec
      exact ⟨hlog, hle⟩
    | some p =>
      rw [hp] at hexec
      cases hexec
      refine ⟨hlog, fun p' hp' => ?_⟩
      rcases List.mem_or_eq_of_mem_set hp' with hp' | rfl
      · exact hle p' hp'
      · by_cases hlt : p < S.length
        · rw [hlog.readChunk hcap hlt]
        · rw [hlog.readChunk_end hlt]
          exact hle p (List.mem_of_getElem? hp)

theorem run_cons_eq_some {s s'' : SerialSystem} {op : SerialOp} {ops : List SerialOp}
    {rs : List (ℕ × ReadResult)} (h : s.run (op :: ops) = some (s'', rs)) :
    ∃ s' r rs', s.exec op = some (s', r) ∧ s'.run ops = some (s'', rs') ∧ rs = r ++ rs' := by
  obtain ⟨⟨s', r⟩, hexec, h⟩ := Option.bind_eq_some_iff.1 h
  obtain ⟨⟨t, rs'⟩, hrun, heq⟩ := Option.map_eq_some_iff.1 h
  cases heq
  exact ⟨s', r, rs', hexec, hrun, rfl⟩

theorem SystemInv.run {cap : ℕ} (hcap : 0 < cap) (ops : List SerialOp) :
    ∀ {S : List UInt8} {s s' : SerialSystem} {rs : List (ℕ × ReadResult)}, SystemInv cap S s →
      s.run ops = some (s', rs) → SystemInv cap (S ++ written ops) s' := by
  induction ops with
  | nil =>
    intro S s s' rs h hrun
    cases hrun
    simpa [written] using h
  | cons op ops ih =>
    intro S s s'' rs h hrun
    obtain ⟨s', r, rs', hexec, hrest, -⟩ := run_cons_eq_some hrun
    have hcat : S ++ written (op :: ops) = S ++ written [op] ++ written ops := by
      simp [written]
    rw [hcat]
    exact ih (h.exec hcap hexec) hrest

/-- Every call except the reads of other readers. -/
def SerialOp.concerns (i : ℕ) : SerialOp → Bool
  | .readChunk j => j = i
  | _ => true

/-- Two systems that reader `i` cannot tell apart. -/
structure SameFor (i : ℕ) (s t : SerialSystem) : Prop where
  inner_eq : s.inner = t.inner
  length_eq : s.readers.length = t.readers.length
  pos_eq : s.readers[i]? = t.readers[i]?

/-- A call that concerns reader `i` gives it the same result in both systems. -/
theorem SameFor.exec {i : ℕ} {s t s' : SerialSystem} {op : SerialOp} {r : List (ℕ × ReadResult)}
    (h : SameFor i s t) (hop : op.concerns i = true) (hexec : s.exec op = some (s', r)) :
    ∃ t', t.exec op = some (t', r) ∧ SameFor i s' t' := by
  obtain ⟨hin, hlen, hpos⟩ := h
  cases op with
  | write data =>
    obtain ⟨inner, hw, heq⟩ := Option.map_eq_some_iff.1 hexec
    cases heq
    exact ⟨{ t with inner }, by rw [SerialSystem.exec, ← hin, hw]; rfl, rfl, hlen, hpos⟩
  | reader =>
    cases hexec
    refine ⟨_, rfl, hin, by simp [hlen], ?_⟩
    simp only [List.getElem?_append, hlen, hpos, hin]
  | close =>
    cases hexec
    exact ⟨_, rfl, by simp [hin], hlen, hpos⟩
  | readChunk j =>
    obtain rfl : j = i := by simpa [SerialOp.concerns] using hop
    unfold SerialSystem.exec at hexec ⊢
    dsimp only at hexec ⊢
    rw [← hpos, ← hin]
    cases hp : s.readers[j]? with
    | none =>
      rw [hp] at hexec
      cases hexec
      exact ⟨t, rfl, hin, hlen, hpos⟩
    | some p =>
      rw [hp] at hexec
      cases hexec
      refine ⟨_, rfl, rfl, by simp [hlen], ?_⟩
      simp only [List.getElem?_set, hlen, hpos]

/-- Reads of other readers leave reader `i` alone. -/
theorem SameFor.skip {i j : ℕ} {s t s' : SerialSystem} {r : List (ℕ × ReadResult)}
    (h : SameFor i s t) (hij : j ≠ i) (hexec : s.exec (.readChunk j) = some (s', r)) :
    SameFor i s' t ∧ resultsOf i r = [] := by
  obtain ⟨hin, hlen, hpos⟩ := h
  unfold SerialSystem.exec at hexec
  dsimp only at hexec
  cases hp : s.readers[j]? with
  | none =>
    rw [hp] at hexec
    cases hexec
    exact ⟨⟨hin, hlen, hpos⟩, rfl⟩
  | some p =>
    rw [hp] at hexec
    cases hexec
    refine ⟨⟨hin, by simp [hlen], ?_⟩, by simp [resultsOf, hij]⟩
    simp [List.getElem?_set_ne hij, hpos]

theorem resultsOf_append (i : ℕ) (rs rs' : List (ℕ × ReadResult)) :
    resultsOf i (rs ++ rs') = resultsOf i rs ++ resultsOf i rs' := by
  simp [resultsOf]

/-- Leaving out the other readers' reads does not change what reader `i` gets. -/
theorem resultsOf_run_filter (i : ℕ) (ops : List SerialOp) :
    ∀ {s t s' : SerialSystem} {rs : List (ℕ × ReadResult)}, SameFor i s t →
      s.run ops = some (s', rs) → ∃ t' rs', t.run (ops.filter (SerialOp.concerns i)) =
        some (t', rs') ∧ resultsOf i rs' = resultsOf i rs := by
  induction ops with
  | nil =>
    intro s t s' rs _ hrun
    cases hrun
    exact ⟨t, [], rfl, rfl⟩
  | cons op ops ih =>
    intro s t s'' rs h hrun
    obtain ⟨s', r, rs', hexec, hrest, rfl⟩ := run_cons_eq_some hrun
    cases hop : op.concerns i with
    | true =>
      obtain ⟨t', hexec', hsame⟩ := h.exec hop hexec
      obtain ⟨t'', rs'', hrun', hres⟩ := ih hsame hrest
      rw [List.filter_cons_of_pos hop]
      refine ⟨t'', r ++ rs'', ?_, by rw [resultsOf_append, resultsOf_append, hres]⟩
      simp [SerialSystem.run, hexec', hrun']
    | false =>
      rw [List.filter_cons_of_neg (by simp [hop])]
      cases op with
      | readChunk j =>
        have hij : j ≠ i := by simpa [SerialOp.concerns] using hop
        obtain ⟨hsame, hnone⟩ := h.skip hij hexec
        obtain ⟨t'', rs'', hrun', hres⟩ := ih hsame hrest
        exact ⟨t'', rs'', hrun', by rw [resultsOf_append, hnone, hres, List.nil_append]⟩
      | write data => cases hop
      | reader => cases hop
      | close => cases hop

/-- What a reader at position `p` gets from a closed buffer when nothing more is written: first
the bytes it has missed, then `None`. -/
def drained (cap : ℕ) (S : List UInt8) (p k : ℕ) : ReadResult :=
  if k = 0 ∧ p < S.length then .chunk (S.drop (S.length - min cap (S.length - p))) else .closed

/-- A call on a closed buffer that is not a write keeps it closed and leaves the stream alone;
a read moves the reader to its end. -/
theorem SystemInv.exec_closed {cap : ℕ} (hcap : 0 < cap) {S : List UInt8} {s s' : SerialSystem}
    {op : SerialOp} {r : List (ℕ × ReadResult)} (h : SystemInv cap S s)
    (hclosed : s.inner.closed = true) (hop : ∀ data, op ≠ .write data)
    (hexec : s.exec op = some (s', r)) (i : ℕ) :
    s'.inner.closed = true ∧
      ((resultsOf i r = [] ∧ s'.readers.getD i S.length = s.readers.getD i S.length) ∨
        (resultsOf i r = [drained cap S (s.readers.getD i S.length) 0] ∧
          s'.readers.getD i S.length = S.length)) := by
  obtain ⟨hlog, hle⟩ := h
  cases op with
  | write data => exact absurd rfl (hop data)
  | reader =>
    cases hexec
    refine ⟨hclosed, Or.inl ⟨rfl, ?_⟩⟩
    simp only [List.getD_eq_getElem?_getD, hlog.total_eq]
    rcases Nat.lt_trichotomy i s.readers.length with hlt | rfl | hgt
    · rw [List.getElem?_append_left hlt]
    · simp
    · rw [List.getElem?_eq_none (by simp; omega), List.getElem?_eq_none (by omega)]
  | close =>
    cases hexec
    exact ⟨rfl, Or.inl ⟨rfl, rfl⟩⟩
  | readChunk j =>
    unfold SerialSystem.exec at hexec
    dsimp only at hexec
    cases hp : s.readers[j]? with
    | none =>
      rw [hp] at hexec
      cases hexec
      exact ⟨hclosed, Or.inl ⟨rfl, rfl⟩⟩
    | some p =>
      rw [hp] at hexec
      cases hexec
      refine ⟨hclosed, ?_⟩
      by_cases hij : j = i
      · subst hij
        have hj : j < s.readers.length := (List.getElem?_eq_some_iff.1 hp).1
        have hle' := hle p (List.mem_of_getElem? hp)
        right
        simp only [resultsOf, List.getD_eq_getElem?_getD, hp, Option.getD_some, drained]
        by_cases hlt : p < S.length
        · rw [hlog.readChunk hcap hlt]
          simp [hlt, hj]
        · rw [hlog.readChunk_end hlt, hclosed]
          simp [hlt, hj]
          omega
      · left
        simp [resultsOf, hij, List.getD_eq_getElem?_getD, List.getElem?_set_ne hij]

theorem resultsOf_run_closed {cap : ℕ} (hcap : 0 < cap) {S : List UInt8} (i : ℕ)
    (ops : List SerialOp) (hops : ∀ data, .write data ∉ ops) :
    ∀ {s s' : SerialSystem} {rs : List (ℕ × ReadResult)}, SystemInv cap S s →
      s.inner.closed = true → s.run ops = some (s', rs) →
      ∀ k r, (resultsOf i rs)[k]? = some r → r = drained cap S (s.readers.getD i S.length) k := by
  induction ops with
  | nil =>
    intro s s' rs _ _ hrun k r hk
    cases hrun
    simp [resultsOf] at hk
  | cons op ops ih =>
    intro s s'' rs h hclosed hrun k r hk
    obtain ⟨s', r₁, rs', hexec, hrest, rfl⟩ := run_cons_eq_some hrun
    have hop : ∀ data, op ≠ .write data := fun data he => hops data (by simp [he])
    obtain ⟨hclosed', hres⟩ := h.exec_closed hcap hclosed hop hexec i
    have hinv : SystemInv cap S s' := by
      have := h.exec hcap hexec
      have hnil : written [op] = [] := by
        cases op with
        | write data => exact absurd rfl (hop data)
        | _ => simp [written]
      rwa [hnil, List.append_nil] at this
    have hrec := ih (fun data hd => hops data (List.mem_cons_of_mem _ hd)) hinv hclosed' hrest
    rw [resultsOf_append] at hk
    rcases hres with ⟨hnil, hpos⟩ | ⟨hone, hpos⟩
    · rw [hnil, List.nil_append] at hk
      rw [← hpos]
      exact hrec k r hk
    · rw [hone] at hk
      cases k with
      | zero =>
        simp only [List.singleton_append, List.getElem?_cons_zero, Option.some.injEq] at hk
        exact hk.symm
      | succ k =>
        simp only [List.singleton_append, List.getElem?_cons_succ] at hk
        rw [hrec k r hk, hpos]
        simp [drained]

/-- A new system. -/
def SerialSystem.withCapacity (capacity : ℕ) : SerialSystem where
  inner := Inner.withCapacity capacity

/-- A write fails only when the stream counter overflows. -/
theorem isSome_write {cap : ℕ} {S data : List UInt8} {inner : Inner} (h : LogInv cap S inner)
    (hlen : S.length + data.length < 2 ^ 64) : (inner.write data).isSome = true := by
  unfold Inner.write
  dsimp only
  split_ifs <;> first | rfl | (simp only [h.total_eq] at *; omega)

/-- Every sequence of calls that writes fewer than `2^64` bytes goes through. -/
theorem exists_run {cap : ℕ} (hcap : 0 < cap) (ops : List SerialOp) :
    ∀ {S : List UInt8} {s : SerialSystem}, SystemInv cap S s →
      S.length + (written ops).length < 2 ^ 64 → ∃ s' rs, s.run ops = some (s', rs) := by
  induction ops with
  | nil => exact fun _ _ => ⟨_, _, rfl⟩
  | cons op ops ih =>
    intro S s h hlen
    have hcat : (written (op :: ops)).length = (written [op]).length + (written ops).length := by
      simp [written]
    obtain ⟨s', r, hexec⟩ : ∃ s' r, s.exec op = some (s', r) := by
      cases op with
      | write data =>
        have hw : S.length + data.length < 2 ^ 64 := by
          have : (written [.write data]).length = data.length := by simp [written]
          omega
        obtain ⟨inner, hinner⟩ := Option.isSome_iff_exists.1 (isSome_write h.log hw)
        exact ⟨_, _, by rw [SerialSystem.exec, hinner]; rfl⟩
      | reader => exact ⟨_, _, rfl⟩
      | close => exact ⟨_, _, rfl⟩
      | readChunk i =>
        unfold SerialSystem.exec
        dsimp only
        cases s.readers[i]? with
        | none => exact ⟨_, _, rfl⟩
        | some p => exact ⟨_, _, rfl⟩
    obtain ⟨s'', rs, hrun⟩ := ih (h.exec hcap hexec) (by rw [List.length_append]; omega)
    exact ⟨s'', r ++ rs, by simp [SerialSystem.run, hexec, hrun]⟩

/-- **The serial buffer is a bounded log.**  After any sequence of calls the ring holds the last
bytes of the stream; a reader that is behind gets the bytes it has missed, as far as the ring still
has them, and is then at the end of the stream; what it gets does not depend on the other readers;
a closed buffer lets no reader wait, and as long as nothing more is written each reader gets what
it has missed and then only `None`. -/
theorem serial_buf_log (cap : ℕ) (hcap : 0 < cap) (ops : List SerialOp)
    (hlen : (written ops).length < 2 ^ 64) :
    ∃ s rs, (SerialSystem.withCapacity cap).run ops = some (s, rs) ∧
      s.inner.contents =
        (written ops).drop ((written ops).length - min (written ops).length cap) ∧
      (∀ (i : ℕ) p, s.readers[i]? = some p → p ≤ (written ops).length ∧
        (p < (written ops).length → s.inner.readChunk p =
          (.chunk ((written ops).drop ((written ops).length -
            min cap ((written ops).length - p))), (written ops).length))) ∧
      (∀ i, ∃ s' rs', (SerialSystem.withCapacity cap).run (ops.filter (SerialOp.concerns i)) =
        some (s', rs') ∧ resultsOf i rs' = resultsOf i rs) ∧
      (s.inner.closed = true → (∀ p, (s.inner.readChunk p).1 ≠ .park) ∧
        ∀ more s' rs', (∀ data, .write data ∉ more) → s.run more = some (s', rs') →
          ∀ i k r, (resultsOf i rs')[k]? = some r →
            r = drained cap (written ops) (s.readers.getD i (written ops).length) k) := by
  have hstart : SystemInv cap [] (SerialSystem.withCapacity cap) :=
    ⟨logInv_withCapacity cap, fun p hp => by simp [SerialSystem.withCapacity] at hp⟩
  obtain ⟨s, rs, hrun⟩ := exists_run hcap ops hstart (by simpa using hlen)
  have hinv := hstart.run hcap ops hrun
  rw [List.nil_append] at hinv
  refine ⟨s, rs, hrun, hinv.log.contents hcap, fun i p hp => ?_, fun i => ?_,
    fun hclosed => ⟨fun p => ?_, ?_⟩⟩
  · exact ⟨hinv.readers_le p (List.mem_of_getElem? hp), fun hlt => hinv.log.readChunk hcap hlt⟩
  · exact resultsOf_run_filter i ops ⟨rfl, rfl, rfl⟩ hrun
  · by_cases hlt : p < (written ops).length
    · rw [hinv.log.readChunk hcap hlt]
      simp
    · rw [hinv.log.readChunk_end hlt, hclosed]
      simp
  · intro more s' rs' hmore hrun' i
    exact resultsOf_run_closed hcap i more hmore hinv hclosed hrun'

/-- Two bytes into a ring of one: the ring holds the second. -/
theorem serial_buf_log_overwrite : ∃ s rs,
    (SerialSystem.withCapacity 1).run [.reader, .write [7, 9]] = some (s, rs) ∧
      s.inner.contents = [9] := by
  obtain ⟨s, rs, hrun, hcontents, -⟩ :=
    serial_buf_log 1 Nat.one_pos [.reader, .write [7, 9]] (by decide)
  exact ⟨s, rs, hrun, hcontents⟩

/-- A write is accepted after `close`, so a reader that was told `None` can get bytes again. -/
theorem none_is_not_final : ∃ s rs, (SerialSystem.withCapacity 1).run
    [.reader, .close, .readChunk 0, .write [7], .readChunk 0] = some (s, rs) ∧
      resultsOf 0 rs = [.closed, .chunk [7]] :=
  ⟨_, _, rfl, by decide⟩

end Hitz.Vmm

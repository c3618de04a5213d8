import Hitz.Lib.Bytes

/-!
# Logs kept in a ring of cells

Entry `k` of a log that started at offset `base` is kept in cell `(base + k) % size`.
`Holds cell size base log lo` says that the entries from `lo` on are still in their cells.
Appending entries overwrites the next cells, which hold none of the kept entries as long as at
most `size` of them are kept (`Holds.append`, `Holds.push`).

For rings that are arrays, `copyIn` and `copyOut` move a block that may run over the end of the
array and go on at its start.
-/

namespace RingLog

open Bytes

variable {α : Type}

/-- The entries of the log from index `lo` on are in their cells. -/
def Holds (cell : ℕ → α) (size base : ℕ) (log : List α) (lo : ℕ) : Prop :=
  ∀ k v, lo ≤ k → log[k]? = some v → cell ((base + k) % size) = v

/-- Entries less than one turn apart are in different cells. -/
theorem slot_ne {size base i j : ℕ} (hij : i < j) (hj : j < i + size) :
    (base + i) % size ≠ (base + j) % size := by
  intro h
  have hd : size ∣ (base + j) - (base + i) := (Nat.modEq_iff_dvd' (by omega)).1 h
  have := Nat.le_of_dvd (by omega) hd
  omega

theorem Holds.mono {cell : ℕ → α} {size base lo lo' : ℕ} {log : List α}
    (h : Holds cell size base log lo) (hlo : lo ≤ lo') : Holds cell size base log lo' :=
  fun k v hk hv => h k v (le_trans hlo hk) hv

theorem Holds.congr {cell cell' : ℕ → α} {size base lo : ℕ} {log : List α} (hs : 0 < size)
    (h : Holds cell size base log lo) (hc : ∀ i < size, cell' i = cell i) :
    Holds cell' size base log lo := by
  intro k v hk hv
  rw [hc _ (Nat.mod_lt _ hs)]
  exact h k v hk hv

/-- Appending a block to the log: its cells are written, the other cells are kept. -/
theorem Holds.append {cell cell' : ℕ → α} {size base lo : ℕ} {log block : List α}
    (hs : 0 < size) (h : Holds cell size base log lo)
    (hlen : log.length + block.length ≤ lo + size)
    (hv : ∀ j v, block[j]? = some v → cell' ((base + (log.length + j)) % size) = v)
    (hc : ∀ i < size, (∀ j < block.length, i ≠ (base + (log.length + j)) % size) →
      cell' i = cell i) :
    Holds cell' size base (log ++ block) lo := by
  intro k u hk hu
  rcases Nat.lt_or_ge k log.length with hlt | hge
  · rw [List.getElem?_append_left hlt] at hu
    rw [hc _ (Nat.mod_lt _ hs) fun j hj => slot_ne (by omega) (by omega)]
    exact h k u hk hu
  · rw [List.getElem?_append_right hge] at hu
    rw [← hv _ u hu, Nat.add_sub_cancel' hge]

/-- Appending one entry to the log: its cell is written, the other cells are kept. -/
theorem Holds.push {cell cell' : ℕ → α} {size base lo : ℕ} {log : List α} {v : α}
    (hs : 0 < size) (h : Holds cell size base log lo) (hlen : log.length < lo + size)
    (hv : cell' ((base + log.length) % size) = v)
    (hc : ∀ i < size, i ≠ (base + log.length) % size → cell' i = cell i) :
    Holds cell' size base (log ++ [v]) lo := by
  refine h.append hs hlen ?_ fun i hi hne => hc i hi (hne 0 Nat.one_pos)
  intro j u hu
  obtain ⟨rfl, rfl⟩ : j = 0 ∧ v = u := by
    cases j with
    | zero => simpa using hu
    | succ j => simp at hu
  exact hv

/-- An index that is reduced modulo a multiple of the ring size selects the same cell. -/
theorem slot_mod {size n : ℕ} (h : size ∣ n) (x : ℕ) : x % n % size = x % size :=
  Nat.mod_mod_of_dvd x h

/-! ### Blocks of an array -/

/-- Going round the ring at most once. -/
theorem add_mod_size {size pos j : ℕ} (hpos : pos < size) (hj : j ≤ size) :
    (pos + j) % size = if pos + j < size then pos + j else pos + j - size := by
  split_ifs with h
  · exact Nat.mod_eq_of_lt h
  · rw [Nat.mod_eq_sub_mod (by omega), Nat.mod_eq_of_lt (by omega)]

/-- Copy a block into a ring from position `pos` on. -/
def copyIn (buf : List α) (pos : ℕ) (d : List α) : List α :=
  if d.length ≤ buf.length - pos then overwrite buf pos d
  else overwrite (overwrite buf pos (d.take (buf.length - pos))) 0 (d.drop (buf.length - pos))

section CopyIn

variable {buf d : List α} {pos : ℕ}

theorem length_copyIn (hpos : pos < buf.length) (hd : d.length ≤ buf.length) :
    (copyIn buf pos d).length = buf.length := by
  unfold copyIn
  split_ifs with h
  · exact length_overwrite (by omega)
  · have h₁ : (overwrite buf pos (d.take (buf.length - pos))).length = buf.length :=
      length_overwrite (by rw [List.length_take]; omega)
    rw [length_overwrite (by rw [h₁, List.length_drop]; omega), h₁]

/-- The cells after the copy. -/
theorem getElem?_copyIn (hpos : pos < buf.length) (hd : d.length ≤ buf.length) (i : ℕ) :
    (copyIn buf pos d)[i]? =
      if pos ≤ i ∧ i < pos + d.length ∧ i < buf.length then d[i - pos]?
      else if i + buf.length < pos + d.length then d[i + buf.length - pos]?
      else buf[i]? := by
  unfold copyIn
  split_ifs with h h₁ h₂ h₁ h₂
  · rw [getElem?_overwrite (by omega), if_pos (by omega)]
  · omega
  · rw [getElem?_overwrite (by omega)]
    split_ifs with h₃
    · omega
    · rfl
  all_goals
    have hin : pos + (d.take (buf.length - pos)).length ≤ buf.length := by
      rw [List.length_take]
      omega
    have hlen := length_overwrite hin
    rw [getElem?_overwrite (by rw [hlen, List.length_drop]; omega), List.length_drop]
  · rw [if_neg (by omega), getElem?_overwrite hin, List.length_take, if_pos (by omega),
      List.getElem?_take_of_lt (by omega)]
  · rw [if_pos (by omega), List.getElem?_drop]
    congr 1
    omega
  · rw [if_neg (by omega), getElem?_overwrite hin, List.length_take]
    split_ifs with h₃
    · have hi : buf.length ≤ i := by omega
      omega
    · rfl

/-- The block is in the cells from `pos` on, going round the ring. -/
theorem getElem?_copyIn_block (hpos : pos < buf.length) (hd : d.length ≤ buf.length) {j : ℕ}
    (hj : j < d.length) : (copyIn buf pos d)[(pos + j) % buf.length]? = d[j]? := by
  rw [getElem?_copyIn hpos hd, add_mod_size hpos (by omega)]
  split_ifs with h h₁ h₂ h₁ h₂ <;> first | omega | (congr 1; omega)

/-- The other cells are kept. -/
theorem getElem?_copyIn_other (hpos : pos < buf.length) (hd : d.length ≤ buf.length) {i : ℕ}
    (hi : i < buf.length) (hne : ∀ j < d.length, i ≠ (pos + j) % buf.length) :
    (copyIn buf pos d)[i]? = buf[i]? := by
  rw [getElem?_copyIn hpos hd]
  split_ifs with h₁ h₂
  · have := hne (i - pos) (by omega)
    rw [add_mod_size hpos (by omega), if_pos (by omega)] at this
    omega
  · have := hne (i + buf.length - pos) (by omega)
    rw [add_mod_size hpos (by omega), if_neg (by omega)] at this
    omega
  · rfl

end CopyIn

/-- Read a block of `n` cells of a ring from position `start` on. -/
def copyOut (buf : List α) (start n : ℕ) : List α :=
  if start + n ≤ buf.length then (buf.drop start).take n
  else buf.drop start ++ buf.take (n - (buf.length - start))

theorem getElem?_copyOut {buf : List α} {start n j : ℕ} (hs : start < buf.length)
    (hn : n ≤ buf.length) : (copyOut buf start n)[j]? =
      if j < n then buf[(start + j) % buf.length]? else none := by
  unfold copyOut
  split_ifs with h hj hj
  · rw [List.getElem?_take_of_lt hj, List.getElem?_drop, Nat.mod_eq_of_lt (by omega)]
  · rw [List.getElem?_eq_none (by rw [List.length_take, List.length_drop]; omega)]
  · rw [add_mod_size hs (by omega)]
    split_ifs with hlt
    · rw [List.getElem?_append_left (by rw [List.length_drop]; omega), List.getElem?_drop]
    · rw [List.getElem?_append_right (by rw [List.length_drop]; omega), List.length_drop,
        List.getElem?_take_of_lt (by omega)]
      congr 1
      omega
  · rw [List.getElem?_eq_none]
    rw [List.length_append, List.length_drop, List.length_take]
    omega

end RingLog

import Hitz.Lib.Bytes
import Hitz.Lib.Layout

/-!
# The x86-64 four-level page walk

Memory is a function from physical addresses to bytes.  `walk mem cr3 va` reads one entry per level
and stops at a 1 GiB, 2 MiB or 4 KiB page.  Bits 51:12 of an entry are the physical address, bit 0
says that it is present, bit 1 that it may be written, bit 7 that it is a page and not a table.
-/

namespace X86Paging

open Bytes Layout

/-- What a walk finds: the physical address, the size of the page and whether it is writable. -/
structure Mapping where
  addr : ℕ
  pageSize : ℕ
  writable : Bool
  deriving DecidableEq, Repr

/-- Entry `i` of the table at `table`. -/
def entry (mem : ℕ → UInt8) (table i : ℕ) : ℕ :=
  leNat ((List.range 8).map fun k => mem (table + (8 * i + k)))

/-- Bit 0. -/
def present (e : ℕ) : Prop := e % 2 = 1

/-- Bit 1. -/
def writable (e : ℕ) : Bool := e / 2 % 2 = 1

/-- Bit 7. -/
def large (e : ℕ) : Prop := e / 128 % 2 = 1

instance (e : ℕ) : Decidable (present e) := inferInstanceAs (Decidable (e % 2 = 1))

instance (e : ℕ) : Decidable (large e) := inferInstanceAs (Decidable (e / 128 % 2 = 1))

/-- The physical address in an entry, for a page or table of `2 ^ k` bytes. -/
def frame (k e : ℕ) : ℕ := e % 2 ^ 52 / 2 ^ k * 2 ^ k

/-- Translate a 48-bit virtual address; `none` where an entry is not present. -/
def walk (mem : ℕ → UInt8) (cr3 va : ℕ) : Option Mapping :=
  let pml4e := entry mem (frame 12 cr3) (va / 2 ^ 39 % 512)
  if present pml4e then
    let pdpte := entry mem (frame 12 pml4e) (va / 2 ^ 30 % 512)
    let w := writable pml4e && writable pdpte
    if present pdpte then
      if large pdpte then some ⟨frame 30 pdpte + va % 2 ^ 30, 2 ^ 30, w⟩
      else
        let pde := entry mem (frame 12 pdpte) (va / 2 ^ 21 % 512)
        let w := w && writable pde
        if present pde then
          if large pde then some ⟨frame 21 pde + va % 2 ^ 21, 2 ^ 21, w⟩
          else
            let pte := entry mem (frame 12 pde) (va / 2 ^ 12 % 512)
            if present pte then
              some ⟨frame 12 pte + va % 2 ^ 12, 2 ^ 12, w && writable pte⟩
            else none
        else none
    else none
  else none

/-- Bits 63 to 48 of a virtual address repeat bit 47. -/
def Canonical (va : ℕ) : Prop := va < 2 ^ 47 ∨ (2 ^ 64 - 2 ^ 47 ≤ va ∧ va < 2 ^ 64)

/-- The walk ends at a PML4 entry that is not present. -/
theorem walk_eq_none_of_pml4 {mem : ℕ → UInt8} {cr3 va : ℕ}
    (h4 : ¬present (entry mem (frame 12 cr3) (va / 2 ^ 39 % 512))) : walk mem cr3 va = none := by
  simp only [walk, if_neg h4]

/-- The walk ends at a PDPT entry that is not present. -/
theorem walk_eq_none_of_pdpt {mem : ℕ → UInt8} {cr3 va : ℕ} (pdpt : ℕ) (hpdpt : pdpt < 2 ^ 40)
    (h4 : entry mem (frame 12 cr3) (va / 2 ^ 39 % 512) = 2 ^ 12 * pdpt + 3)
    (h3 : ¬present (entry mem (2 ^ 12 * pdpt) (va / 2 ^ 30 % 512))) : walk mem cr3 va = none := by
  have hf4 : frame 12 (2 ^ 12 * pdpt + 3) = 2 ^ 12 * pdpt := by unfold frame; omega
  have hp4 : present (2 ^ 12 * pdpt + 3) := by unfold present; omega
  simp only [walk, h4, hf4, if_pos hp4, if_neg h3]

/-- The walk through two tables to a 2 MiB page, all present and writable. -/
theorem walk_hugePage {mem : ℕ → UInt8} {cr3 va : ℕ} (pdpt pd page : ℕ)
    (hpdpt : pdpt < 2 ^ 40) (hpd : pd < 2 ^ 40) (hpage : page < 2 ^ 31)
    (h4 : entry mem (frame 12 cr3) (va / 2 ^ 39 % 512) = 2 ^ 12 * pdpt + 3)
    (h3 : entry mem (2 ^ 12 * pdpt) (va / 2 ^ 30 % 512) = 2 ^ 12 * pd + 3)
    (h2 : entry mem (2 ^ 12 * pd) (va / 2 ^ 21 % 512) = 2 ^ 21 * page + 131) :
    walk mem cr3 va = some ⟨2 ^ 21 * page + va % 2 ^ 21, 2 ^ 21, true⟩ := by
  have hf4 : frame 12 (2 ^ 12 * pdpt + 3) = 2 ^ 12 * pdpt := by unfold frame; omega
  have hf3 : frame 12 (2 ^ 12 * pd + 3) = 2 ^ 12 * pd := by unfold frame; omega
  have hf2 : frame 21 (2 ^ 21 * page + 131) = 2 ^ 21 * page := by unfold frame; omega
  have hp4 : present (2 ^ 12 * pdpt + 3) := by unfold present; omega
  have hp3 : present (2 ^ 12 * pd + 3) := by unfold present; omega
  have hp2 : present (2 ^ 21 * page + 131) := by unfold present; omega
  have hl3 : ¬large (2 ^ 12 * pd + 3) := by unfold large; omega
  have hl2 : large (2 ^ 21 * page + 131) := by unfold large; omega
  have hw4 : writable (2 ^ 12 * pdpt + 3) = true := by
    simp only [writable, decide_eq_true_eq]
    omega
  have hw3 : writable (2 ^ 12 * pd + 3) = true := by
    simp only [writable, decide_eq_true_eq]
    omega
  have hw2 : writable (2 ^ 21 * page + 131) = true := by
    simp only [writable, decide_eq_true_eq]
    omega
  simp only [walk, h4, hf4, h3, hf3, h2, hf2, if_pos hp4, if_pos hp3, if_pos hp2, if_neg hl3,
    if_pos hl2, hw4, hw3, hw2, Bool.and_self]

/-- Memory that holds a table reads its entries back. -/
theorem entry_of_holds {mem : ℕ → UInt8} {table i v : ℕ} {data : List UInt8}
    (h : Holds mem ⟨table, data⟩) (hv : v < 2 ^ 64)
    (hdata : ∀ k < 8, data[8 * i + k]? = (leBytes 8 v)[k]?) : entry mem table i = v := by
  have hbytes : (List.range 8).map (fun k => mem (table + (8 * i + k))) = leBytes 8 v := by
    apply List.ext_getElem?
    intro k
    by_cases hk : k < 8
    · obtain ⟨b, hget⟩ : ∃ b, (leBytes 8 v)[k]? = some b :=
        ⟨_, List.getElem?_eq_getElem (by simpa using hk)⟩
      have hmem := h (8 * i + k) b ((hdata k hk).trans hget)
      simp only [List.getElem?_map, List.getElem?_range hk, Option.map_some]
      rw [hget, ← hmem]
    · rw [List.getElem?_eq_none (by simp; omega), List.getElem?_eq_none (by simp; omega)]
  rw [entry, hbytes, leNat_leBytes]
  exact Nat.mod_eq_of_lt (by simpa using hv)

/-! ### Loads -/

/-- The byte at a virtual address. -/
def load (mem : ℕ → UInt8) (cr3 va : ℕ) : Option UInt8 :=
  (walk mem cr3 va).map fun t => mem t.addr

/-- The `n` bytes from a virtual address on, each of them translated. -/
def loadBytes (mem : ℕ → UInt8) (cr3 va n : ℕ) : Option (List UInt8) :=
  (List.range n).mapM fun i => load mem cr3 (va + i)

/-- Where addresses are mapped to themselves, a load finds the piece that memory holds. -/
theorem loadBytes_of_holds {mem : ℕ → UInt8} {cr3 : ℕ} {p : Piece UInt8} (h : Holds mem p)
    (hid : ∀ a ∈ p.range, (walk mem cr3 a).map Mapping.addr = some a) :
    loadBytes mem cr3 p.start p.data.length = some p.data := by
  have hbyte : ∀ i < p.data.length, load mem cr3 (p.start + i) = p.data[i]? := by
    intro i hi
    have hat := hid (p.start + i) (Piece.mem_range.2 ⟨by omega, by omega⟩)
    obtain ⟨t, ht, haddr⟩ := Option.map_eq_some_iff.1 hat
    rw [load, ht, Option.map_some, haddr, List.getElem?_eq_getElem hi]
    exact congrArg some (h i _ (List.getElem?_eq_getElem hi))
  have hall : ∀ n ≤ p.data.length, loadBytes mem cr3 p.start n = some (p.data.take n) := by
    intro n
    induction n with
    | zero => exact fun _ => rfl
    | succ n ih =>
      intro hn
      have hprefix := ih (by omega)
      rw [loadBytes] at hprefix
      rw [loadBytes, List.range_succ, List.mapM_append, hprefix]
      simp only [List.mapM_cons, List.mapM_nil, hbyte n (by omega),
        List.getElem?_eq_getElem (show n < p.data.length by omega)]
      rw [List.take_add_one, List.getElem?_eq_getElem (show n < p.data.length by omega)]
      rfl
  rw [hall _ le_rfl, List.take_length]

end X86Paging

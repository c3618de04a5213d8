import Hitz.Lib.X86Paging

/-!
# Identity-mapped page tables (`hitz-boot/src/page_tables.rs`)

Three levels with 2 MiB pages: one PML4 with one entry, one PDPT with an entry per GiB, one page
directory per GiB.  `walk_pageTables`: memory that holds the tables maps every address below
`gib_count` GiB to itself.  `buildPageTables_identity`: the builder's writes map these addresses and
no others.
-/

namespace Hitz.Boot

open Bytes Layout X86Paging

/-- Errors of the Linux direct boot setup. -/
inductive BootError
  | invalidElf (message : String)
  | loadSegment (gpa size : ℕ) (reason : String)
  | writeFailed (message : String)
  | invalidBootParams (message : String)
  | invalidPageTableConfig (message : String)
  deriving DecidableEq, Repr

/-- `{n:#x}`. -/
def hex (n : ℕ) : String := "0x" ++ String.ofList (Nat.toDigits 16 n)

/-- A chunk of data to write into guest memory. -/
abbrev MemWrite := Piece UInt8

/-- Guest physical address of the PML4 table. -/
def pml4Gpa : ℕ := 0x8000

/-- Guest physical address of the PDPT table. -/
def pdptGpa : ℕ := 0x9000

/-- Guest physical address of the first page directory. -/
def pdBaseGpa : ℕ := 0xA000

/-- Present and writable: an entry that points to a table. -/
def tableFlags : ℕ := 0x3

/-- Present, writable and large: a 2 MiB page. -/
def hugePageFlags : ℕ := 0x83

/-- Size of a page table in bytes. -/
def pageSize : ℕ := 4096

/-- Entries of a page table. -/
def entriesPerTable : ℕ := 512

def hugePageSize : ℕ := 2 * 1024 * 1024

def oneGib : ℕ := 1024 * 1024 * 1024

/-- The most a single PDPT can map. -/
def maxGib : ℕ := 512

/-- Write a 64-bit value into slot `index` of a table. -/
def writeEntry (table : List UInt8) (index value : ℕ) : List UInt8 :=
  overwrite table (index * 8) (leBytes 8 value)

/-- A table with its first `n` entries written in order, as the loops of the builder do. -/
def fillTable (n : ℕ) (value : ℕ → ℕ) : List UInt8 :=
  (List.range n).foldl (fun table i => writeEntry table i (value i)) (List.replicate pageSize 0)

/-- One entry, pointing at the PDPT. -/
def pml4 : List UInt8 := writeEntry (List.replicate pageSize 0) 0 (pdptGpa ||| tableFlags)

/-- One entry per GiB, each pointing at a page directory. -/
def pdpt (gibCount : ℕ) : List UInt8 :=
  fillTable gibCount fun i => (pdBaseGpa + i * pageSize) ||| tableFlags

/-- The page directory of GiB number `i`. -/
def pd (i : ℕ) : List UInt8 :=
  fillTable entriesPerTable fun j => (i * oneGib + j * hugePageSize) ||| hugePageFlags

/-- The pages that `build_page_tables` returns. -/
def pageTables (gibCount : ℕ) : List MemWrite :=
  ⟨pml4Gpa, pml4⟩ :: ⟨pdptGpa, pdpt gibCount⟩ ::
    (List.range gibCount).map fun i => ⟨pdBaseGpa + i * pageSize, pd i⟩

/-- `build_page_tables`: the address for CR3 and the pages to write. -/
def buildPageTables (gibCount : ℕ) : Except BootError (ℕ × List MemWrite) :=
  if gibCount = 0 ∨ maxGib < gibCount then
    throw (.invalidPageTableConfig ("gib_count must be in 1..=" ++ toString maxGib ++ ", got " ++
      toString gibCount))
  else pure (pml4Gpa, pageTables gibCount)

/-! ### Entries of a table -/

theorem length_writeEntry {table : List UInt8} {index : ℕ} (value : ℕ)
    (h : index * 8 + 8 ≤ table.length) : (writeEntry table index value).length = table.length :=
  length_overwrite (by simpa using h)

theorem getElem?_writeEntry {table : List UInt8} {index : ℕ} (value : ℕ)
    (h : index * 8 + 8 ≤ table.length) {i k : ℕ} (hk : k < 8) :
    (writeEntry table index value)[8 * i + k]? =
      if i = index then (leBytes 8 value)[k]? else table[8 * i + k]? := by
  rw [writeEntry, getElem?_overwrite (by simpa using h)]
  by_cases hi : i = index
  · rw [if_pos (by simp; omega), if_pos hi]
    congr 1
    omega
  · rw [if_neg (by simp; omega), if_neg hi]

theorem fillTable_zero (value : ℕ → ℕ) : fillTable 0 value = List.replicate pageSize 0 := rfl

theorem fillTable_succ (n : ℕ) (value : ℕ → ℕ) :
    fillTable (n + 1) value = writeEntry (fillTable n value) n (value n) := by
  simp [fillTable, List.range_succ]

theorem length_fillTable {n : ℕ} (value : ℕ → ℕ) (hn : n ≤ 512) :
    (fillTable n value).length = 4096 := by
  induction n with
  | zero => rw [fillTable_zero, List.length_replicate, pageSize]
  | succ n ih =>
    have ih := ih (by omega)
    rw [fillTable_succ, length_writeEntry _ (by omega), ih]

/-- The entries written are there, the others are zero. -/
theorem getElem?_fillTable {n : ℕ} (value : ℕ → ℕ) (hn : n ≤ 512) {i k : ℕ} (hi : i < 512)
    (hk : k < 8) : (fillTable n value)[8 * i + k]? =
      if i < n then (leBytes 8 (value i))[k]? else some 0 := by
  induction n with
  | zero =>
    rw [fillTable_zero, if_neg (Nat.not_lt_zero i)]
    exact List.getElem?_replicate_of_lt (by rw [pageSize]; omega)
  | succ n ih =>
    have hlen := length_fillTable value (n := n) (by omega)
    rw [fillTable_succ, getElem?_writeEntry _ (by omega) hk, ih (by omega)]
    by_cases hin : i = n
    · subst hin
      simp
    · have : i < n + 1 ↔ i < n := by omega
      simp [hin, this]

theorem pml4_eq : pml4 = fillTable 1 fun _ => pdptGpa ||| tableFlags := by
  rw [fillTable_succ, fillTable_zero, pml4]

@[simp] theorem length_pml4 : pml4.length = 4096 := by
  rw [pml4_eq, length_fillTable _ (by omega)]

theorem length_pdpt {gibCount : ℕ} (h : gibCount ≤ 512) : (pdpt gibCount).length = 4096 :=
  length_fillTable _ h

@[simp] theorem length_pd (i : ℕ) : (pd i).length = 4096 := length_fillTable _ le_rfl

/-- Every page is a page of the block from the PML4 on. -/
theorem mem_pageTables {gibCount : ℕ} (h : gibCount ≤ 512) {p : MemWrite}
    (hp : p ∈ pageTables gibCount) : ∃ j < 2 + gibCount,
      p.start = pml4Gpa + j * pageSize ∧ p.data.length = pageSize := by
  simp only [pageTables, List.mem_cons, List.mem_map, List.mem_range] at hp
  rcases hp with rfl | rfl | ⟨i, hi, rfl⟩
  · exact ⟨0, by omega, by simp, by simp [pageSize]⟩
  · exact ⟨1, by omega, by simp [pml4Gpa, pdptGpa, pageSize], by simp [pageSize, length_pdpt h]⟩
  · refine ⟨2 + i, by omega, ?_, by simp [pageSize]⟩
    simp only [pml4Gpa, pdBaseGpa, pageSize]
    omega

theorem start_pageTables (gibCount : ℕ) :
    (pageTables gibCount).map Piece.start =
      (List.range (2 + gibCount)).map fun j => pml4Gpa + j * pageSize := by
  rw [Nat.add_comm, List.range_succ_eq_map, List.range_succ_eq_map]
  simp only [pageTables, List.map_cons, List.map_map, pml4Gpa, pdptGpa, pdBaseGpa, pageSize,
    Nat.zero_mul, Nat.add_zero, Function.comp_def, List.cons.injEq, true_and]
  apply List.map_congr_left
  intro i _
  omega

theorem pairwise_pageTables {gibCount : ℕ} (hgib : gibCount ≤ 512) :
    (pageTables gibCount).Pairwise Apart := by
  simp only [pageTables, List.pairwise_cons, List.mem_cons, List.mem_map, List.mem_range,
    List.pairwise_map]
  refine ⟨?_, ?_, ?_⟩
  · rintro p (rfl | ⟨i, hi, rfl⟩)
    · simp [apart_iff, length_pdpt hgib, pml4Gpa, pdptGpa]
    · simp only [apart_iff, length_pml4, length_pd, pml4Gpa, pdBaseGpa, pageSize]
      omega
  · rintro p ⟨i, hi, rfl⟩
    simp only [apart_iff, length_pdpt hgib, length_pd, pdptGpa, pdBaseGpa, pageSize]
    omega
  · refine List.pairwise_lt_range.imp ?_
    intro i j hij
    simp only [apart_iff, length_pd, pageSize]
    omega

/-! ### The walk -/

theorem or_flags {k a f : ℕ} (hf : f < 2 ^ k) : (2 ^ k * a) ||| f = 2 ^ k * a + f :=
  (Nat.two_pow_add_eq_or_of_lt hf a).symm

theorem pdptEntry_eq (i : ℕ) :
    (pdBaseGpa + i * pageSize) ||| tableFlags = 2 ^ 12 * (10 + i) + 3 := by
  rw [← or_flags (k := 12) (f := 3) (by omega), pdBaseGpa, pageSize, tableFlags]
  congr 1
  omega

theorem pdEntry_eq (i j : ℕ) :
    (i * oneGib + j * hugePageSize) ||| hugePageFlags = 2 ^ 21 * (512 * i + j) + 131 := by
  rw [← or_flags (k := 21) (f := 131) (by omega), oneGib, hugePageSize, hugePageFlags]
  congr 1
  omega

theorem getElem?_pd (i : ℕ) {j k : ℕ} (hj : j < 512) (hk : k < 8) :
    (pd i)[8 * j + k]? = (leBytes 8 (2 ^ 21 * (512 * i + j) + 131))[k]? := by
  rw [pd, getElem?_fillTable _ (by simp [entriesPerTable]) hj hk,
    if_pos (by simpa [entriesPerTable] using hj), pdEntry_eq]

/-- What memory that holds a table has for its entries. -/
theorem entry_fillTable {mem : ℕ → UInt8} {table n i : ℕ} {value : ℕ → ℕ} (hn : n ≤ 512)
    (h : Holds mem ⟨table, fillTable n value⟩) (hi : i < 512) (hv : i < n → value i < 2 ^ 64) :
    entry mem table i = if i < n then value i else 0 := by
  split_ifs with hin
  · refine entry_of_holds h (hv hin) fun k hk => ?_
    rw [getElem?_fillTable value hn hi hk, if_pos hin]
  · refine entry_of_holds h (by decide) fun k hk => ?_
    rw [getElem?_fillTable value hn hi hk, if_neg hin,
      show leBytes 8 0 = List.replicate 8 0 from rfl, List.getElem?_replicate_of_lt hk]

section Walk

variable {mem : ℕ → UInt8} {gibCount a : ℕ} (hg : gibCount ≤ 512)
  (h : ∀ p ∈ pageTables gibCount, Holds mem p)

include h in
theorem entry_pml4 {i : ℕ} (hi : i < 512) :
    entry mem pml4Gpa i = if i < 1 then 2 ^ 12 * 9 + 3 else 0 := by
  have hheld : Holds mem ⟨pml4Gpa, pml4⟩ := h _ (by simp [pageTables])
  rw [pml4_eq] at hheld
  exact entry_fillTable (by decide) hheld hi fun _ => by decide

include hg h in
theorem entry_pdpt {i : ℕ} (hi : i < 512) :
    entry mem (2 ^ 12 * 9) i = if i < gibCount then 2 ^ 12 * (10 + i) + 3 else 0 := by
  have hheld : Holds mem ⟨pdptGpa, pdpt gibCount⟩ := h _ (by simp [pageTables])
  have hentry := entry_fillTable hg hheld hi fun _ => by
    rw [pdptEntry_eq]
    omega
  rwa [pdptEntry_eq] at hentry

include h in
theorem entry_pd {i j : ℕ} (hi : i < gibCount) (hig : i < 512) (hj : j < 512) :
    entry mem (2 ^ 12 * (10 + i)) j = 2 ^ 21 * (512 * i + j) + 131 := by
  have hheld : Holds mem ⟨2 ^ 12 * (10 + i), pd i⟩ := by
    apply h
    simp only [pageTables, List.mem_cons, List.mem_map, List.mem_range]
    refine Or.inr (Or.inr ⟨i, hi, ?_⟩)
    rw [Piece.mk.injEq]
    simp only [pdBaseGpa, pageSize, and_true]
    omega
  rw [entry_fillTable le_rfl hheld hj, if_pos hj, pdEntry_eq]
  intro _
  rw [pdEntry_eq]
  omega

include hg h in
/-- **Identity map.**  Memory that holds the tables translates every address below `gibCount` GiB
to itself, through a writable 2 MiB page. -/
theorem walk_pageTables (ha : a < gibCount * oneGib) :
    walk mem pml4Gpa a = some ⟨a, hugePageSize, true⟩ := by
  simp only [oneGib, Nat.reduceMul] at ha
  have hroot : frame 12 pml4Gpa = pml4Gpa := by decide
  have h4 : a / 2 ^ 39 % 512 = 0 := by omega
  have h3 : a / 2 ^ 30 % 512 < gibCount := by omega
  have hpml4 := entry_pml4 h (i := 0) (by omega)
  have hpdpt := entry_pdpt hg h (i := a / 2 ^ 30 % 512) (by omega)
  have hpd := entry_pd h h3 (by omega) (j := a / 2 ^ 21 % 512) (by omega)
  rw [if_pos h3] at hpdpt
  rw [walk_hugePage 9 _ _ (by omega) (by omega) (by omega) (by rw [hroot, h4, hpml4]; rfl)
    hpdpt hpd]
  simp only [Option.some.injEq, Mapping.mk.injEq, and_true]
  constructor
  · omega
  · rfl

include hg h in
/-- Every other canonical address meets an entry that is not present. -/
theorem walk_pageTables_eq_none (hcanonical : Canonical a) (ha : gibCount * oneGib ≤ a) :
    walk mem pml4Gpa a = none := by
  simp only [oneGib, Nat.reduceMul] at ha
  have hroot : frame 12 pml4Gpa = pml4Gpa := by decide
  have hpml4 := entry_pml4 h (i := a / 2 ^ 39 % 512) (by omega)
  rcases Nat.eq_zero_or_pos (a / 2 ^ 39 % 512) with h4 | h4
  · -- in the first 512 GiB, beyond the last entry of the PDPT
    unfold Canonical at hcanonical
    have h3 : ¬a / 2 ^ 30 % 512 < gibCount := by omega
    have hpdpt := entry_pdpt hg h (i := a / 2 ^ 30 % 512) (by omega)
    rw [if_neg h3] at hpdpt
    rw [if_pos (by omega)] at hpml4
    refine walk_eq_none_of_pdpt 9 (by omega) (by rw [hroot, hpml4]) ?_
    rw [hpdpt]
    decide
  · rw [if_neg (by omega)] at hpml4
    apply walk_eq_none_of_pml4
    rw [hroot, hpml4]
    decide

end Walk

/-- **Exactly the range.**  In memory that was zeroed, the writes map every canonical address below
`gibCount` GiB to itself, and no other; and they are pages, apart from each other. -/
theorem buildPageTables_identity {gibCount root : ℕ} {writes : List MemWrite}
    (h : buildPageTables gibCount = .ok (root, writes)) :
    (∀ v, Canonical v → walk (overlay (fun _ => 0) writes) root v =
      if v < gibCount * oneGib then some ⟨v, hugePageSize, true⟩ else none) ∧
    writes.Pairwise Apart ∧ ∀ p ∈ writes, p.data.length = pageSize ∧ pageSize ∣ p.start := by
  unfold buildPageTables at h
  split_ifs at h with hcount
  cases h
  unfold maxGib at hcount
  have hg : gibCount ≤ 512 := by omega
  have hpairwise := pairwise_pageTables hg
  have hheld : ∀ p ∈ pageTables gibCount, Holds (overlay (fun _ => 0) (pageTables gibCount)) p :=
    fun p hp => holds_of_pairwise _ hp hpairwise
  refine ⟨fun v hv => ?_, hpairwise, fun p hp => ?_⟩
  · split_ifs with hlt
    · exact walk_pageTables hg hheld hlt
    · exact walk_pageTables_eq_none hg hheld hv (not_lt.1 hlt)
  · obtain ⟨j, -, hstart, hlen⟩ := mem_pageTables hg hp
    refine ⟨hlen, ?_⟩
    rw [hstart]
    exact dvd_add (by decide) (Nat.dvd_mul_left _ _)

/-- The tables of 2 GiB. -/
theorem buildPageTables_two : ∃ root writes, buildPageTables 2 = .ok (root, writes) ∧
    walk (overlay (fun _ => 0) writes) root 0x7FFFFFFF = some ⟨0x7FFFFFFF, 0x200000, true⟩ ∧
    walk (overlay (fun _ => 0) writes) root 0x80000000 = none := by
  have hwalk := (buildPageTables_identity (show buildPageTables 2 = .ok (pml4Gpa, pageTables 2)
    from rfl)).1
  refine ⟨pml4Gpa, pageTables 2, rfl, ?_, ?_⟩
  · exact (hwalk 0x7FFFFFFF (Or.inl (by decide))).trans (if_pos (by decide))
  · exact (hwalk 0x80000000 (Or.inl (by decide))).trans (if_neg (by decide))

end Hitz.Boot

import QemuIos.Fmss.Packed

/-!
# Reads of the packed image stay inside the file

A record that is copied always lies in the file. The word of the index that leads to it does so for
every page exactly if the size of the index fits a `size_t`: the product of the two counts is taken
out of the header unchecked, and one that wraps around passes for a short index.
-/

namespace QemuIos.Fmss
open List Nat

open Fmc (HostFile)

variable {file : HostFile} {p : Packed} {cs page : Nat}

/-- An access lies inside the file. -/
def Inside (file : HostFile) (access : Nat × Nat) : Prop := access.1 + access.2 ≤ file.len

instance (file : HostFile) (access : Nat × Nat) : Decidable (Inside file access) :=
  inferInstanceAs (Decidable (_ ≤ _))

/-- What a mapped image keeps of its file. -/
structure Packed.Maps (p : Packed) (file : HostFile) : Prop where
  same : p.file = file
  numCs : p.numCs = file.bytes.word 16
  pagesPerCs : p.pagesPerCs = file.bytes.word 20
  records : p.records = 24 + p.numCs * p.pagesPerCs * 4 % 2 ^ 64
  start : p.records ≤ file.len
  count : p.recordCount = (file.len - p.records) / bytesPerRecord

theorem tryMapPacked_maps (mapped : tryMapPacked file = some p) : p.Maps file := by
  unfold tryMapPacked at mapped
  split at mapped
  · cases mapped
  · next header =>
    split at mapped
    · cases mapped
    dsimp only at mapped
    split at mapped
    · cases mapped
    · next fits =>
      cases mapped
      exact ⟨rfl, rfl, rfl, rfl, by dsimp only; omega, by dsimp only; rw [Nat.sub_sub]⟩

theorem Packed.Maps.record_inside (maps : p.Maps file) {slot : Nat} (named : slot ≠ 0)
    (small : slot ≤ p.recordCount) :
    p.records + (slot - 1) * bytesPerRecord + bytesPerRecord ≤ file.len := by
  have start := maps.start
  have count := maps.count
  have room : p.recordCount * bytesPerRecord ≤ file.len - p.records := by
    rw [count]
    exact div_mul_le_self _ _
  have last : (slot - 1) * bytesPerRecord + bytesPerRecord = slot * bytesPerRecord := by
    rw [← succ_mul]
    congr 1
    omega
  have below : slot * bytesPerRecord ≤ p.recordCount * bytesPerRecord := mul_le_mul_right _ small
  omega

/-- The accesses of a read are inside the file as soon as the word of the index is. -/
theorem packedPage_inside (maps : p.Maps file) (word : cs < p.numCs → page < p.pagesPerCs →
      24 + 4 * (cs * p.pagesPerCs + page) + 4 ≤ file.len) :
    ∀ access ∈ (packedPage p cs page).2, Inside file access := by
  intro access made
  unfold packedPage at made
  split at made
  · cases made
  · next valid =>
    have first := word (by omega) (by omega)
    dsimp only at made
    split at made
    · cases mem_singleton.mp made
      exact first
    · next named =>
      split at made
      · cases mem_singleton.mp made
        exact first
      · next small =>
        have whole := maps.record_inside named (not_lt.mp small)
        rcases mem_cons.mp made with rfl | made
        · exact first
        rcases mem_cons.mp made with rfl | made
        · unfold Inside
          unfold bytesPerRecord at whole ⊢
          dsimp only
          omega
        · cases mem_singleton.mp made
          unfold Inside
          unfold bytesPerRecord at whole ⊢
          dsimp only
          omega

/-- A read of a page that the header counts loads its word of the index. -/
theorem packedPage_word (chip : cs < p.numCs) (low : page < p.pagesPerCs) :
    (24 + 4 * (cs * p.pagesPerCs + page), 4) ∈ (packedPage p cs page).2 := by
  unfold packedPage
  rw [if_neg (by omega)]
  dsimp only
  split
  · exact mem_cons_self
  · split
    · exact mem_cons_self
    · exact mem_cons_self

theorem index_lt {numCs pagesPerCs : Nat} (chip : cs < numCs) (low : page < pagesPerCs) :
    cs * pagesPerCs + page < numCs * pagesPerCs := by
  calc cs * pagesPerCs + page < cs * pagesPerCs + pagesPerCs := Nat.add_lt_add_left low _
    _ = (cs + 1) * pagesPerCs := (Nat.succ_mul cs pagesPerCs).symm
    _ ≤ numCs * pagesPerCs := Nat.mul_le_mul_right _ chip

/-- With a file of a size that an `off_t` can tell, every read of an image that was accepted stays
in the file exactly if the size of the index does not wrap around. -/
theorem packed_reads_inside_iff {file : HostFile} (size : file.len < 2 ^ 63) {p : Packed}
    (mapped : tryMapPacked file = some p) :
    (∀ cs < 2 ^ 32, ∀ page < 2 ^ 32, ∀ access ∈ (packedPage p cs page).2, Inside file access) ↔
      file.bytes.word 16 * file.bytes.word 20 * 4 < 2 ^ 64 := by
  have maps := tryMapPacked_maps mapped
  rw [← maps.numCs, ← maps.pagesPerCs]
  constructor
  · intro inside
    refine Nat.lt_of_not_le fun large => ?_
    -- The header counts more pages than the file has words, so some word lies behind its end.
    have more : file.len / 4 < p.numCs * p.pagesPerCs := by omega
    have pages : 0 < p.pagesPerCs := Nat.pos_of_ne_zero fun zero => by
      rw [zero, Nat.mul_zero] at more
      omega
    have chip : file.len / 4 / p.pagesPerCs < p.numCs := by
      rw [div_lt_iff_lt_mul pages]
      exact more
    have low := mod_lt (file.len / 4) pages
    have numCs : p.numCs < 2 ^ 32 := by
      rw [maps.numCs]
      exact Mem.word_lt _ _
    have pagesPerCs : p.pagesPerCs < 2 ^ 32 := by
      rw [maps.pagesPerCs]
      exact Mem.word_lt _ _
    have past := inside _ (chip.trans numCs) _ (low.trans pagesPerCs) _ (packedPage_word chip low)
    unfold Inside at past
    dsimp only at past
    rw [mul_comm _ p.pagesPerCs, div_add_mod] at past
    omega
  · intro small cs _ page _
    refine packedPage_inside maps fun chip low => ?_
    have start := maps.start
    rw [maps.records, mod_eq_of_lt small] at start
    have below := index_lt chip low
    omega

/-- An image of one chip select with one page: the header, its index word, and its record of
zeros. -/
def onePage : HostFile :=
  ⟨28 + 4160, Mem.ofList (CText.ascii "ITNAND01" ++
    [0, 16, 0, 0, 64, 0, 0, 0, 1, 0, 0, 0, 1, 0, 0, 0] ++ [1, 0, 0, 0])⟩

/-- The word and both parts of the record are read, and all reads are inside. -/
theorem one_page_read_inside :
    ∃ p, tryMapPacked onePage = some p ∧
      (packedPage p 0 0).2 = [(24, 4), (28, 4096), (4124, 64)] ∧
      ∀ cs < 2 ^ 32, ∀ page < 2 ^ 32, ∀ access ∈ (packedPage p cs page).2, Inside onePage access :=
  ⟨_, rfl, by decide +kernel, (packed_reads_inside_iff (by decide) rfl).mpr (by decide)⟩

/-- A header alone, of 2 ^ 31 chip selects with 2 ^ 31 pages each. -/
def wrappedImage : HostFile :=
  ⟨24, Mem.ofList
    (CText.ascii "ITNAND01" ++ [0, 16, 0, 0, 64, 0, 0, 0, 0, 0, 0, 0x80, 0, 0, 0, 0x80])⟩

/-- The image is accepted, and the first word of its index lies behind the end of the file. -/
theorem wrapped_index_read_outside :
    ∃ p, tryMapPacked wrappedImage = some p ∧
      ∃ access ∈ (packedPage p 0 0).2, ¬ Inside wrappedImage access := by
  refine ⟨_, rfl, (24, 4), ?_, ?_⟩
  · decide +kernel
  · decide +kernel

end QemuIos.Fmss

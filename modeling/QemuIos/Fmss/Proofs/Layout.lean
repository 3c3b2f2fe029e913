import QemuIos.Fmss.Store

/-!
# The generated layout and the free pool

The generated image deals the blocks of its volume out over four chip selects and two planes. No two
blocks share a page, all pages lie in erase blocks 2 to 4094, and the pool of free blocks that takes
the place of the factory's lies behind all of them.
-/

namespace QemuIos.Fmss

variable {blocks logical : Nat} {c : Nat × Nat}

/-- The erase block of a page. -/
def blockOfPage (page : Nat) : Nat := page / pagesPerBlock

/-- Where a block of the volume goes. -/
theorem generatedLayout_some (home : generatedLayout blocks logical = some c) :
    3 ≤ logical ∧ logical < 3 + blocks ∧ c.1 = logical % 4 ∧
      blockOfPage c.2 = 2 * (logical / 1024) + 2 + logical / 4 % 2 ∧
      c.2 % pagesPerBlock = logical / 4 % 256 / 2 := by
  unfold generatedLayout at home
  split at home
  · cases home
  cases home
  have quotient : logical / 4 / 256 = logical / 1024 := Nat.div_div_eq_div_mul logical 4 256
  unfold blockOfPage pagesPerBlock
  dsimp only
  omega

theorem generatedLayout_isSome (low : 3 ≤ logical) (high : logical < 3 + blocks) :
    ∃ c, generatedLayout blocks logical = some c := by
  unfold generatedLayout
  rw [if_neg (by omega)]
  exact ⟨_, rfl⟩

/-- The block that goes somewhere can be told from there. -/
theorem generatedLayout_injective {logical' : Nat}
    (home : generatedLayout blocks logical = some c)
    (home' : generatedLayout blocks logical' = some c) : logical = logical' := by
  obtain ⟨_, _, chip, block, page⟩ := generatedLayout_some home
  obtain ⟨_, _, chip', block', page'⟩ := generatedLayout_some home'
  omega

/-- The erase blocks of a volume of at most the largest size. -/
theorem generatedLayout_block (small : blocks ≤ maxTotalBlocks)
    (home : generatedLayout blocks logical = some c) :
    c.1 ≤ 3 ∧ 2 ≤ blockOfPage c.2 ∧ blockOfPage c.2 ≤ 4094 := by
  obtain ⟨_, high, chip, block, _⟩ := generatedLayout_some home
  unfold maxTotalBlocks at small
  omega

namespace Store

variable {first : Nat}

theorem totalBlocks_le (s : Store) : s.totalBlocks.1 ≤ maxTotalBlocks := by
  have default' : defaultTotalBlocks ≤ maxTotalBlocks := by decide
  unfold totalBlocks
  split
  · exact s.small
  dsimp only
  split
  · next n small _ => exact small
  · exact default'

/-- A pool starts behind the volume and ends before the last erase block. -/
theorem freePool_some {mode : Mode} {s : Store} {cs page : Nat} {r : Record}
    (pool : (freePool mode s cs page r).1 = some first) :
    (s.totalBlocks.1 + 3 + 1023) / 1024 + 1 ≤ first ∧ first + 20 ≤ 2047 := by
  unfold freePool at pool
  split at pool
  · dsimp only at pool
    split at pool
    · cases pool
    split at pool
    · cases pool
    · next room =>
      cases pool
      omega
  · cases pool

/-- The entries of a pool, as a loop stores them. -/
theorem half_pool (m : Mem) {n : Nat} (small : first + n ≤ 2 ^ 16) {i : Nat} (inside : i < n) :
    ((List.range n).foldl (fun m i => Mem.setHalf m (14 + i * 2) (first + i)) m).half (14 + i * 2) =
      first + i := by
  induction n with
  | zero => cases inside
  | succ n ih =>
    rw [List.range_succ, List.foldl_concat]
    rcases Nat.lt_succ_iff_lt_or_eq.mp inside with before | rfl
    · rw [Mem.half_setHalf_of_apart _ _ (.inr (by omega))]
      exact ih (by omega) before
    · exact Mem.half_setHalf _ _ (by omega)

theorem half_fixGeneratedFreePool {mode : Mode} {s : Store} {cs page : Nat} {r : Record}
    (pool : (freePool mode s cs page r).1 = some first) {i : Nat} (inside : i < 20) :
    (fixGeneratedFreePool mode s cs page r).1.data.half (14 + i * 2) = first + i := by
  have room := (freePool_some pool).2
  unfold fixGeneratedFreePool
  cases found : freePool mode s cs page r with
  | mk start s' =>
    rw [found] at pool
    cases pool
    exact half_pool r.data (by omega) inside

/-- For every size of the volume that can be read out of an image: the layout is injective on the
volume and stays in chip selects 0 to 3 and erase blocks 2 to 4094. A pool that is put in place of
the factory's has none of the erase blocks of the volume, and not the last one. -/
theorem generated_layout_and_pool (s : Store) :
    let blocks := s.totalBlocks.1
    blocks ≤ 2090000 ∧
    (∀ logical logical' c, generatedLayout blocks logical = some c →
      generatedLayout blocks logical' = some c → logical = logical') ∧
    (∀ logical, 3 ≤ logical → logical < 3 + blocks → ∃ cs page,
      generatedLayout blocks logical = some (cs, page) ∧ cs ≤ 3 ∧ 2 ≤ page / 128 ∧
        page / 128 ≤ 4094) ∧
    ∀ mode cs page r first, (freePool mode s cs page r).1 = some first → ∀ i < 20,
      let v := (fixGeneratedFreePool mode s cs page r).1.data.half (14 + i * 2)
      v = first + i ∧ 2 * v + 1 < 4095 ∧
        ∀ logical cs' page', generatedLayout blocks logical = some (cs', page') →
          page' / 128 ≠ 2 * v ∧ page' / 128 ≠ 2 * v + 1 := by
  have small := s.totalBlocks_le
  refine ⟨small, fun _ _ _ => generatedLayout_injective, ?_, ?_⟩
  · intro logical low high
    obtain ⟨⟨cs, page⟩, home⟩ := generatedLayout_isSome low high
    exact ⟨cs, page, home, generatedLayout_block small home⟩
  · intro mode cs page r first pool i inside
    have entry := half_fixGeneratedFreePool pool inside
    obtain ⟨behind, room⟩ := freePool_some pool
    refine ⟨entry, ?_, fun logical cs' page' home => ?_⟩
    · rw [entry]
      omega
    · obtain ⟨_, high, _, block, _⟩ := generatedLayout_some home
      rw [entry]
      unfold blockOfPage pagesPerBlock at block
      dsimp only at block
      omega

/-- A base directory whose partition ends at block 128002. -/
def generatedImage : Store where
  image := none
  overlay := none
  base := .dir fun key =>
    if key = (2, 256) then
      .found ⟨4160, Mem.setWord (Mem.setWord (fun _ => 0) 0x20 3) 0x28 128002⟩
    else .absent
  physPages := fun _ => none
  erasedBlocks := fun _ => false
  blocks := 0
  small := Nat.zero_le _
  fromGpt := false
  ioFailed := false

/-- The factory's free list: blocks 3 to 22. -/
def factoryPool : Record where
  data := Mem.setWord (Mem.setWord (Mem.setWord
    ((List.range 20).foldl (fun m i => Mem.setHalf m (14 + i * 2) (i + 3)) fun _ => 0)
      8 20) 2040 0x46560000) 2044 0xb9a9ffff
  spare := fun _ => 0x43

example : (freePool ⟨false, false, false, false, false⟩ generatedImage 3 255 factoryPool).1 =
    some 127 := by decide +kernel

end Store

end QemuIos.Fmss

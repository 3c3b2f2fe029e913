import QemuIos.Fmss.Pages

/-!
# Pages that read back from memory

A page is remembered under a key of 32 bits, its chip select above its number. Write scripts are
checked to name a page of the chip, so that the keys of what they program are all different; a read
is not, and one with bits above the 24th finds the page of another chip select.
-/

namespace QemuIos.Fmss

open Function List Nat

variable {cs page : Nat}

theorem blockKey_eq (chip : cs < 2 ^ 8) (low : page < 2 ^ 24) :
    blockKey cs page = cs * 2 ^ 24 + page := by
  have shifted : (cs <<< 24) % 2 ^ 32 = cs <<< 24 := by
    rw [shiftLeft_eq]
    exact mod_eq_of_lt (by omega)
  unfold blockKey
  rw [shifted, ← shiftLeft_add_eq_or_of_lt low, shiftLeft_eq]

theorem blockKey_injective {cs' page' : Nat} (chip : cs < 2 ^ 8) (chip' : cs' < 2 ^ 8)
    (low : page < 2 ^ 24) (low' : page' < 2 ^ 24) (same : blockKey cs page = blockKey cs' page') :
    cs = cs' ∧ page = page' := by
  rw [blockKey_eq chip low, blockKey_eq chip' low'] at same
  omega

/-- The bits of a page above the 24th count for the chip select. -/
theorem blockKey_high (chip : cs < 2 ^ 8) (word : page < 2 ^ 32) :
    blockKey cs page = blockKey (cs ||| page / 2 ^ 24) (page % 2 ^ 24) := by
  have high : page / 2 ^ 24 < 2 ^ 8 := by omega
  have low := mod_lt page (show 0 < 2 ^ 24 by decide)
  have parts : page = (page / 2 ^ 24) <<< 24 ||| page % 2 ^ 24 := by
    rw [← shiftLeft_add_eq_or_of_lt low, shiftLeft_eq]
    omega
  have small : cs <<< 24 < 2 ^ 32 := by
    rw [shiftLeft_eq]
    omega
  have small' : (cs ||| page / 2 ^ 24) <<< 24 < 2 ^ 32 := by
    have both := or_lt_two_pow chip high
    rw [shiftLeft_eq]
    omega
  unfold blockKey
  rw [Nat.mod_eq_of_lt small, Nat.mod_eq_of_lt small']
  conv_lhs => rw [parts]
  rw [← Nat.or_assoc, ← Nat.shiftLeft_or_distrib]

namespace Store

/-- Nothing new is remembered. -/
def Shrinks (s s' : Store) : Prop := ∀ k r, s'.physPages k = some r → s.physPages k = some r

variable (s : Store)

theorem Shrinks.refl : s.Shrinks s := fun _ _ found => found

theorem Shrinks.trans {s s' s'' : Store} (first : s.Shrinks s') (second : s'.Shrinks s'') :
    s.Shrinks s'' := fun k r found => first k r (second k r found)

theorem Shrinks.of_eq {s s' : Store} (same : s'.physPages = s.physPages) : s.Shrinks s' := by
  intro k r found
  rw [← same]
  exact found

theorem update_none {pages : Nat → Option Record} {key k : Nat} {r : Record}
    (found : update pages key none k = some r) : pages k = some r := by
  by_cases own : k = key
  · rw [own, update_self] at found
    cases found
  · rwa [update_of_ne own] at found

theorem physPages_gptEntry : s.gptEntry.2.physPages = s.physPages := by
  unfold gptEntry
  split
  · rfl
  · split
    · split <;> rfl
    · split <;> rfl

theorem physPages_totalBlocks : s.totalBlocks.2.physPages = s.physPages := by
  unfold totalBlocks
  split
  · rfl
  dsimp only
  split
  · exact s.physPages_gptEntry
  · exact s.physPages_gptEntry

theorem physPages_layout (logical : Nat) : (s.layout logical).2.physPages = s.physPages := by
  unfold layout
  split
  · rfl
  · exact s.physPages_totalBlocks

variable (mode : Mode)

variable (s : Store)

theorem physPages_blockIsErased (cs block : Nat) :
    (s.blockIsErased mode cs block).2.physPages = s.physPages := by
  unfold blockIsErased
  split
  · rfl
  split
  · rfl
  · split
    · rfl
    · split <;> rfl

theorem physPages_freePool (cs page : Nat) (r : Record) :
    (freePool mode s cs page r).2.physPages = s.physPages := by
  unfold freePool
  split
  · dsimp only
    split
    · exact s.physPages_totalBlocks
    · split
      · exact s.physPages_totalBlocks
      · exact s.physPages_totalBlocks
  · rfl

/-- Reading a page forgets and remembers nothing. -/
theorem physPages_loadPage (cs page : Nat) :
    (s.loadPage mode cs page).2.physPages = s.physPages := by
  have inner : (s.loadPageInner mode cs page).2.physPages = s.physPages := by
    unfold loadPageInner
    split
    · rfl
    split
    · dsimp only
      split <;> rfl
    · split
      · rfl
      · exact s.physPages_blockIsErased mode cs _
  unfold loadPage fixGeneratedFreePool
  dsimp only
  have pool := physPages_freePool mode (s.loadPageInner mode cs page).2 cs page
    (s.loadPageInner mode cs page).1
  split
  · next found =>
    rw [found] at pool
    exact pool.trans inner
  · next found =>
    rw [found] at pool
    exact pool.trans inner

theorem shrinks_removePages (cs : Nat) (ps : List Nat) :
    s.Shrinks (s.removePages cs ps).2 := by
  induction ps generalizing s with
  | nil => exact .refl s
  | cons p ps ih =>
    unfold removePages
    split
    · exact .refl s
    dsimp only
    split
    · intro k r found
      exact update_none (ih _ k r found)
    · exact .of_eq rfl

theorem shrinks_eraseBlock (cs block : Nat) : s.Shrinks (s.eraseBlock cs block).2 := by
  unfold eraseBlock
  split
  · exact .refl s
  · next o _ =>
    dsimp only
    split
    · have removed := shrinks_removePages
        { s with overlay := some { o.ask.2 with
          marker := update o.ask.2.marker (cs, block) true } }
        cs (range' (block * pagesPerBlock) pagesPerBlock)
      split
      · next found =>
        rw [found] at removed
        exact removed
      · next found =>
        rw [found] at removed
        exact removed
    · exact .of_eq rfl

theorem shrinks_forgetBlock (cs block : Nat) : s.Shrinks (s.forgetBlock cs block) := by
  have pages : ∀ (ps : List Nat) (pages : Nat → Option Record) k r,
      ps.foldl (fun pages p => update pages (blockKey cs p) none) pages k = some r →
        pages k = some r := by
    intro ps
    induction ps with
    | nil => exact fun pages k r found => found
    | cons p ps ih => exact fun pages k r found => update_none (ih _ k r found)
  exact fun k r found => pages _ s.physPages k r found

theorem shrinks_scriptErase (select row : Nat) :
    s.Shrinks (s.scriptErase mode select row).2 := by
  unfold scriptErase
  dsimp only
  split
  · exact .refl s
  · split
    · exact .refl s
    · next ce _ =>
      split
      · exact .refl s
      · split
        · next n _ =>
          have forgotten := shrinks_forgetBlock
            { s with image := some (n.erase ce (row / pagesPerBlock)).2 } ce (row / pagesPerBlock)
          generalize forgetBlock { s with image := some (n.erase ce (row / pagesPerBlock)).2 }
            ce (row / pagesPerBlock) = s' at forgotten ⊢
          dsimp only
          split
          · exact forgotten
          · exact forgotten
        · exact s.shrinks_eraseBlock _ _

theorem shrinks_inferErase (cs page : Nat) :
    s.Shrinks (s.inferErase mode cs page).2 := by
  unfold inferErase
  split
  · have known := physPages_blockIsErased mode s cs (page / pagesPerBlock)
    dsimp only
    split
    · exact (Shrinks.of_eq known).trans (shrinks_eraseBlock _ _ _)
    · exact .of_eq known
  · exact .refl s

theorem shrinks_storePage (cs page : Nat) (r : Record) :
    s.Shrinks (s.storePage mode cs page r).2 := by
  unfold storePage
  split
  · dsimp only
    split <;> exact .of_eq rfl
  · split
    · exact .refl s
    · next o _ =>
      dsimp only
      split
      · exact .of_eq rfl
      · have erased : s.Shrinks (inferErase mode { s with overlay := some o.ask.2 } cs page).2 :=
          shrinks_inferErase mode { s with overlay := some o.ask.2 } cs page
        generalize inferErase mode { s with overlay := some o.ask.2 } cs page = result at erased ⊢
        split
        · exact erased
        · split
          · exact erased
          · split
            · exact erased
            · exact erased

end Store

/-! ### What write scripts program -/

/-- A write script has an accepted entry for a page of a chip select, with these contents. -/
def WriteDma.Programs (mode : Mode) (dma : WriteDma) (cs page : Nat) (r : Record) : Prop :=
  ∃ i cmd, (if mode.legacy then
      ∃ word, dma.header = some word ∧ cmd = 2 ^ ((findBitIndex word + i) % 4)
      else dma.cmd i = some cmd) ∧
    dma.page i = some page ∧ Store.acceptsEntry cmd page = true ∧ dma.record i = some r ∧
    cs = findBitIndex cmd

/-- The chip select and the page of what a script programs. -/
theorem WriteDma.Programs.bounds {mode : Mode} {dma : WriteDma} {cs page : Nat} {r : Record}
    (programs : dma.Programs mode cs page r) : cs ≤ 3 ∧ page < 2 ^ 19 := by
  obtain ⟨i, cmd, _, _, accepted, _, rfl⟩ := programs
  unfold Store.acceptsEntry blocksPerChip pagesPerBlock at accepted
  simp only [Bool.and_eq_true, decide_eq_true_eq] at accepted
  exact ⟨accepted.1.2, accepted.2⟩

namespace Store

variable {mode : Mode} {old s : Store} {dma : WriteDma} {cs page : Nat} {r : Record}
  {events : List PageEvent}

/-- Every page in memory was there before, or is what the script programs where its key says. -/
def Adds (mode : Mode) (dma : WriteDma) (old s : Store) : Prop :=
  ∀ k r, s.physPages k = some r →
    old.physPages k = some r ∨ ∃ cs page, k = blockKey cs page ∧ dma.Programs mode cs page r

section

variable (ok : old.Adds mode dma s)
include ok

theorem Adds.shrinks {s' : Store} (shrinks : s.Shrinks s') : old.Adds mode dma s' :=
  fun k r found => ok k r (shrinks k r found)

theorem Adds.rememberPhysical (programs : dma.Programs mode cs page r) :
    old.Adds mode dma (s.rememberPhysical cs page r) := by
  intro k r' found
  unfold Store.rememberPhysical at found
  dsimp only at found
  by_cases own : k = blockKey cs page
  · rw [own, update_self] at found
    cases found
    exact .inr ⟨cs, page, own, programs⟩
  · rw [update_of_ne own] at found
    exact ok k r' found

theorem Adds.program (programs : dma.Programs mode cs page r) :
    old.Adds mode dma (s.program mode cs page r).2 := by
  unfold Store.program
  split
  · have stored := ok.shrinks (shrinks_storePage mode s cs page r)
    split
    · next found =>
      rw [found] at stored
      exact stored.rememberPhysical programs
    · next found =>
      rw [found] at stored
      exact stored
  · have laid := ok.shrinks (.of_eq (s.physPages_layout (r.spare.word 0)))
    split
    · next found =>
      rw [found] at laid
      exact laid.rememberPhysical programs
    · next cs' page' s' found =>
      rw [found] at laid
      have stored :=
        laid.shrinks (shrinks_storePage mode s' cs' page' { r with spare := generatedSpare })
      split
      · next found =>
        rw [found] at stored
        exact stored.rememberPhysical programs
      · next found =>
        rw [found] at stored
        exact stored

theorem Adds.writeEntry {i cmd : Nat}
    (named : ∀ r, acceptsEntry cmd page = true → dma.record i = some r →
      dma.Programs mode (findBitIndex cmd) page r) :
    old.Adds mode dma (s.writeEntry mode dma i cmd page).2 := by
  unfold Store.writeEntry
  split
  · exact ok
  · next accepted =>
    split
    · exact ok
    · next r found =>
      exact ok.program (named r (Bool.eq_true_of_not_eq_false accepted) found)

theorem Adds.writeEntries {header : Nat}
    (legacy : mode.legacy = true → ∃ word, dma.header = some word ∧ header = findBitIndex word)
    (count : Int) (fuel i : Nat) :
    old.Adds mode dma (s.writeEntries mode dma header count fuel i) := by
  induction fuel generalizing s i with
  | zero => exact ok
  | succ fuel ih =>
    unfold Store.writeEntries
    split
    · next earlier =>
      obtain ⟨word, first, rfl⟩ := legacy earlier
      split
      · exact ok
      split
      · exact ok
      · next page found =>
        have entry : old.Adds mode dma
            (s.writeEntry mode dma i (2 ^ ((findBitIndex word + i) % 4)) page).2 := by
          refine ok.writeEntry fun r accepted contents => ?_
          refine ⟨i, _, ?_, found, accepted, contents, rfl⟩
          rw [if_pos earlier]
          exact ⟨word, first, rfl⟩
        split
        · next after =>
          rw [after] at entry
          exact ih entry (i + 1)
        · next after =>
          rw [after] at entry
          exact entry
    · next new =>
      split
      · exact ok
      · exact ok
      · next cmd _ command =>
        split
        · exact ok
        · next page found =>
          have entry : old.Adds mode dma (s.writeEntry mode dma i cmd page).2 := by
            refine ok.writeEntry fun r accepted contents => ?_
            refine ⟨i, cmd, ?_, found, accepted, contents, rfl⟩
            rw [if_neg new]
            exact command
          split
          · next after =>
            rw [after] at entry
            exact ih entry (i + 1)
          · next after =>
            rw [after] at entry
            exact entry

end

/-- What a script leaves in memory. -/
theorem adds_writeNandPages (mode : Mode) (s : Store) (numPages : Nat) (dma : WriteDma) :
    s.Adds mode dma (writeNandPages mode s numPages dma) := by
  have ok : s.Adds mode dma s := fun _ _ found => .inl found
  unfold writeNandPages
  split
  · exact ok
  · split
    · exact ok
    · dsimp only
      split
      · next earlier =>
        split
        · exact ok
        · next word first => exact ok.writeEntries (fun _ => ⟨word, first, rfl⟩) _ _ 0
      · next new => exact ok.writeEntries (fun earlier => absurd earlier new) _ _ 0

/-- What any other event leaves in memory was there before. -/
theorem shrinks_step (mode : Mode) (s : Store) {e : PageEvent}
    (other : ∀ numPages dma, e ≠ .write numPages dma) : s.Shrinks (s.step mode e) := by
  cases e with
  | write numPages dma => exact absurd rfl (other numPages dma)
  | erase select row => exact shrinks_scriptErase mode s select row
  | load cs page => exact .of_eq (physPages_loadPage mode s cs page)
  | reset =>
    unfold step reset
    dsimp only
    split
    · exact .refl s
    · exact nofun

/-- Among some events, a script programs these contents at a page, and no later event erases or
replaces them. -/
def Holds (mode : Mode) (s : Store) (events : List PageEvent) (cs page : Nat) (r : Record) : Prop :=
  ∃ before numPages dma after, events = before ++ .write numPages dma :: after ∧
    dma.Programs mode cs page r ∧
    ∀ n, ((before ++ .write numPages dma :: after.take n).foldl (step mode) s).recallPhysical cs
      page = some r

/-- What is in memory after any events was programmed where its key says, and is there since. -/
theorem holds_run (mode : Mode) {s : Store} (new : s.physPages = fun _ => none)
    (events : List PageEvent) {k : Nat} {r : Record}
    (found : (events.foldl (step mode) s).physPages k = some r) :
    ∃ cs page, k = blockKey cs page ∧ s.Holds mode events cs page r := by
  induction events using reverseRecOn with
  | nil =>
    rw [foldl_nil, new] at found
    cases found
  | append_singleton events e ih =>
    rw [foldl_concat] at found
    -- A page that was in memory before the last event is there since the same script.
    have stays : (events.foldl (step mode) s).physPages k = some r →
        ∃ cs page, k = blockKey cs page ∧ s.Holds mode (events ++ [e]) cs page r := by
      intro earlier
      obtain ⟨cs, page, key, before, numPages, dma, after, rfl, programs, since⟩ := ih earlier
      refine ⟨cs, page, key, before, numPages, dma, after ++ [e], by simp, programs, fun n => ?_⟩
      rcases le_or_gt n after.length with inside | past
      · rw [take_append_of_le_length inside]
        exact since n
      · rw [take_of_length_le (by simpa using past), ← cons_append, ← append_assoc, foldl_concat]
        unfold recallPhysical
        rw [← key]
        exact found
    by_cases written : ∃ numPages dma, e = .write numPages dma
    · obtain ⟨numPages, dma, rfl⟩ := written
      have added := adds_writeNandPages mode _ numPages dma k r found
      rcases added with earlier | ⟨cs, page, key, programs⟩
      · exact stays earlier
      · refine ⟨cs, page, key, events, numPages, dma, [], rfl, programs, fun n => ?_⟩
        rw [take_nil, foldl_concat]
        unfold recallPhysical
        rw [← key]
        exact found
    · exact stays (shrinks_step mode _ (fun numPages dma same => written ⟨_, _, same⟩) k r found)

theorem Holds.bounds (holds : s.Holds mode events cs page r) : cs ≤ 3 ∧ page < 2 ^ 19 := by
  obtain ⟨_, _, _, _, _, programs, _⟩ := holds
  exact programs.bounds

theorem Holds.recalled (holds : s.Holds mode events cs page r) :
    (events.foldl (step mode) s).recallPhysical cs page = some r := by
  obtain ⟨before, numPages, dma, after, rfl, _, since⟩ := holds
  have last := since after.length
  rwa [take_length] at last

/-- Below 2 ^ 24, what a read finds in memory was programmed at its own page. -/
theorem holds_of_recall (new : s.physPages = fun _ => none) (chip : cs < 2 ^ 8)
    (low : page < 2 ^ 24)
    (found : (events.foldl (step mode) s).recallPhysical cs page = some r) :
    s.Holds mode events cs page r := by
  obtain ⟨cs', page', same, holds⟩ := holds_run mode new events found
  have bounds := holds.bounds
  obtain ⟨rfl, rfl⟩ := blockKey_injective chip (by omega) low (by omega) same
  exact holds

/-- After any events, what a read finds in memory was programmed at the same chip select and page
and not erased or replaced since, exactly if the page is below 2 ^ 24, or nothing is so programmed
at the chip select and the page that its bits above the 24th lead to. -/
theorem recall_exact_iff (mode : Mode) {s : Store} (new : s.physPages = fun _ => none)
    (events : List PageEvent) {cs page : Nat} (chip : cs ≤ 3) (word : page < 2 ^ 32) :
    (∀ r, (events.foldl (step mode) s).recallPhysical cs page = some r →
        s.Holds mode events cs page r) ↔
      page < 2 ^ 24 ∨ ∀ r, ¬ s.Holds mode events (cs ||| page / 2 ^ 24) (page % 2 ^ 24) r := by
  have led : (events.foldl (step mode) s).recallPhysical cs page =
      (events.foldl (step mode) s).recallPhysical (cs ||| page / 2 ^ 24) (page % 2 ^ 24) :=
    congrArg (events.foldl (step mode) s).physPages (blockKey_high (by omega) word)
  constructor
  · intro sound
    rcases lt_or_ge page (2 ^ 24) with low | large
    · exact .inl low
    refine .inr fun r holds => ?_
    have bound := (sound r (led.trans holds.recalled)).bounds.2
    omega
  · rintro (low | free) r found
    · exact holds_of_recall new (by omega) low found
    · rw [led] at found
      have high : cs ||| page / 2 ^ 24 < 2 ^ 8 := or_lt_two_pow (by omega) (by omega)
      exact absurd (holds_of_recall new high (mod_lt _ (by decide)) found) (free r)

/-- A physical image with an empty base and an overlay. -/
def blankFlash : Store where
  image := none
  overlay := some ⟨fun _ => .absent, fun _ => false, fun _ => true, 0⟩
  base := .dir fun _ => .absent
  physPages := fun _ => none
  erasedBlocks := fun _ => false
  blocks := 0
  small := Nat.zero_le _
  fromGpt := false
  ioFailed := false

/-- A script that programs page 5 of chip select 1. -/
def programPage5 : WriteDma where
  header := none
  cmd := fun i => if i = 0 then some 0x00801102 else some 0
  page := fun _ => some 5
  src := fun _ => some 0
  half := fun _ => none
  spare := fun _ => some fun _ => 0

theorem recall_exact_iff_page5 :
    let mode : Mode := ⟨true, false, false, false, false⟩
    let s := [PageEvent.write 0 programPage5].foldl (step mode) blankFlash
    (s.recallPhysical 1 5).isSome = true ∧ ∀ r, s.recallPhysical 1 5 = some r →
      blankFlash.Holds mode [.write 0 programPage5] 1 5 r :=
  ⟨by decide +kernel,
    (recall_exact_iff ⟨true, false, false, false, false⟩ (s := blankFlash) rfl
      [.write 0 programPage5] (by decide) (by decide)).mpr (.inl (by decide))⟩

/-- A read of page 2 ^ 24 + 5 of chip select 0 finds the page of chip select 1. -/
theorem high_page_recalls_other_chip :
    let mode : Mode := ⟨true, false, false, false, false⟩
    let s := [PageEvent.write 0 programPage5].foldl (step mode) blankFlash
    (s.recallPhysical 0 (2 ^ 24 + 5)).isSome = true ∧
      ∀ r, ¬ blankFlash.Holds mode [.write 0 programPage5] 0 (2 ^ 24 + 5) r := by
  refine ⟨by decide +kernel, fun r holds => ?_⟩
  have bound := holds.bounds.2
  omega

end Store

end QemuIos.Fmss

import QemuIos.Lib.Flash
import QemuIos.Fmc.Store

/-!
# What the directories hold

Under an overlay the two directories keep to an array of flash pages (`Store.held`): a program is
the array's program, an erase its erase. Then what a process killed between two steps of either one
leaves behind: a program leaves a page file that is too short, an erase shows the base under a page
whose overlay file went before the marker came.
-/

namespace QemuIos.Fmc

open List Function Store Overlay Mem Nat

variable {i : Nat} (nandOverlay : Option Overlay)

/-- The bytes of a whole page file. -/
def recordBytes : Nat := bytesPerPage + bytesPerSpare

/-- The buffers hold the same page. -/
def Record.Same (r r' : Record) : Prop := ∀ i < recordBytes, r.byte i = r'.byte i

/-- The page file is as long as a program leaves it. -/
def HostFile.Whole (f : HostFile) : Prop := f.len = recordBytes

/-- Every file of a directory is a whole page. -/
def WholePages (files : Nat × Nat → Option HostFile) : Prop := ∀ key f, files key = some f → f.Whole

/-! ## Reading -/

theorem byte_of_data (r : Record) (data : i < bytesPerPage) : r.byte i = r.data i :=
  if_pos data

theorem byte_of_spare (r : Record) (spare : bytesPerPage ≤ i) :
    r.byte i = r.spare (i - bytesPerPage) := if_neg (not_lt.mpr spare)

theorem byte_erasedPage (into : Record) (inside : i < recordBytes) :
    into.erasedPage.byte i = 0xff := by
  unfold recordBytes at inside
  rcases lt_or_ge i bytesPerPage with data | spare
  · rw [byte_of_data _ data]
    dsimp only [Record.erasedPage]
    rw [blit_start _ _ _ data]
  · rw [byte_of_spare _ spare]
    dsimp only [Record.erasedPage]
    rw [blit_start _ _ _ (by omega)]

theorem byte_fmcReadFile {f : HostFile} (whole : f.Whole) (into : Record)
    (inside : i < recordBytes) : (fmcReadFile f into).byte i = f.bytes i := by
  unfold HostFile.Whole at whole
  unfold recordBytes at whole inside
  rcases lt_or_ge i bytesPerPage with data | spare
  · rw [byte_of_data _ data]
    dsimp only [fmcReadFile]
    rw [blit_start _ _ _ (by omega)]
  · rw [byte_of_spare _ spare]
    dsimp only [fmcReadFile]
    rw [blit_start _ _ _ (by omega), slice, Nat.add_sub_cancel' spare]

/-! ## The steps of a program and of an erase -/

/-- The overlay with one page file more, or another one. -/
def Overlay.put (o : Overlay) (key : Nat × Nat) (f : HostFile) : Overlay :=
  { o with page := Function.update o.page key (some f) }

/-- The overlay without some page files of a bank. -/
def Overlay.without (o : Overlay) (bank : Nat) (pages : List Nat) : Overlay :=
  { o with page := fun a => if a.1 = bank ∧ a.2 ∈ pages then none else o.page a }

/-- The overlay with the marker of a block. -/
def Overlay.marked (o : Overlay) (bank block : Nat) : Overlay :=
  { o with erased := Function.update o.erased (bank, block) true }

/-- The page file a program leaves. -/
def cellFile (cell : Record) : HostFile where
  len := recordBytes
  bytes := (Mem.blit (fun _ => 0) 0 bytesPerPage cell.data).blit bytesPerPage bytesPerSpare
    cell.spare

theorem cellFile_whole (cell : Record) : (cellFile cell).Whole := rfl

theorem cellFile_bytes (cell : Record) (inside : i < recordBytes) :
    (cellFile cell).bytes i = cell.byte i := by
  unfold recordBytes at inside
  dsimp only [cellFile]
  rcases lt_or_ge i bytesPerPage with data | spare
  · rw [byte_of_data _ data, blit_of_outside _ _ _ _ (.inl data), blit_start _ _ _ data]
  · rw [byte_of_spare _ spare, blit_of_inside _ _ _ _ spare (by omega)]

theorem program_steps (o : Overlay) (bank page : Nat) (cell : Record) :
    (programSteps bank page cell).foldl Overlay.step o = o.put (bank, page) (cellFile cell) := by
  simp only [programSteps, foldl_cons, foldl_nil, step, update_self,
    Option.map_some, update_idem, put, cellFile, recordBytes, zero_add]

theorem remove_steps (o : Overlay) (bank : Nat) (pages : List Nat) :
    (pages.map fun p => HostStep.remove (bank, p)).foldl Overlay.step o = o.without bank pages := by
  induction pages generalizing o with
  | nil => simp [without]
  | cons p rest ih =>
    rw [map_cons, foldl_cons, ih]
    simp only [step, without, mk.injEq, and_true]
    funext a
    by_cases same : a = (bank, p)
    · simp [same]
    · have other : ¬ (a.1 = bank ∧ a.2 = p) := fun h => same (Prod.ext h.1 h.2)
      rw [update_of_ne same]
      by_cases among : a.1 = bank ∧ a.2 ∈ rest
      · rw [if_pos among, if_pos ⟨among.1, mem_cons_of_mem p among.2⟩]
      · rw [if_neg among, if_neg]
        rintro ⟨bank', member⟩
        rcases mem_cons.mp member with first | later
        · exact other ⟨bank', first⟩
        · exact among ⟨bank', later⟩

theorem erase_steps (o : Overlay) (bank block : Nat) :
    (eraseSteps bank block).foldl Overlay.step o =
      (o.without bank (blockPages block)).marked bank block := by
  rw [eraseSteps, cons_append, foldl_cons, foldl_append, step, remove_steps]
  rfl

/-- The pages of a block, as long as their numbers fit in 32 bits. -/
theorem mem_blockPages {block : Nat} (small : (block + 1) * pagesPerBlock < 2 ^ 32) (p : Nat) :
    p ∈ blockPages block ↔ p / pagesPerBlock = block := by
  unfold blockPages
  unfold pagesPerBlock at small ⊢
  simp only [mem_range', mod_eq_of_lt small,
    mod_eq_of_lt (show block * 128 < 2 ^ 32 by omega)]
  constructor
  · rintro ⟨i, inside, rfl⟩
    omega
  · intro block'
    exact ⟨p - block * 128, by omega, by omega⟩

/-! ## An array of pages -/

/-- A call on the store. A program also has what its buffers on the stack held before. -/
inductive Op
  | program (bank page : Nat) (new stack : Record)
  | erase (bank block : Nat)

namespace Op

/-- The call is on a bank and a page of the part. -/
def InRange : Op → Prop
  | program bank page _ _ => bank < numBanks ∧ page < blocksPerBank * pagesPerBlock
  | erase bank block => bank < numBanks ∧ block < blocksPerBank

/-- The call, on an array of pages. -/
def onPages : Op → Flash.Op (Nat × Nat)
  | program bank page new _ => .program (bank, page) new.byte
  | erase bank block => .erase fun a => a.1 == bank && a.2 / pagesPerBlock == block

end Op

def Store.apply (s : Store) : Op → Store
  | .program bank page new stack => s.programPage bank page new stack
  | .erase bank block => s.eraseBlock bank block

/-- The two directories show an array of pages, whatever is in the buffers they are read into. -/
structure Shows (o : Overlay) (base : Nat × Nat → Option HostFile)
    (pages : Flash.Pages (Nat × Nat)) : Prop where
  whole : WholePages o.page
  wholeBase : WholePages base
  loads : ∀ bank page into, ∀ i < recordBytes,
    (Store.loadOver o base bank page into).byte i = pages (bank, page) i

section Directories

variable {o : Overlay} {base : Nat × Nat → Option HostFile} {pages : Flash.Pages (Nat × Nat)}

theorem loadBase_byte (whole : WholePages base) (bank page : Nat) (into into' : Record) {i : Nat}
    (inside : i < recordBytes) :
    (loadBase base bank page into).byte i = (loadBase base bank page into').byte i := by
  unfold loadBase
  cases file : base (bank, page) with
  | none => simp only [byte_erasedPage _ inside]
  | some f => simp only [byte_fmcReadFile (whole _ f file) _ inside]

/-- With whole page files a page reads the same into any buffers. -/
theorem loadOver_byte (whole : WholePages o.page) (wholeBase : WholePages base) (bank page : Nat)
    (into into' : Record) {i : Nat} (inside : i < recordBytes) :
    (loadOver o base bank page into).byte i =
      (loadOver o base bank page into').byte i := by
  unfold loadOver
  cases file : o.page (bank, page) with
  | some f => simp only [byte_fmcReadFile (whole _ f file) _ inside]
  | none =>
    by_cases erased : o.erased (bank, page / pagesPerBlock)
    · simp only [erased, if_true, byte_erasedPage _ inside]
    · simp only [erased, Bool.false_eq_true, if_false]
      exact loadBase_byte wholeBase bank page into into' inside

theorem loadOver_put_self (bank page : Nat) (f : HostFile) (into : Record) :
    loadOver (o.put (bank, page) f) base bank page into = fmcReadFile f into := by
  simp only [loadOver, put, update_self]

theorem loadOver_put_of_ne {bank page : Nat} {key : Nat × Nat} (other : (bank, page) ≠ key)
    (f : HostFile) (into : Record) :
    loadOver (o.put key f) base bank page into = loadOver o base bank page into := by
  simp only [loadOver, put, update_of_ne other]
  rfl

theorem programmed_byte (cell new : Record) :
    (cell.programmed new).byte i = cell.byte i &&& new.byte i := by
  unfold Record.byte Record.programmed
  split
  · rfl
  · rfl

section

variable (shown : Shows o base pages)
include shown

theorem shows_program (bank page : Nat) (new stack : Record) :
    Shows (o.put (bank, page)
        (cellFile ((loadOver o base bank page stack).programmed new))) base
      (pages.apply (.program (bank, page) new.byte)) where
  whole := by
    intro key f file
    by_cases same : key = (bank, page)
    · subst same
      simp only [put, update_self, Option.some.injEq] at file
      exact file ▸ cellFile_whole _
    · simp only [put, update_of_ne same] at file
      exact shown.whole key f file
  wholeBase := shown.wholeBase
  loads := by
    intro bank' page' into i inside
    rw [Flash.Pages.apply]
    by_cases same : (bank', page') = (bank, page)
    · cases same
      rw [loadOver_put_self, byte_fmcReadFile (cellFile_whole _) into inside,
        cellFile_bytes _ inside, programmed_byte, update_self, shown.loads bank page stack i inside]
    · rw [loadOver_put_of_ne same, update_of_ne same]
      exact shown.loads bank' page' into i inside

theorem shows_erase (bank block : Nat) (small : (block + 1) * pagesPerBlock < 2 ^ 32) :
    Shows ((o.without bank (blockPages block)).marked bank block) base
      (pages.apply (.erase fun a => a.1 == bank && a.2 / pagesPerBlock == block)) where
  whole := by
    intro key f file
    simp only [marked, without] at file
    split at file
    · cases file
    · exact shown.whole key f file
  wholeBase := shown.wholeBase
  loads := by
    intro bank' page' into i inside
    have among := mem_blockPages small page'
    simp only [Flash.Pages.apply, loadOver, marked, without, among,
      Bool.and_eq_true, beq_iff_eq]
    by_cases hit : bank' = bank ∧ page' / pagesPerBlock = block
    · obtain ⟨rfl, rfl⟩ := hit
      simp only [and_self, if_true, update_self, byte_erasedPage into inside]
    have marker : (bank', page' / pagesPerBlock) ≠ (bank, block) := fun same =>
      hit (Prod.mk.inj same)
    simp only [hit, if_false, update_of_ne marker]
    exact shown.loads bank' page' into i inside

/-- One call: the directories go on showing the array, and the base stays. -/
theorem shows_apply (op : Op) (fits : op.InRange) :
    ∃ o', (dirs (some o) base).apply op = .dirs (some o') base ∧
      Shows o' base (pages.apply op.onPages) := by
  cases op with
  | program bank page new stack =>
    exact ⟨_, by rw [apply, programPage, program_steps]; rfl,
      shows_program shown bank page new stack⟩
  | erase bank block =>
    have small : (block + 1) * pagesPerBlock < 2 ^ 32 := by
      have below : block < 4096 := fits.2
      unfold pagesPerBlock
      omega
    exact ⟨_, by rw [apply, eraseBlock, erase_steps],
      shows_erase shown bank block small⟩

theorem shows_run (ops : List Op) (fits : ∀ op ∈ ops, op.InRange) :
    ∃ o', ops.foldl apply (.dirs (some o) base) = .dirs (some o') base ∧
      Shows o' base ((ops.map Op.onPages).foldl Flash.Pages.apply pages) := by
  induction ops generalizing o pages with
  | nil => exact ⟨o, rfl, shown⟩
  | cons op rest ih =>
    obtain ⟨o₁, first, shows₁⟩ := shows_apply shown op (fits op mem_cons_self)
    rw [foldl_cons, first]
    exact ih shows₁ fun op' member => fits op' (mem_cons_of_mem op member)
end

end Directories

/-- Under an overlay, after every run of programs and erases on the part, a page reads as the AND of
its programs since its block was last erased, over all ones, or over what it read as at first, which
is the base page where the overlay has neither a page file nor a marker; the base is never written.
Without an overlay every program and erase is dropped. -/
theorem directories_keep_pages (o : Overlay) (base : Nat × Nat → Option HostFile)
    (whole : WholePages o.page) (wholeBase : WholePages base) (ops : List Op)
    (fits : ∀ op ∈ ops, op.InRange) :
    (∃ o', ops.foldl Store.apply (.dirs (some o) base) = .dirs (some o') base ∧
      ∀ bank page into into', ∀ i < recordBytes,
        (Store.loadOver o' base bank page into).byte i =
          (Flash.past (ops.map Op.onPages) (bank, page)).byte
            (Store.loadPage (.dirs (some o) base) bank page into').byte i) ∧
    (∀ bank page into, o.page (bank, page) = none → o.erased (bank, page / pagesPerBlock) = false →
      Store.loadPage (.dirs (some o) base) bank page into = Store.loadBase base bank page into) ∧
    ops.foldl Store.apply (.dirs none base) = .dirs none base := by
  have first : Shows o base fun a => (loadOver o base a.1 a.2 (.filled 0)).byte :=
    ⟨whole, wholeBase, fun bank page into i inside =>
      loadOver_byte whole wholeBase bank page into _ inside⟩
  refine ⟨?_, ?_, ?_⟩
  · obtain ⟨o', run, shown⟩ := shows_run first ops fits
    refine ⟨o', run, fun bank page into into' i inside => ?_⟩
    rw [shown.loads bank page into i inside, Flash.run_byte]
    exact Flash.Past.byte_congr _ (loadOver_byte whole wholeBase bank page _ into' inside)
  · intro bank page into absent unmarked
    simp only [loadPage, loadOver, absent, unmarked, Bool.false_eq_true, if_false]
  · induction ops with
    | nil => rfl
    | cons op rest ih =>
      rw [foldl_cons]
      cases op with
      | program => exact ih fun op member => fits op (mem_cons_of_mem _ member)
      | erase => exact ih fun op member => fits op (mem_cons_of_mem _ member)

/-- A page programmed twice, with an erase of another block between. -/
theorem page_programmed_twice :
    ∃ o', [Op.program 0 5 (.filled 0x0f) (.filled 0), .erase 0 1,
        .program 0 5 (.filled 0x3c) (.filled 0)].foldl Store.apply
        (.dirs (some ⟨fun _ => none, fun _ => false⟩) fun _ => none) =
        .dirs (some o') (fun _ => none) ∧
      (Store.loadOver o' (fun _ => none) 0 5 (.filled 0)).byte 2100 = 0x0c := by
  obtain ⟨o', run, loads⟩ := (directories_keep_pages ⟨fun _ => none, fun _ => false⟩ (fun _ => none)
    nofun nofun [.program 0 5 (.filled 0x0f) (.filled 0), .erase 0 1,
      .program 0 5 (.filled 0x3c) (.filled 0)]
    (by simp [Op.InRange, numBanks, blocksPerBank, pagesPerBlock])).1
  refine ⟨o', run, (loads 0 5 _ (.filled 0) 2100 (by decide)).trans ?_⟩
  decide +kernel

/-- Without an overlay a program of zeros leaves the page erased. -/
theorem program_without_overlay_dropped :
    (((Store.dirs none fun _ => none).apply
        (.program 0 0 (.filled 0) (.filled 0))).loadPage 0 0 (.filled 0)).byte 0 ≠
      (Flash.past [.program (0, 0) fun _ => 0] ((0, 0) : Nat × Nat)).byte
        ((Store.dirs none fun _ => none).loadPage 0 0 (.filled 0)).byte 0 := by
  decide +kernel

/-! ## A process killed between two steps -/

variable (base : Nat × Nat → Option HostFile)

/-- The steps a call takes on the host's files; without an overlay it takes none. -/
def Op.hostSteps (op : Op) :
    List HostStep :=
  match nandOverlay, op with
  | none, _ => []
  | some o, .program bank page new stack =>
    programSteps bank page ((Store.loadOver o base bank page stack).programmed new)
  | some _, .erase bank block => eraseSteps bank block

/-- The store after the first `k` steps of a call. -/
def killed (op : Op) (k : Nat) :
    Store :=
  .dirs (nandOverlay.map (((op.hostSteps nandOverlay base).take k).foldl Overlay.step)) base

/-- Wherever the process is killed, every page reads as before the call, or as it does after it. -/
def CrashConsistent (op : Op) :
    Prop :=
  ∀ k bank page into,
    ((killed nandOverlay base op k).loadPage bank page into).Same
        ((Store.dirs nandOverlay base).loadPage bank page into) ∨
      ((killed nandOverlay base op k).loadPage bank page into).Same
        (((Store.dirs nandOverlay base).apply op).loadPage bank page into)

/-- Where a call bears being killed: there is no overlay; or it is an erase of a block that has its
marker already, or one where under every page file that goes the base has an erased page or the same
page. -/
def Op.Bears (op : Op) : Prop :=
  match nandOverlay, op with
  | none, _ => True
  | some _, .program .. => False
  | some o, .erase bank block =>
    o.erased (bank, block) = true ∨
      ∀ p ∈ blockPages block, p / pagesPerBlock = block → ∀ f, o.page (bank, p) = some f → ∀ into,
        (Store.loadBase base bank p into).Same (fmcReadFile f into) ∨
          (Store.loadBase base bank p into).Same into.erasedPage

section Killed

variable {o : Overlay} {base : Nat × Nat → Option HostFile}

variable {f : HostFile} {bank block page : Nat}

theorem fmcReadFile_short (short : f.len ≤ bytesPerPage) (into : Record) :
    (fmcReadFile f into).spare = into.spare := by
  simp only [fmcReadFile, Nat.sub_eq_zero_of_le short, Nat.zero_min, blit_zero]

theorem fmcReadFile_empty (empty : f.len = 0) (into : Record) : fmcReadFile f into = into := by
  simp only [fmcReadFile, empty, Nat.zero_sub, Nat.zero_min, blit_zero]

theorem fmcReadFile_first (nonempty : 0 < f.len) (into : Record) :
    (fmcReadFile f into).byte 0 = f.bytes 0 := by
  have inside : 0 < min f.len bytesPerPage := lt_min nonempty (by decide)
  rw [byte_of_data _ (by decide)]
  dsimp only [fmcReadFile]
  rw [blit_start _ _ _ inside]

theorem first_inside : 0 < recordBytes := by decide

/-- A page begins with the same byte in any buffers, or is read from an empty file. -/
theorem loadOver_cases :
    (∃ b, ∀ into, (loadOver o base bank page into).byte 0 = b) ∨
      ∀ into, loadOver o base bank page into = into := by
  have file (f : HostFile) : (∃ b, ∀ into, (fmcReadFile f into).byte 0 = b) ∨
      ∀ into, fmcReadFile f into = into := by
    rcases Nat.eq_zero_or_pos f.len with empty | nonempty
    · exact .inr (fmcReadFile_empty empty)
    · exact .inl ⟨_, fmcReadFile_first nonempty⟩
  unfold loadOver loadBase
  cases o.page (bank, page) with
  | some f => exact file f
  | none =>
    by_cases erased : o.erased (bank, page / pagesPerBlock)
    · simp only [erased, if_true]
      exact .inl ⟨_, fun into => byte_erasedPage into first_inside⟩
    simp only [erased, Bool.false_eq_true, if_false]
    cases base (bank, page) with
    | some f => exact file f
    | none => exact .inl ⟨_, fun into => byte_erasedPage into first_inside⟩

theorem exists_other_byte (a b c : UInt8) : ∃ v, v ≠ a ∧ v ≠ b ∧ v ≠ c := by
  have few : ({a, b, c} : Finset UInt8).card < ({0, 1, 2, 3} : Finset UInt8).card :=
    lt_of_le_of_lt Finset.card_le_three (by decide)
  obtain ⟨v, -, fresh⟩ := Finset.exists_mem_notMem_of_card_lt_card few
  simp only [Finset.mem_insert, Finset.mem_singleton, not_or] at fresh
  exact ⟨v, fresh⟩

theorem byte_first_spare (r : Record) : r.byte bytesPerPage = r.spare 0 := by
  rw [byte_of_spare r le_rfl, Nat.sub_self]

/-- The emptied page file, before anything is written to it. -/
theorem killed_truncated (new stack into : Record) :
    (killed (some o) base (.program bank page new stack) 2).loadPage bank page into = into :=
  (loadOver_put_self bank page ⟨0, fun _ => 0⟩ into).trans (fmcReadFile_empty rfl into)

theorem killed_half (new stack into : Record) :
    ∃ f, f.len = bytesPerPage ∧
      (∀ i < bytesPerPage, f.bytes i =
        ((loadOver o base bank page stack).programmed new).data i) ∧
      (killed (some o) base (.program bank page new stack) 3).loadPage bank page into =
        fmcReadFile f into := by
  refine ⟨⟨bytesPerPage, blit (fun _ => 0) 0 bytesPerPage
    ((loadOver o base bank page stack).programmed new).data⟩, rfl, ?_, ?_⟩
  · intro i inside
    dsimp only
    rw [blit_start _ _ _ inside]
  · have steps : [HostStep.mkdir bank, .truncate (bank, page), .append (bank, page) bytesPerPage
        ((loadOver o base bank page stack).programmed new).data].foldl step o =
        o.put (bank, page) ⟨bytesPerPage, blit (fun _ => 0) 0 bytesPerPage
          ((loadOver o base bank page stack).programmed new).data⟩ := by
      simp only [foldl_cons, foldl_nil, step, update_self,
        Option.map_some, update_idem, put, zero_add]
    exact (congrArg (loadOver · base bank page into) steps).trans
      (loadOver_put_self bank page _ into)

theorem apply_program_byte (new stack into : Record) {i : Nat}
    (inside : i < recordBytes) :
    (((dirs (some o) base).apply (.program bank page new stack)).loadPage bank page
      into).byte i = ((loadOver o base bank page stack).programmed new).byte i := by
  rw [apply, programPage, program_steps]
  exact (congrArg (Record.byte · i) (loadOver_put_self bank page _ into)).trans
    ((byte_fmcReadFile (cellFile_whole _) into inside).trans (cellFile_bytes _ inside))

/-- No program bears being killed: the emptied file reads as whatever the buffers held. If the page
file was empty before, so that this is what the page read as then too, it is the half-written one
that gives it away. -/
theorem program_not_consistent (new stack : Record) :
    ¬ CrashConsistent (some o) base (.program bank page new stack) := by
  intro consistent
  set cell := (loadOver o base bank page stack).programmed new
  have after : ∀ into, ∀ i < recordBytes,
      (((dirs (some o) base).apply (.program bank page new stack)).loadPage bank page
        into).byte i = cell.byte i :=
    fun into i inside => apply_program_byte new stack into inside
  rcases loadOver_cases with ⟨b, fixed⟩ | empty
  · obtain ⟨v, notBefore, notCell, -⟩ := exists_other_byte b (cell.byte 0) 0
    rcases consistent 2 bank page ⟨fun _ => v, fun _ => v⟩ with before | done
    · have same := before 0 first_inside
      rw [killed_truncated] at same
      exact notBefore (same.trans (fixed _))
    · have same := done 0 first_inside
      rw [killed_truncated, after _ 0 first_inside] at same
      exact notCell same
  · obtain ⟨v, notCell, notSpare, -⟩ :=
      exists_other_byte (cell.byte 0) (cell.byte bytesPerPage) 0
    obtain ⟨half, len, bytes, read⟩ :=
      killed_half new stack ⟨fun _ => v, fun _ => v⟩
    rcases consistent 3 bank page ⟨fun _ => v, fun _ => v⟩ with before | done
    · have same := before 0 first_inside
      rw [read, fmcReadFile_first (by rw [len]; decide), bytes 0 (by decide)] at same
      exact notCell ((congrArg (Record.byte · 0) (empty _)).symm.trans same.symm)
    · have same := done bytesPerPage (by decide)
      rw [read, after _ _ (by decide), byte_first_spare, fmcReadFile_short (by omega)] at same
      exact notSpare same

/-! An erase that is killed leaves the overlay without the page files it came to, or done. -/

theorem killed_erase_early {k : Nat} (early : k ≤ (blockPages block).length) :
    killed (some o) base (.erase bank block) (k + 1) =
      .dirs (some (o.without bank ((blockPages block).take k))) base := by
  show dirs (some (((eraseSteps bank block).take (k + 1)).foldl step o)) base = _
  rw [eraseSteps, cons_append, take_succ_cons, foldl_cons, step,
    take_append_of_le_length (by rw [length_map]; exact early), ← map_take,
    remove_steps]

theorem killed_erase_late {k : Nat} (late : (blockPages block).length < k) :
    killed (some o) base (.erase bank block) (k + 1) =
      (dirs (some o) base).apply (.erase bank block) := by
  obtain ⟨m, rfl⟩ := Nat.exists_eq_add_of_lt late
  have more : (blockPages block).length + m + 1 - (blockPages block).length = m + 1 := by omega
  show dirs (some (((eraseSteps bank block).take _).foldl step o)) base = _
  rw [apply, eraseBlock, eraseSteps, cons_append, take_succ_cons,
    foldl_cons, foldl_cons, take_append,
    take_of_length_le (by rw [length_map]; omega), length_map, foldl_append,
    foldl_append, more, take_succ_cons, foldl_cons, foldl_cons]
  cases m with
  | zero => rfl
  | succ m => rw [take_succ_cons, take_nil]

theorem killed_erase (bank block k : Nat) :
    (∃ j, killed (some o) base (.erase bank block) k =
        .dirs (some (o.without bank ((blockPages block).take j))) base) ∨
      killed (some o) base (.erase bank block) k =
        (dirs (some o) base).apply (.erase bank block) := by
  cases k with
  | zero => exact .inl ⟨0, by simp [killed, without]⟩
  | succ k =>
    rcases lt_or_ge (blockPages block).length k with late | early
    · exact .inr (killed_erase_late late)
    · exact .inl ⟨k, killed_erase_early early⟩

theorem loadOver_without_of_mem (o : Overlay) (base : Nat × Nat → Option HostFile) (bank : Nat)
    {pages : List Nat} (gone : page ∈ pages) (into : Record) :
    loadOver (o.without bank pages) base bank page into =
      if o.erased (bank, page / pagesPerBlock) then into.erasedPage
      else loadBase base bank page into := by
  simp only [loadOver, without, gone, and_self, if_true]
  rfl

theorem loadOver_without_of_not_mem {bank' : Nat} {pages : List Nat}
    (stays : ¬ (bank' = bank ∧ page ∈ pages)) (into : Record) :
    loadOver (o.without bank pages) base bank' page into =
      loadOver o base bank' page into := by
  simp only [loadOver, without, stays, if_false]
  rfl

theorem apply_erase_loadPage (o : Overlay) (base : Nat × Nat → Option HostFile) (bank : Nat)
    (gone : page ∈ blockPages block) (into : Record) :
    ((dirs (some o) base).apply (.erase bank block)).loadPage bank page into =
      if page / pagesPerBlock = block ∨ o.erased (bank, page / pagesPerBlock) = true
      then into.erasedPage else loadBase base bank page into := by
  rw [apply, eraseBlock, erase_steps]
  show loadOver _ base bank page into = _
  simp only [loadOver, marked, without, gone, and_self, if_true]
  by_cases own : page / pagesPerBlock = block
  · simp only [own, update_self, if_true, true_or]
  · have other : (bank, page / pagesPerBlock) ≠ (bank, block) :=
      fun same => own (Prod.mk.inj same).2
    simp only [update_of_ne other, own, false_or]

theorem bears_of_erase_consistent (consistent : CrashConsistent (some o) base (.erase bank block)) :
    Op.Bears (some o) base (.erase bank block) := by
  by_cases marked : o.erased (bank, block) = true
  · exact .inl marked
  refine .inr fun p gone own f file into => ?_
  -- All the page files are gone and the marker has not come yet.
  have seen : (killed (some o) base (.erase bank block) ((blockPages block).length + 1)).loadPage
      bank p into = loadBase base bank p into := by
    rw [killed_erase_early le_rfl, take_length]
    exact (loadOver_without_of_mem o base bank gone into).trans (if_neg (own ▸ marked))
  have before : (dirs (some o) base).loadPage bank p into = fmcReadFile f into := by
    simp only [loadPage, loadOver, file]
  have after : ((dirs (some o) base).apply (.erase bank block)).loadPage bank p into =
      into.erasedPage := (apply_erase_loadPage o base bank gone into).trans (if_pos (.inl own))
  have either := consistent ((blockPages block).length + 1) bank p into
  rwa [seen, before, after] at either

/-- A page whose file is gone reads as it did, or as an erased one, or it will not be erased. -/
theorem removed_either {into seen after : Record}
    (bears : Op.Bears (some o) base (.erase bank block)) (member : page ∈ blockPages block)
    (seen_eq : seen = if o.erased (bank, page / pagesPerBlock) then into.erasedPage
      else loadBase base bank page into)
    (after_eq : after = if page / pagesPerBlock = block ∨
      o.erased (bank, page / pagesPerBlock) = true
      then into.erasedPage else loadBase base bank page into) :
    seen.Same (loadOver o base bank page into) ∨ seen.Same after := by
  by_cases erased : o.erased (bank, page / pagesPerBlock) = true
  · rw [if_pos erased] at seen_eq
    rw [if_pos (.inr erased)] at after_eq
    exact .inr fun i _ => by rw [seen_eq, after_eq]
  rw [if_neg erased] at seen_eq
  by_cases own : page / pagesPerBlock = block
  · rw [if_pos (.inl own)] at after_eq
    cases file : o.page (bank, page) with
    | some f =>
      have kept := (bears.resolve_left (own ▸ erased)) page member own f file into
      have before : loadOver o base bank page into = fmcReadFile f into := by
        simp only [loadOver, file]
      rwa [seen_eq, after_eq, before]
    | none =>
      refine .inl fun i _ => ?_
      simp only [seen_eq, loadOver, file, erased, Bool.false_eq_true, if_false]
  · rw [if_neg (not_or.mpr ⟨own, erased⟩)] at after_eq
    exact .inr fun i _ => by rw [seen_eq, after_eq]

theorem erase_consistent_of_bears (bears : Op.Bears (some o) base (.erase bank block)) :
    CrashConsistent (some o) base (.erase bank block) := by
  intro k bank' page into
  rcases killed_erase bank block k with ⟨j, killed'⟩ | done
  · rw [killed']
    by_cases gone : bank' = bank ∧ page ∈ (blockPages block).take j
    · obtain ⟨rfl, taken⟩ := gone
      have member : page ∈ blockPages block := mem_of_mem_take taken
      have seen := loadOver_without_of_mem o base bank' taken into
      have after := apply_erase_loadPage o base bank' member into
      exact removed_either bears member seen after
    · exact .inl fun i _ => congrArg (Record.byte · i) (loadOver_without_of_not_mem gone into)
  · exact .inr fun i _ => by rw [done]

end Killed

/-- A call bears being killed between any two of its steps exactly if there is no overlay, or it is
an erase of a block that has its marker, or one that uncovers nothing: under every page file of the
block the base has an erased page or the same page. A program never does. -/
theorem crash_consistent_iff (nandOverlay : Option Overlay) (base : Nat × Nat → Option HostFile)
    (op : Op) : CrashConsistent nandOverlay base op ↔ op.Bears nandOverlay base := by
  cases nandOverlay with
  | none =>
    refine iff_of_true (fun k bank page into => .inl fun i _ => ?_) (by cases op <;> trivial)
    cases op <;> rfl
  | some o =>
    cases op with
    | program bank page new stack =>
      exact iff_of_false (program_not_consistent new stack) not_false
    | erase bank block =>
      exact ⟨bears_of_erase_consistent, erase_consistent_of_bears⟩

/-- An overlay that has replaced page 0 of a base. -/
def replacedPage : Overlay where
  page := fun a => if a = (0, 0) then some ⟨recordBytes, fun _ => 0x11⟩ else none
  erased := fun _ => false

/-- Killed after the first page file went, the erase shows the base's old page. -/
theorem killed_erase_shows_base :
    ¬ CrashConsistent (some replacedPage) (fun _ => some ⟨recordBytes, fun _ => 0x22⟩)
      (.erase 0 0) := by
  intro consistent
  rcases consistent 2 0 0 (.filled 0) with before | after
  · exact absurd (before 0 first_inside) (by decide +kernel)
  · exact absurd (after 0 first_inside) (by decide +kernel)

end QemuIos.Fmc

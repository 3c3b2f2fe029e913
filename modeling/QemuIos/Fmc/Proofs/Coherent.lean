import QemuIos.Fmc.Adm

/-!
# The page buffer and the store

While the tag names a page and no program word went into the page buffer since that page was loaded,
the buffer holds what a load of the page would put there (`Fresh`); every step of the FMC and the
ADM keeps it. A word read through the FIFO is then the word of the page addressed, except where the
tag answers for a buffer that is not fresh.
-/

namespace QemuIos.Fmc
open FmcState Store

/-- A load into buffers that hold the page already changes nothing. -/
theorem loadPage_idem (store : Store) (bank page : Nat) (into : Record) :
    store.loadPage bank page (store.loadPage bank page into) = store.loadPage bank page into := by
  have file (f : HostFile) : fmcReadFile f (fmcReadFile f into) = fmcReadFile f into := by
    simp only [fmcReadFile, Mem.blit_idem]
  have erased : into.erasedPage.erasedPage = into.erasedPage := by
    simp only [Record.erasedPage, Mem.blit_idem]
  have base' (base : Nat × Nat → Option HostFile) : loadBase base bank page
      (loadBase base bank page into) = loadBase base bank page into := by
    unfold loadBase
    cases base (bank, page) with
    | some f => exact file f
    | none => exact erased
  match store with
  | .image n =>
    simp only [loadPage]
    cases n.read bank page with
    | some record => simp only [Mem.blit_idem]
    | none => exact erased
  | .dirs none base => exact base' base
  | .dirs (some o) base =>
    simp only [loadPage, loadOver]
    cases o.page (bank, page) with
    | some f => exact file f
    | none =>
      by_cases marked : o.erased (bank, page / pagesPerBlock)
      · simp only [marked, if_true, erased]
      · simp only [marked, Bool.false_eq_true, if_false, base']

namespace FmcState

variable {s : FmcState}

/-- A buffer whose tag names a page, and that no program word went into, holds that page. -/
def Fresh (s : FmcState) : Prop :=
  s.bufferedPage ≠ -1 → s.staged = false → ∀ (bank : Nat) (page : UInt32),
    (bank : Int) = s.bufferedBank → page.toInt32 = s.bufferedPage →
      s.store.loadPage bank page.toNat s.buffer = s.buffer

/-- The tag answers a request for a page of the active bank. -/
def Hits (s : FmcState) (page : UInt32) : Prop :=
  ∃ bank, s.activeBank = some bank ∧ (bank : Int) = s.bufferedBank ∧ page.toInt32 = s.bufferedPage

/-- Where a read through the FIFO stands when it asks for its page. -/
def asking (s : FmcState) : FmcState := if s.readingMultiplePages then s.nextOfList else s

/-- The page a read through the FIFO is about. -/
def asked (s : FmcState) : UInt32 :=
  if s.readingMultiplePages then s.asking.pagesToRead s.asking.curBankReading.toInt.toNat
  else s.addressedPage

/-- If the tag answers the next read through the FIFO, it names a page, and no program word went
into the buffer since that page was loaded. -/
def Fine (s : FmcState) : Prop :=
  s.asking.Hits s.asked → s.bufferedPage ≠ -1 ∧ s.staged = false

/-- The next read through the FIFO is a read of data: of the page the registers address, or of a
page of the list. -/
def ReadsData (s : FmcState) : Prop :=
  s.cmd ≠ cmdId ∧ s.cmd ≠ cmdReadStatus ∧
    (s.readingMultiplePages = true →
      0 ≤ s.asking.curBankReading.toInt ∧ s.asking.curBankReading.toInt < maxList)

/-- The next read through the FIFO, if it is one of data and a bank is selected, returns the word of
the page addressed as a load of it into the page buffer would leave it there. -/
def Answers (s : FmcState) : Prop :=
  s.ReadsData → ∀ bank, s.asking.activeBank = some bank →
    s.fifoPop.2 = pick s.readingMultiplePages s.readingSpare s.fmdnum
      (s.fifoPop.1.store.loadPage bank s.asked.toNat s.fifoPop.1.buffer)

/-! ## The steps of the FMC -/

theorem Fresh.of_same {s' : FmcState} (fresh : s.Fresh) (store : s'.store = s.store)
    (buffer : s'.buffer = s.buffer) (page : s'.bufferedPage = s.bufferedPage)
    (bank : s'.bufferedBank = s.bufferedBank) (staged : s'.staged = s.staged) : s'.Fresh := by
  unfold Fresh
  rw [store, buffer, page, bank, staged]
  exact fresh

theorem fresh_untagged (untagged : s.bufferedPage = -1) : s.Fresh :=
  fun tagged => absurd untagged tagged

theorem fresh_staged (staged : s.staged = true) : s.Fresh := fun _ not => by
  rw [staged] at not
  cases not

theorem fresh_bufferPage (fresh : s.Fresh) (page : UInt32) : (s.bufferPage page).Fresh := by
  unfold bufferPage
  cases s.activeBank with
  | none => exact fresh
  | some bank =>
    by_cases miss : (bank : Int) ≠ s.bufferedBank ∨ page.toInt32 ≠ s.bufferedPage
    · simp only [miss, if_true]
      intro _ _ bank' page' sameBank samePage
      have bank_eq : bank' = bank := Int.ofNat_inj.mp sameBank
      have page_eq : page' = page := congrArg Int32.toUInt32 samePage
      rw [bank_eq, page_eq]
      exact loadPage_idem s.store bank page.toNat s.buffer
    · simp only [miss, if_false]
      exact fresh

/-- After a request the buffer holds the page asked for, unless the tag answered for a buffer that
is not fresh. -/
theorem bufferPage_loaded (fresh : s.Fresh) {page : UInt32} {bank : Nat}
    (active : s.activeBank = some bank)
    (fine : s.Hits page → s.bufferedPage ≠ -1 ∧ s.staged = false) :
    (s.bufferPage page).store.loadPage bank page.toNat (s.bufferPage page).buffer =
      (s.bufferPage page).buffer := by
  unfold bufferPage
  rw [active]
  by_cases miss : (bank : Int) ≠ s.bufferedBank ∨ page.toInt32 ≠ s.bufferedPage
  · simp only [miss, if_true]
    exact loadPage_idem s.store bank page.toNat s.buffer
  simp only [miss, if_false]
  simp only [not_or, not_not] at miss
  obtain ⟨tagged, unstaged⟩ := fine ⟨bank, active, miss⟩
  exact fresh tagged unstaged bank page miss.1 miss.2

theorem fresh_nextOfList (fresh : s.Fresh) : s.nextOfList.Fresh := by
  unfold nextOfList
  split
  · dsimp only
    split
    · exact fresh.of_same rfl rfl rfl rfl rfl
    · exact fresh.of_same rfl rfl rfl rfl rfl
  · exact fresh

theorem asking_tag : s.asking.bufferedPage = s.bufferedPage ∧ s.asking.staged = s.staged := by
  unfold asking nextOfList
  split
  · split
    · dsimp only
      split
      · exact ⟨rfl, rfl⟩
      · exact ⟨rfl, rfl⟩
    · exact ⟨rfl, rfl⟩
  · exact ⟨rfl, rfl⟩

theorem fresh_request (fresh : s.Fresh) : s.request.Fresh := by
  unfold request
  split
  · dsimp only
    split
    · exact fresh_bufferPage (fresh_nextOfList fresh) _
    · exact fresh_nextOfList fresh
  · exact fresh_bufferPage fresh _

theorem fresh_fifoPop (fresh : s.Fresh) : s.fifoPop.1.Fresh := by
  unfold fifoPop
  split
  · exact fresh
  split
  · exact fresh
  · split
    · exact fresh_nextOfList fresh
    · exact (fresh_request fresh).of_same rfl rfl rfl rfl rfl

theorem fresh_read (fresh : s.Fresh) (reg : Reg) : (s.read reg).1.Fresh := by
  cases reg
  case fmfifo => exact fresh_fifoPop fresh
  all_goals exact fresh

theorem programPage_tag (bank page : Nat) (new : Record) (host : Host) :
    (s.programPage bank page new host).bufferedPage = -1 := by
  cases host <;> rfl

theorem fresh_eraseBlock (bank block : Nat) (host : Host) :
    (s.eraseBlock bank block host).Fresh := by
  cases host <;> exact fresh_untagged rfl

/-- A program word makes the buffer stale until the page is complete, and then there is no tag. -/
theorem fresh_stage (val : UInt32) (host : Host) : (s.stage val host).Fresh := by
  unfold stage
  dsimp only
  split
  · exact fresh_untagged (programPage_tag _ _ _ host)
  · exact fresh_staged rfl

theorem fresh_fifoPush (fresh : s.Fresh) (val : UInt32) (host : Host) :
    (s.fifoPush val host).Fresh := by
  unfold fifoPush
  split
  · exact fresh
  split
  · exact fresh.of_same rfl rfl rfl rfl rfl
  · split
    · exact fresh_stage val host
    · exact fresh.of_same rfl rfl rfl rfl rfl

theorem fresh_write (fresh : s.Fresh) (reg : Reg) (val : UInt32) (host : Host) :
    (s.write reg val host).Fresh := by
  cases reg
  case fmfifo => exact fresh_fifoPush fresh val host
  all_goals exact fresh.of_same rfl rfl rfl rfl rfl

theorem ReadsData.request_eq (reads : s.ReadsData) : s.request = s.asking.bufferPage s.asked := by
  obtain ⟨-, -, listed⟩ := reads
  unfold request asked
  cases list : s.readingMultiplePages with
  | false => simp only [asking, list, Bool.false_eq_true, if_false]
  | true =>
    have listed : 0 ≤ s.nextOfList.curBankReading.toInt := by
      have := (listed list).1
      rwa [asking, if_pos list] at this
    simp only [asking, list, if_true, listed]

theorem ReadsData.fifoPop_eq (reads : s.ReadsData) :
    s.fifoPop = ({ s.request with fmdnum := s.fmdnum - 4 },
      pick s.readingMultiplePages s.readingSpare s.fmdnum s.request.buffer) := by
  obtain ⟨notId, notStatus, listed⟩ := reads
  have inside : ¬ ((s.readingMultiplePages && s.overrun) = true) := by
    rw [Bool.and_eq_true, overrun, decide_eq_true_eq]
    rintro ⟨list, -, past⟩
    have := (listed list).2
    rw [asking, if_pos list] at this
    omega
  rw [fifoPop, if_neg notId, if_neg notStatus, if_neg inside]

/-- A read that meets the condition answers from the page addressed. -/
theorem Fresh.answers (fresh : s.Fresh) (fine : s.Fine) : s.Answers := by
  intro reads bank active
  have freshAsking : s.asking.Fresh := by
    unfold asking
    split
    · exact fresh_nextOfList fresh
    · exact fresh
  have fineAsking : s.asking.Hits s.asked →
      s.asking.bufferedPage ≠ -1 ∧ s.asking.staged = false := by
    rw [asking_tag.1, asking_tag.2]
    exact fine
  have loaded := bufferPage_loaded freshAsking active fineAsking
  rw [reads.fifoPop_eq, reads.request_eq]
  dsimp only
  rw [loaded]

end FmcState

/-! ## The commands of the ADM -/

namespace System

variable {s : System}

section

variable (fresh : s.fmc.Fresh)
include fresh

theorem fresh_admReadOne (cmdblk pages : Nat) :
    (s.admReadOne cmdblk pages).fmc.Fresh := by
  unfold admReadOne
  apply fresh_bufferPage
  exact fresh.of_same rfl rfl rfl rfl rfl

theorem fresh_admRead (cmdblk pages numPages : Nat) (stack : Record) :
    (s.admRead cmdblk pages numPages stack).fmc.Fresh := by
  unfold admRead
  split
  · exact fresh_admReadOne fresh cmdblk pages
  · split
    · exact fresh.of_same rfl rfl rfl rfl rfl
    · exact fresh

theorem fresh_admErase (cmdblk pages : Nat) (host : Host) :
    (s.admErase cmdblk pages host).fmc.Fresh := by
  unfold admErase
  dsimp only
  split
  · exact fresh_eraseBlock _ _ host
  · exact fresh

theorem fresh_admRunCommand (host : Host) (stack : Record) :
    (s.admRunCommand host stack).fmc.Fresh := by
  unfold admRunCommand
  dsimp only
  split
  case h_1 => exact fresh.of_same rfl rfl rfl rfl rfl
  case h_2 =>
    apply fresh_admRead
    exact fresh
  case h_3 => exact fresh.of_same rfl rfl rfl rfl rfl
  case h_4 => exact fresh.of_same rfl rfl rfl rfl rfl
  case h_5 =>
    apply fresh_admErase
    exact fresh
  case h_6 => exact fresh

theorem fresh_admWriteReg (host : Host) (stack : Record) (reg : AdmReg) (value : UInt32) :
    (s.admWriteReg host stack reg value).fmc.Fresh := by
  cases reg with
  | ctrl =>
    unfold admWriteReg
    dsimp only
    split
    · exact fresh
    · exact fresh
  | ctrl2 =>
    have ran : (if value = 2 then
        { s.admRunCommand host stack with
          adm := { (s.admRunCommand host stack).adm with irq := true } }
        else s).fmc.Fresh := by
      split
      · exact fresh_admRunCommand fresh host stack
      · exact fresh
    unfold admWriteReg
    dsimp only
    split
    · exact ran
    · exact ran
  | codeSecAddr => exact fresh
  | data1SecAddr => exact fresh
  | data2SecAddr => exact fresh
  | data3SecAddr => exact fresh
  | other => exact fresh

theorem fresh_step (e : Event) : (s.step e).fmc.Fresh := by
  cases e with
  | read reg => exact fresh_read fresh reg
  | write reg val host => exact fresh_write fresh reg val host
  | adm reg value host stack => exact fresh_admWriteReg fresh host stack reg value
  | memory mem => exact fresh
  | resetFmc => exact fresh_untagged rfl
  | resetAdm => exact fresh

theorem fresh_run (events : List Event) :
    (events.foldl step s).fmc.Fresh := by
  induction events generalizing s with
  | nil => exact fresh
  | cons e rest ih => exact ih (fresh_step fresh e)
end

/-- Wherever a run from a reset leads: if the tag does not answer the next read through the FIFO, or
it names a page and no program word went into the page buffer since that page was loaded, the read
returns the word of the page addressed, as a load of it at that moment would return it. -/
theorem fifo_answers_from_store (s : System) (untagged : s.fmc.bufferedPage = -1)
    (events : List Event) (fine : (events.foldl step s).fmc.Fine) :
    (events.foldl step s).fmc.Answers :=
  (fresh_run (fresh_untagged untagged) events).answers fine

/-- Out of reset, over a store with no page file. -/
def powerOn : System where
  fmc :=
    { store := .dirs none fun _ => none
      banks := numBanks
      fmctrl0 := 0, fmctrl1 := 0, fmaddr0 := 0, fmaddr1 := 0, fmanum := 0, fmdnum := 0, rsctrl := 0
      cmd := 0
      readingSpare := false
      buffer := .filled 0
      bufferedBank := -1
      bufferedPage := -1
      readingMultiplePages := false
      curBankReading := -1
      banksToRead := fun _ => 0
      outside := fun _ => 0
      pagesToRead := fun _ => 0
      isWriting := false
      progCount := 0, progIndex := 0, progPad := 0
      progSpares := fun _ _ => 0
      staged := false }
  adm := ⟨0, 0, 0, 0, fun _ => 0, 0, false⟩
  mem := fun _ => 0

/-- The registers set up for a read of page 0 of bank 0. -/
def startRead (host : Host) : List Event :=
  [.write .fmctrl0 2 host, .write .cmd cmdRead host, .write .fmdnum 2047 host]

/-- The first word of the page is a miss, the second one a hit. -/
theorem erased_page_read :
    let first := (startRead (.ok (.filled 0))).foldl step powerOn
    let second := first.step (.read .fmfifo)
    first.fmc.fifoPop.2 = 0xFFFFFFFF ∧ second.fmc.asking.Hits second.fmc.asked ∧
      second.fmc.fifoPop.2 = 0xFFFFFFFF := by
  intro first second
  have miss : first.fmc.Answers := fifo_answers_from_store powerOn rfl _ (by
    rintro ⟨bank, -, same, -⟩
    have negative : (bank : Int) = -1 := same
    omega)
  have hit : second.fmc.Answers := fifo_answers_from_store powerOn rfl
    (startRead (.ok (.filled 0)) ++ [Event.read .fmfifo]) fun _ =>
      ⟨by decide +kernel, by decide +kernel⟩
  refine ⟨?_, ⟨0, by decide +kernel, by decide +kernel, by decide +kernel⟩, ?_⟩
  · exact (miss ⟨by decide, by decide, nofun⟩ 0 (by decide)).trans (by decide +kernel)
  · exact (hit ⟨by decide +kernel, by decide +kernel, by decide +kernel⟩ 0
      (by decide +kernel)).trans (by decide +kernel)

/-- A read of the page loads it; then the first word of a program of it, and another read: it gets
the word of the program. -/
def readBehindProgram (host : Host) : List Event :=
  startRead host ++ [.read .fmfifo,
    -- ADM command 0x500 for bank 0, page 0, in a transfer block at the start of data2.
    .memory (fun a => if a = 0x25 then 5 else 0), .adm .ctrl2 2 host (.filled 0),
    .write .fmfifo 0x12345678 host, .write .fmdnum 2047 host]

theorem unfinished_program_read :
    ¬ ((readBehindProgram (.ok (.filled 0))).foldl step powerOn).fmc.Answers := by
  intro answers
  exact absurd (answers ⟨by decide +kernel, by decide +kernel, by decide +kernel⟩ 0
    (by decide +kernel)) (by decide +kernel)

end System

end QemuIos.Fmc

import QemuIos.Fmc.Proofs.Coherent

/-!
# What earlier commands left in the lists

`banks_to_read`, `pages_to_read` and `prog_spares` stay from one command to the next. A command and
the FIFO accesses behind it do not depend on what was there as long as they stay within the entries
the command itself filled.
-/

namespace QemuIos.Fmc
open FmcState

structure Lists where
  banks : Nat → Nat
  pages : Nat → UInt32
  spares : Nat → Mem

/-- The entries filled by a command: of the page list, and of the metadata behind it. -/
structure Filled where
  pages : Nat
  spares : Nat

structure Lists.Agree (n : Filled) (l l' : Lists) : Prop where
  banks : ∀ i < n.pages, l'.banks i = l.banks i
  pages : ∀ i < n.pages, l'.pages i = l.pages i
  spares : ∀ i < n.spares, l'.spares i = l.spares i

theorem Lists.agree_none (l l' : Lists) : l.Agree ⟨0, 0⟩ l' :=
  ⟨fun _ h => absurd h (Nat.not_lt_zero _), fun _ h => absurd h (Nat.not_lt_zero _),
    fun _ h => absurd h (Nat.not_lt_zero _)⟩

theorem ite_alike {α : Type} {R : α → α → Prop} {c : Prop} [Decidable c] {a a' b b' : α}
    (yes : c → R a a') (no : ¬ c → R b b') : R (if c then a else b) (if c then a' else b') := by
  by_cases h : c
  · rw [if_pos h, if_pos h]
    exact yes h
  · rw [if_neg h, if_neg h]
    exact no h

namespace FmcState

variable {s s' : FmcState} {n : Filled}

def lists (s : FmcState) : Lists := ⟨s.banksToRead, s.pagesToRead, s.progSpares⟩

def withLists (s : FmcState) (l : Lists) : FmcState :=
  { s with banksToRead := l.banks, pagesToRead := l.pages, progSpares := l.spares }

/-- Two states that differ only in entries of the lists that were not filled. -/
def Alike (n : Filled) (s s' : FmcState) : Prop := ∃ l, s' = s.withLists l ∧ s.lists.Agree n l

theorem alike_of (same : s' = s.withLists s'.lists) (agree : s.lists.Agree n s'.lists) :
    Alike n s s' := ⟨_, same, agree⟩

/-- Alike states with the same answer. -/
def Same {α : Type} (n : Filled) (o o' : FmcState × α) : Prop := Alike n o.1 o'.1 ∧ o'.2 = o.2

/-! ## The FIFO -/

inductive Access
  | pop
  | push (val : UInt32) (host : Host)

/-- An access, and the word it delivers. -/
def access (s : FmcState) : Access → FmcState × List UInt32
  | .pop => (s.fifoPop.1, [s.fifoPop.2])
  | .push val host => (s.fifoPush val host, [])

def accesses : List Access → FmcState → FmcState × List UInt32
  | [], s => (s, [])
  | a :: rest, s =>
    let after := accesses rest (s.access a).1
    (after.1, (s.access a).2 ++ after.2)

/-- A pop takes an entry of the page list: it is one for data in list mode, and the list is neither
at its end nor before its start. -/
def TakesEntry (s : FmcState) : Prop :=
  s.cmd ≠ cmdId ∧ s.cmd ≠ cmdReadStatus ∧ s.readingMultiplePages = true ∧ s.overrun = false ∧
    0 ≤ s.nextOfList.curBankReading.toInt

/-- The list entry an access takes, if any, is one of those filled. -/
def Within (n : Filled) (s : FmcState) : Access → Prop
  | .pop => s.TakesEntry → s.nextOfList.curBankReading.toInt.toNat < n.pages
  | .push _ _ => s.isWriting = true → s.progPad = 0 → s.takesWord = true →
      s.progIndex < n.pages ∧ s.progIndex < n.spares

def AllWithin (n : Filled) : List Access → FmcState → Prop
  | [], _ => True
  | a :: rest, s => s.Within n a ∧ AllWithin n rest (s.access a).1

section

variable (alike : Alike n s s')
include alike

theorem Alike.bufferPage (page : UInt32) :
    Alike n (s.bufferPage page) (s'.bufferPage page) := by
  obtain ⟨l, rfl, agree⟩ := alike
  rw [bufferPage, bufferPage, show (s.withLists l).activeBank = s.activeBank from rfl]
  cases s.activeBank with
  | none => exact ⟨l, rfl, agree⟩
  | some bank => exact ite_alike (fun _ => ⟨l, rfl, agree⟩) fun _ => ⟨l, rfl, agree⟩

omit alike in
theorem nextOfList_curBankReading (s : FmcState) : s.nextOfList.curBankReading =
    if s.fmdnum.toNat % bytesPerPage = 0 then s.curBankReading + 1 else s.curBankReading := by
  unfold nextOfList
  split
  · dsimp only
    split
    · rfl
    · rfl
  · rfl

/-- The walk over the page list, whose entry is a filled one if it takes one. -/
theorem Alike.nextOfList (inside : s.overrun = false → 0 ≤ s.nextOfList.curBankReading.toInt →
      s.nextOfList.curBankReading.toInt.toNat < n.pages) :
    Alike n s.nextOfList s'.nextOfList := by
  obtain ⟨l, rfl, agree⟩ := alike
  have next := s.nextOfList_curBankReading
  by_cases start : s.fmdnum.toNat % bytesPerPage = 0
  · rw [if_pos start] at next
    rw [FmcState.nextOfList, FmcState.nextOfList, if_pos start]
    rw [if_pos (show (s.withLists l).fmdnum.toNat % bytesPerPage = 0 from start)]
    refine ite_alike (fun _ => ⟨l, rfl, agree⟩) fun low => ⟨l, ?_, agree⟩
    have bank : (s.withLists l).bankAt (s.curBankReading + 1) =
        s.bankAt (s.curBankReading + 1) := by
      rw [overrun, next] at inside
      exact ite_alike (R := Eq) (fun pos => agree.banks _ (inside
        (decide_eq_false fun past => low past.2) pos)) fun _ => rfl
    exact congrArg _ bank
  · rw [show s.nextOfList = s from if_neg start]
    exact ⟨l, if_neg start, agree⟩

theorem Alike.overrun : s'.overrun = s.overrun := by
  obtain ⟨l, rfl, -⟩ := alike
  rw [FmcState.overrun, FmcState.overrun, nextOfList_curBankReading, nextOfList_curBankReading]
  rfl

theorem Alike.request (inside : s.readingMultiplePages = true →
      0 ≤ s.nextOfList.curBankReading.toInt → s.nextOfList.curBankReading.toInt.toNat < n.pages) :
    Alike n s.request s'.request := by
  have mode : s'.readingMultiplePages = s.readingMultiplePages := by
    obtain ⟨l, rfl, -⟩ := alike
    rfl
  rw [FmcState.request, FmcState.request, mode]
  by_cases list : s.readingMultiplePages = true
  · have next := alike.nextOfList fun _ => inside list
    have inside := inside list
    rw [if_pos list, if_pos list]
    generalize s.nextOfList = t at next inside ⊢
    generalize s'.nextOfList = t' at next ⊢
    have entry : t'.curBankReading = t.curBankReading := by
      obtain ⟨l, rfl, -⟩ := next
      rfl
    dsimp only
    rw [entry]
    refine ite_alike (fun pos => ?_) fun _ => next
    have page : t'.pagesToRead t.curBankReading.toInt.toNat =
        t.pagesToRead t.curBankReading.toInt.toNat := by
      obtain ⟨l, rfl, agree⟩ := next
      exact agree.pages _ (inside pos)
    rw [page]
    exact next.bufferPage _
  · rw [if_neg list, if_neg list]
    have page : s'.addressedPage = s.addressedPage := by
      obtain ⟨l, rfl, -⟩ := alike
      rfl
    rw [page]
    exact alike.bufferPage _

theorem Alike.fifoPop (inside : s.Within n .pop) :
    Same n s.fifoPop s'.fifoPop := by
  have past := alike.overrun
  have asked := alike.request
  have next := alike.nextOfList
  obtain ⟨l, rfl, agree⟩ := alike
  rw [FmcState.fifoPop, FmcState.fifoPop, past]
  refine ite_alike (fun _ => ⟨⟨l, rfl, agree⟩, rfl⟩) fun notId => ?_
  refine ite_alike (fun _ => ⟨⟨l, rfl, agree⟩, rfl⟩) fun notStatus => ?_
  refine ite_alike (fun gone => ⟨next fun low => ?_, rfl⟩) fun listed => ?_
  · cases (Bool.and_eq_true_iff.mp gone).2.symm.trans low
  · have low (list : s.readingMultiplePages = true) : s.overrun = false :=
      Bool.eq_false_iff.mpr fun past => listed (Bool.and_eq_true_iff.mpr ⟨list, past⟩)
    obtain ⟨l', same, agree'⟩ := asked fun list pos =>
      inside ⟨notId, notStatus, list, low list, pos⟩
    rw [same]
    exact ⟨⟨l', rfl, agree'⟩, rfl⟩

theorem Alike.stage (val : UInt32) (host : Host)
    (inside : s.progIndex < n.pages ∧ s.progIndex < n.spares) :
    Alike n (s.stage val host) (s'.stage val host) := by
  obtain ⟨l, rfl, agree⟩ := alike
  have bank : (s.withLists l).banksToRead (s.withLists l).progIndex = _ := agree.banks _ inside.1
  have page : (s.withLists l).pagesToRead (s.withLists l).progIndex = _ := agree.pages _ inside.1
  have spare : (s.withLists l).progSpares (s.withLists l).progIndex = _ := agree.spares _ inside.2
  rw [stage, stage]
  dsimp only
  rw [bank, page, spare]
  refine ite_alike (fun _ => ?_) fun _ => ⟨l, rfl, agree⟩
  cases host with
  | ok stack => exact ⟨l, rfl, agree⟩
  | failed left => exact ⟨l, rfl, agree⟩

theorem Alike.fifoPush (val : UInt32) (host : Host) (inside : s.Within n (.push val host)) :
    Alike n (s.fifoPush val host) (s'.fifoPush val host) := by
  have staged := alike.stage val host
  obtain ⟨l, rfl, agree⟩ := alike
  refine ite_alike (fun _ => ⟨l, rfl, agree⟩) fun writing => ?_
  refine ite_alike (fun _ => ⟨l, rfl, agree⟩) fun pad => ?_
  exact ite_alike (fun takes => staged (inside (not_not.mp writing) (not_not.mp pad) takes))
    fun _ => ⟨l, rfl, agree⟩

theorem Alike.accesses (as : List Access) (inside : AllWithin n as s) :
    Same n (FmcState.accesses as s) (FmcState.accesses as s') := by
  induction as generalizing s s' with
  | nil => exact ⟨alike, rfl⟩
  | cons a rest ih =>
    obtain ⟨first, inside⟩ := inside
    have one : Same n (s.access a) (s'.access a) := by
      cases a with
      | pop =>
        obtain ⟨popped, word⟩ := alike.fifoPop first
        exact ⟨popped, congrArg ([·]) word⟩
      | push val host => exact ⟨alike.fifoPush val host first, rfl⟩
    obtain ⟨all, words⟩ := ih one.1 inside
    exact ⟨all, congrArg₂ (· ++ ·) one.2 words⟩
end

end FmcState

/-! ## The commands -/

namespace System

open FmcState (Access AllWithin)

variable {s : System} {n : Filled}

def withLists (s : System) (l : Lists) : System := { s with fmc := s.fmc.withLists l }

/-- The command in the transfer block, and the number of pages it is for. -/
def admCommand (s : System) : AdmCmd × Nat :=
  let found := admFindTf s.adm s.mem
  let cmdblk := (found.1.data2SecAddr + found.2).toNat
  (AdmCmd.ofWord (s.mem.word (cmdblk + admCmdOffset)),
    min (be16 s.mem (cmdblk + admCmdNpages)) maxList)

/-- The entries a command fills: the sequential ones only whole rows. -/
def filled (banks : Nat) : AdmCmd × Nat → Filled
  | (.readSeq, numPages) => ⟨numPages / banks * banks, 0⟩
  | (.read, numPages) => ⟨if numPages = 1 then 0 else numPages, 0⟩
  | (.writeSeq, numPages) => ⟨numPages - numPages % banks, numPages - numPages % banks⟩
  | (.write, _) => ⟨1, 1⟩
  | (.erase, _) => ⟨0, 0⟩
  | (.unknown, _) => ⟨0, 0⟩

/-- A sequential read reports as many pages as it fills. -/
def WholeRows (banks : Nat) (command : AdmCmd × Nat) : Prop :=
  command.1 = .readSeq → banks ∣ command.2

structure Alike (n : Filled) (t t' : System) : Prop where
  fmc : t.fmc.Alike n t'.fmc
  adm : t'.adm = t.adm
  mem : t'.mem = t.mem

theorem admReportSpares_alike {fmc fmc' : FmcState} (alike : fmc.Alike n fmc') (a : AdmState)
    {count : Nat} (inside : count ≤ n.pages) (stack : Record) (mem : Mem) :
    admReportSpares fmc' a count stack mem = admReportSpares fmc a count stack mem := by
  obtain ⟨l, rfl, agree⟩ := alike
  refine congrArg Prod.snd (List.foldl_ext _ _ _ fun acc i listed => ?_)
  have below := (List.mem_range.mp listed).trans_le inside
  have bank : (fmc.withLists l).banksToRead i = _ := agree.banks i below
  have page : (fmc.withLists l).pagesToRead i = _ := agree.pages i below
  rw [bank, page]
  rfl

variable (s) (l : Lists) (cmdblk pages : Nat) (host : Host) (stack : Record)

/-- The lists of a command that fills the first entries. -/
theorem agree_fill {count : Nat} (banks : Nat → Nat) (pages : Nat → UInt32) (l l' : Lists) :
    Lists.Agree ⟨count, 0⟩
      ⟨fun k => if k < count then banks k else l.banks k,
        fun k => if k < count then pages k else l.pages k, l.spares⟩
      ⟨fun k => if k < count then banks k else l'.banks k,
        fun k => if k < count then pages k else l'.pages k, l'.spares⟩ :=
  ⟨fun _ h => (if_pos h).trans (if_pos h).symm, fun _ h => (if_pos h).trans (if_pos h).symm, nofun⟩

theorem alike_admReadSeq {numPages : Nat} (rows : s.fmc.banks ∣ numPages) :
    Alike ⟨numPages / s.fmc.banks * s.fmc.banks, 0⟩ (s.admReadSeq cmdblk pages numPages stack)
      ((s.withLists l).admReadSeq cmdblk pages numPages stack) := by
  have fmc : (s.admReadSeq cmdblk pages numPages stack).fmc.Alike
      ⟨numPages / s.fmc.banks * s.fmc.banks, 0⟩
      ((s.withLists l).admReadSeq cmdblk pages numPages stack).fmc :=
    alike_of rfl (agree_fill _ _ s.fmc.lists l)
  exact ⟨fmc, rfl, admReportSpares_alike fmc s.adm (Nat.div_mul_cancel rows).ge stack s.mem⟩

theorem alike_admRead (numPages : Nat) :
    Alike ⟨if numPages = 1 then 0 else numPages, 0⟩ (s.admRead cmdblk pages numPages stack)
      ((s.withLists l).admRead cmdblk pages numPages stack) := by
  by_cases one : numPages = 1
  · rw [if_pos one, admRead, admRead, if_pos one, if_pos one]
    have fmc : (s.admReadOne cmdblk pages).fmc.Alike ⟨0, 0⟩
        ((s.withLists l).admReadOne cmdblk pages).fmc :=
      FmcState.Alike.bufferPage (alike_of rfl (Lists.agree_none _ _)) _
    have buffer : ((s.withLists l).admReadOne cmdblk pages).fmc.buffer =
        (s.admReadOne cmdblk pages).fmc.buffer := by
      obtain ⟨l', same, -⟩ := fmc
      exact (congrArg buffer same).trans rfl
    let result (b : Record) :=
      if b.pageErased then Function.update s.adm.result 2 admStatusClean else s.adm.result
    exact ⟨fmc, congrArg (fun b => { s.adm with result := result b }) buffer,
      congrArg (fun b : Record => s.mem.blit s.adm.data3SecAddr.toNat bytesPerSpare b.spare) buffer⟩
  rw [if_neg one, admRead, admRead, if_neg one, if_neg one]
  apply ite_alike
  · intro _
    have fmc : (s.admReadList cmdblk pages numPages stack).fmc.Alike ⟨numPages, 0⟩
        ((s.withLists l).admReadList cmdblk pages numPages stack).fmc :=
      alike_of rfl (agree_fill _ _ s.fmc.lists l)
    exact ⟨fmc, rfl, admReportSpares_alike fmc s.adm le_rfl stack s.mem⟩
  · intro notMany
    obtain rfl : numPages = 0 := by omega
    exact ⟨alike_of rfl (Lists.agree_none _ _), rfl, rfl⟩

theorem alike_admWriteSeq (numPages : Nat) :
    Alike ⟨numPages - numPages % s.fmc.banks, numPages - numPages % s.fmc.banks⟩
      (s.admWriteSeq cmdblk pages numPages)
        ((s.withLists l).admWriteSeq cmdblk pages numPages) := by
  refine ⟨alike_of rfl ⟨?_, ?_, ?_⟩, rfl, rfl⟩
  all_goals exact fun _ h => (if_pos h).trans (if_pos h).symm

theorem alike_admWrite :
    Alike ⟨1, 1⟩ (s.admWrite cmdblk pages) ((s.withLists l).admWrite cmdblk pages) := by
  refine ⟨alike_of rfl ⟨?_, ?_, ?_⟩, rfl, rfl⟩
  all_goals
    intro i first
    obtain rfl : i = 0 := Nat.lt_one_iff.mp first
    rfl

theorem alike_admErase :
    Alike ⟨0, 0⟩ (s.admErase cmdblk pages host) ((s.withLists l).admErase cmdblk pages host) := by
  refine ite_alike (fun _ => ⟨alike_of ?_ (Lists.agree_none _ _), rfl, rfl⟩)
    fun _ => ⟨alike_of rfl (Lists.agree_none _ _), rfl, rfl⟩
  cases host with
  | ok stack => rfl
  | failed left => rfl

theorem alike_admRunCommand (rows : WholeRows s.fmc.banks s.admCommand) :
    Alike (filled s.fmc.banks s.admCommand) (s.admRunCommand host stack)
      ((s.withLists l).admRunCommand host stack) := by
  -- the command and its count are the first two things computed; the rest is one case each
  let s₀ : System := { s with adm := { (admFindTf s.adm s.mem).1 with result := fun _ => 0 } }
  let cmdblk := (s₀.adm.data2SecAddr + (admFindTf s.adm s.mem).2).toNat
  let pages := admPagesOff s₀.adm
  have run : ∀ fmc, { s with fmc }.admRunCommand host stack =
      s.admCommand.1.casesOn (motive := fun _ => System)
        ({ s₀ with fmc }.admReadSeq cmdblk pages s.admCommand.2 stack)
        ({ s₀ with fmc }.admRead cmdblk pages s.admCommand.2 stack)
        ({ s₀ with fmc }.admWriteSeq cmdblk pages s.admCommand.2)
        ({ s₀ with fmc }.admWrite cmdblk pages) ({ s₀ with fmc }.admErase cmdblk pages host)
        { s₀ with fmc } := by
    intro fmc
    unfold admRunCommand
    dsimp only
    generalize is : AdmCmd.ofWord _ = kind
    rw [show s.admCommand.1 = kind from is]
    cases kind <;> rfl
  rw [show s.admRunCommand host stack = _ from run s.fmc,
    show (s.withLists l).admRunCommand host stack = _ from run _]
  rw [WholeRows] at rows
  generalize s.admCommand = command at rows ⊢
  obtain ⟨kind, numPages⟩ := command
  cases kind with
  | readSeq => exact alike_admReadSeq s₀ l cmdblk pages stack (rows rfl)
  | read => exact alike_admRead s₀ l cmdblk pages stack numPages
  | writeSeq => exact alike_admWriteSeq s₀ l cmdblk pages numPages
  | write => exact alike_admWrite s₀ l cmdblk pages
  | erase => exact alike_admErase s₀ l cmdblk pages host
  | unknown => exact ⟨alike_of rfl (Lists.agree_none _ _), rfl, rfl⟩

/-- What a command and the FIFO accesses behind it do, whatever earlier commands left in the lists:
the same spares are reported, the same words delivered and the same pages programmed, if a
sequential read is for whole rows and each access stays within the entries the command filled. -/
theorem old_lists_unseen (s : System) (l : Lists) (host : Host) (stack : Record)
    (accesses : List Access) (rows : WholeRows s.fmc.banks s.admCommand)
    (inside : AllWithin (filled s.fmc.banks s.admCommand) accesses
      (s.admRunCommand host stack).fmc) :
    let t := s.admRunCommand host stack
    let t' := (s.withLists l).admRunCommand host stack
    t'.mem = t.mem ∧ (FmcState.accesses accesses t'.fmc).2 = (FmcState.accesses accesses t.fmc).2 ∧
      (FmcState.accesses accesses t'.fmc).1.store = (FmcState.accesses accesses t.fmc).1.store := by
  have command := alike_admRunCommand s l host stack rows
  obtain ⟨⟨l', same, -⟩, words⟩ := command.fmc.accesses accesses inside
  exact ⟨command.mem, words, (congrArg FmcState.store same).trans rfl⟩

/-- Out of reset with `READ_SEQ` in the transfer block, and a page on bank 0 with zeros for its
spare. -/
def sequentialRead (numPages : UInt8) : System :=
  { powerOn with
    fmc := { powerOn.fmc with
      store := .dirs none fun p => if p = (0, 1) then some ⟨2112, fun _ => 0⟩ else none }
    mem := fun a => if a = 0x25 then 2 else if a = 0x29 then numPages else 0 }

/-- A list an earlier command may leave: that page. -/
def oldPage : Lists := ⟨fun _ => 0, fun _ => 1, fun _ _ => 0⟩

/-- A whole row, and the first word of the first page of its list. -/
theorem old_lists_unseen_row :
    let host := Host.ok (.filled 0)
    let t := (sequentialRead 8).admRunCommand host (.filled 0)
    let t' := ((sequentialRead 8).withLists oldPage).admRunCommand host (.filled 0)
    t.fmc.TakesEntry ∧ t'.mem = t.mem ∧ t'.fmc.fifoPop.2 = t.fmc.fifoPop.2 := by
  intro host t t'
  have entry : t.fmc.TakesEntry := by unfold FmcState.TakesEntry; decide +kernel
  have same := old_lists_unseen (sequentialRead 8) oldPage host (.filled 0) [.pop]
    (fun _ => by decide +kernel) ⟨fun _ => by decide +kernel, trivial⟩
  exact ⟨entry, same.1, List.cons.inj same.2.1 |>.1⟩

/-- For one page of a row, the spare reported is that of the page left in the list. -/
theorem part_row_reports_old_entry :
    (sequentialRead 1).admCommand = (.readSeq, 1) ∧
      ((sequentialRead 1).admRunCommand (.ok (.filled 0)) (.filled 0)).mem 0 = 0xff ∧
      (((sequentialRead 1).withLists oldPage).admRunCommand (.ok (.filled 0)) (.filled 0)).mem 0 =
        0 :=
  ⟨by decide +kernel, by decide +kernel, by decide +kernel⟩

end System

end QemuIos.Fmc

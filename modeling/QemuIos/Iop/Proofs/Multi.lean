import QemuIos.Iop.Multi

/-!
# What a command about several pages or blocks reports

Of the operations of a command the first that fails matters: a write stops there and names it, an
erase goes on and reports every block done and none failing.
-/

namespace QemuIos.Iop
open Mem List

/-- What the guest reads in a command that came back: the status, the operations completed, and
the index of the one that failed where the command has such a word. -/
structure Report where
  status : Status
  completed : Nat
  failing : Option Nat

/-- The index of the first operation that failed. -/
def firstFailure (results : List Status) : Nat := results.findIdx (· ≠ .ok)

/-- A report that accounts for the results of the operations performed. -/
structure Report.Accounts (r : Report) (results : List Status) : Prop where
  status : r.status = .ok ↔ ∀ st ∈ results, st = .ok
  failure : (∃ st ∈ results, st ≠ .ok) →
    r.failing = some (firstFailure results) ∧ r.completed = firstFailure results
  success : r.failing = some (2 ^ 32 - 1) → ∀ st ∈ results, st = .ok

/-! ## Writes -/

namespace Multi

variable (arg : Nat) (bus : Int) (ces pages : Nat)

/-- What the programs of a command give, up to the one that ends it. -/
def results : Nat → Nat → Multi → List Status
  | 0, _, _ => []
  | k + 1, i, s =>
    let s := s.turn true bus (s.chipAt arg ces i) (s.mem.word (iopPa (pages + 4 * i)))
    if stops true s.st then [s.st] else s.st :: results k (i + 1) s

theorem stops_true (st : Status) : stops true st = true ↔ st ≠ .ok := by
  cases st <;> decide

theorem failed_turn (write : Bool) (ce pg : Nat) (s : Multi) :
    (s.turn write bus ce pg).failed = s.failed := by
  unfold turn
  cases write <;> rfl

/-- All programs are done, or the loop ends with the first that fails. -/
theorem pagesFrom_true (k i : Nat) (s : Multi) (fresh : s.failed = none) :
    ((pagesFrom true arg bus ces pages k i s).failed = none ∧
      (results arg bus ces pages k i s).length = k ∧
      ∀ st ∈ results arg bus ces pages k i s, st = .ok) ∨
    ∃ ce, (pagesFrom true arg bus ces pages k i s).failed =
        some (ce, i + firstFailure (results arg bus ces pages k i s)) ∧
      firstFailure (results arg bus ces pages k i s) < k ∧
      (pagesFrom true arg bus ces pages k i s).st ≠ .ok ∧
      (pagesFrom true arg bus ces pages k i s).st ∈ results arg bus ces pages k i s := by
  induction k generalizing i s with
  | zero => exact .inl ⟨fresh, rfl, by simp [results]⟩
  | succ k ih =>
    rw [pagesFrom, results]
    generalize isNext : s.turn true bus (s.chipAt arg ces i) (s.mem.word (iopPa (pages + 4 * i))) =
      s'
    have fresh' : s'.failed = none := by rw [← isNext, failed_turn, fresh]
    by_cases bad : s'.st = .ok
    · have goesOn : ¬ stops true s'.st = true := by rw [stops_true]; exact not_not.mpr bad
      have later : firstFailure (s'.st :: results arg bus ces pages k (i + 1) s') =
          firstFailure (results arg bus ces pages k (i + 1) s') + 1 := by
        simp [firstFailure, findIdx_cons, bad]
      rw [if_neg goesOn, if_neg goesOn, later]
      rcases ih (i + 1) s' fresh' with ⟨clean, length, fine⟩ | ⟨ce, failed, inside, st, member⟩
      · exact .inl ⟨clean, congrArg (· + 1) length, forall_mem_cons.mpr ⟨bad, fine⟩⟩
      · refine .inr ⟨ce, ?_, by omega, st, mem_cons_of_mem _ member⟩
        rw [failed, Nat.add_assoc, Nat.add_comm 1]
    · have ends : stops true s'.st = true := (stops_true s'.st).mpr bad
      have first : firstFailure [s'.st] = 0 := by simp [firstFailure, findIdx_cons, bad]
      rw [if_pos ends, if_pos ends, first]
      exact .inr ⟨_, rfl, Nat.succ_pos k, bad, mem_singleton_self _⟩

end Multi

section Reports

variable (arg : Nat) (bus : Int) (cmd : Mem) (nand : Nand)

/-- The report of a multi-page command. -/
def multiReport (done : Multi × Mem × Status) : Report where
  status := done.2.2
  completed := done.2.1.word (0x5c + arg)
  failing := some (done.2.1.word (if arg ≠ 0 then 0x68 + arg else 0x74))

/-- The words of the report are those that were put there. -/
theorem multiReport_fmiMulti (write : Bool) (mem page mark : Mem)
    (accepted : multiRefused arg cmd = false)
    (small : ∀ die ∈ (fmiMulti write arg bus cmd nand mem page mark).1.failed, die.2 < 2 ^ 32) :
    let done := fmiMulti write arg bus cmd nand mem page mark
    multiReport arg done = ⟨done.2.2, done.1.failed.elim (fmiArg cmd arg 0x10) Prod.snd,
      some (done.1.failed.elim (2 ^ 32 - 1) Prod.snd)⟩ := by
  have ends : ∀ {d : Nat} (failed : Option (Nat × Nat)), d < 2 ^ 32 →
      (∀ die ∈ failed, die.2 < 2 ^ 32) → failed.elim d Prod.snd < 2 ^ 32 := by
    rintro d (_ | die) fits inside
    · exact fits
    · exact inside die rfl
  simp only [fmiMulti, accepted, Bool.false_eq_true, if_false] at small ⊢
  generalize Multi.pagesFrom write arg bus _ _ _ 0 _ = s at small ⊢
  have count := ends (d := fmiArg cmd arg 0x10) s.failed (word_lt cmd _) small
  have index := ends (d := 2 ^ 32 - 1) s.failed (by decide) small
  unfold multiReport
  by_cases first : arg = 0
  · subst first
    simp only [ne_eq, not_true_eq_false, if_false]
    rw [word_setWord _ _ index, word_setWord_of_apart _ _ (.inr (by decide)),
      word_setWord_of_apart _ _ (.inr (by decide)),
      word_setWord_of_apart _ _ (.inr (by decide)), word_setWord _ _ count]
  · simp only [ne_eq, first, not_false_eq_true, if_true]
    rw [word_setWord _ _ index, word_setWord_of_apart _ _ (.inr (by omega)),
      word_setWord_of_apart _ _ (.inr (by omega)), word_setWord _ _ count]

/-- The report of an erase: the first firmware has no word for the block that failed. -/
def eraseReport (done : Nand × Mem × Mem × Status) : Report where
  status := done.2.2.2
  completed := done.2.2.1.word (if arg ≠ 0 then 0x74 + arg else 0x94)
  failing := if arg ≠ 0 then some (done.2.2.1.word (0x80 + arg)) else none

theorem eraseReport_fmiEraseMultiple (mem : Mem) (accepted : eraseRefused arg cmd = false) :
    (eraseReport arg (fmiEraseMultiple arg bus cmd nand mem)).status =
        (if (eraseEach bus (eraseOps arg cmd) nand).2.all (· = .ok) then .ok else .uecc) ∧
      (eraseReport arg (fmiEraseMultiple arg bus cmd nand mem)).failing =
        if arg ≠ 0 then some (2 ^ 32 - 1) else none := by
  simp only [fmiEraseMultiple, accepted, Bool.false_eq_true, if_false, eraseReport]
  by_cases first : arg = 0
  · simp only [first, ne_eq, not_true_eq_false, if_false, and_self]
  · simp only [ne_eq, first, not_false_eq_true, if_true, true_and]
    rw [word_setWord _ _ (by decide)]

/-- A write always accounts for its programs. An erase accounts for its blocks exactly if none of
them fails. -/
theorem mutation_reports (mem page mark : Mem) :
    (multiRefused arg cmd = false →
      (multiReport arg (fmiMulti true arg bus cmd nand mem page mark)).Accounts
        (Multi.results arg bus (fmiArg cmd arg 0x14) (fmiArg cmd arg 0x18) (fmiArg cmd arg 0x10) 0
          (multiStart arg cmd nand mem page mark))) ∧
    (eraseRefused arg cmd = false →
      ((eraseReport arg (fmiEraseMultiple arg bus cmd nand mem)).Accounts
          (eraseEach bus (eraseOps arg cmd) nand).2 ↔
        ∀ st ∈ (eraseEach bus (eraseOps arg cmd) nand).2, st = .ok)) := by
  constructor
  · intro accepted
    have limit : fmiArg cmd arg 0x10 ≤ fmiMaxMulti := by
      simp only [multiRefused, Bool.or_eq_false_iff, decide_eq_false_iff_not] at accepted
      omega
    have loop := Multi.pagesFrom_true arg bus (fmiArg cmd arg 0x14) (fmiArg cmd arg 0x18)
      (fmiArg cmd arg 0x10) 0 (multiStart arg cmd nand mem page mark) rfl
    have isLoop : (fmiMulti true arg bus cmd nand mem page mark).1 = Multi.pagesFrom true arg bus
        (fmiArg cmd arg 0x14) (fmiArg cmd arg 0x18) (fmiArg cmd arg 0x10) 0
        (multiStart arg cmd nand mem page mark) := by
      simp only [fmiMulti, accepted, Bool.false_eq_true, if_false]
    have isStatus : (fmiMulti true arg bus cmd nand mem page mark).2.2 =
        if (fmiMulti true arg bus cmd nand mem page mark).1.failed = none then .ok
        else (fmiMulti true arg bus cmd nand mem page mark).1.st := by
      simp only [fmiMulti, accepted, Bool.false_eq_true, if_false, if_true]
    have words := multiReport_fmiMulti arg bus cmd nand true mem page mark accepted
    rw [← isLoop] at loop
    generalize fmiMulti true arg bus cmd nand mem page mark = done at loop isStatus words ⊢
    generalize Multi.results arg bus _ _ _ 0 _ = results at loop ⊢
    unfold fmiMaxMulti at limit
    rcases loop with ⟨clean, -, fine⟩ | ⟨ce, failed, inside, st, member⟩
    · rw [words (by rw [clean]; simp), isStatus, clean, if_pos rfl]
      exact ⟨iff_of_true rfl fine, fun ⟨st, member, bad⟩ => absurd (fine st member) bad,
        fun _ => fine⟩
    rw [words (by rw [failed]; simp only [Option.mem_some_iff]; rintro die rfl; dsimp only; omega),
      isStatus, failed, Nat.zero_add]
    refine ⟨?_, fun _ => ⟨rfl, rfl⟩, fun last => ?_⟩
    · rw [if_neg (by simp)]
      exact iff_of_false st fun fine => st (fine _ member)
    · have same : firstFailure results = 2 ^ 32 - 1 := Option.some.inj last
      omega
  · intro accepted
    obtain ⟨status, failing⟩ := eraseReport_fmiEraseMultiple arg bus cmd nand mem accepted
    constructor
    · intro accounts
      by_cases first : arg = 0
      · by_contra bad
        push Not at bad
        have named := (accounts.failure bad).1
        rw [failing, if_neg (not_not.mpr first)] at named
        cases named
      · exact accounts.success (failing.trans (if_pos first))
    · intro fine
      refine ⟨?_, fun ⟨st, member, bad⟩ => absurd (fine st member) bad, fun _ => fine⟩
      rw [status, if_pos (by simpa using fine)]
      exact iff_of_true rfl fine

end Reports

/-- Two blocks, the first on a chip that is not there: the second firmware is told that both were
erased and that none failed. -/
theorem failing_erase_unreported :
    let part : Part := ⟨0, 1, none, false, true, by decide⟩
    let nand : Nand := ⟨part, ⟨fun _ _ => 0, fun _ => .ok, []⟩, fun _ _ => 0, fun _ => false, false,
      fun _ => 0, fun _ => 0, fun _ => 0⟩
    let cmd : Mem := setHalf (setWord (fun _ => 0) 0x14 2) 0x18 5
    eraseRefused 4 cmd = false ∧
      (eraseEach 0 (eraseOps 4 cmd) nand).2 = [.param, .ok] ∧
      (fmiEraseMultiple 4 0 cmd nand fun _ => 0).2.2.2 = .uecc ∧
      (fmiEraseMultiple 4 0 cmd nand fun _ => 0).2.2.1.word 0x78 = 2 ∧
      (fmiEraseMultiple 4 0 cmd nand fun _ => 0).2.2.1.word 0x84 = 2 ^ 32 - 1 := by
  decide +kernel

end QemuIos.Iop

import QemuIos.Baseband.Proofs.Core
import QemuIos.Baseband.Proofs.SimLock

/-!
# AT lines without a SIM

`+CPIN` asks for the card first, `+CLCK` and `+CPWD` go straight to the PIN check, so they work on
the lock of a card that is not there. Every other line leaves the lock and its file alone
(`Sim.Undisturbed`).
-/

namespace QemuIos.Baseband
open CText Option

namespace Sim

/-- The lock of a card. -/
def lock (s : Sim) : Bool × Bytes × Bytes × Int × Int × Bool :=
  (s.pinOn, s.pin, s.puk, s.pinLeft, s.pukLeft, s.pinOk)

/-- The lock is as it was, and so is the file, or it was written with the same lock in it. -/
structure Undisturbed (s s' : Sim) : Prop where
  lock : s'.lock = s.lock
  file : s'.file = s.file ∨ ∃ loci, s'.file = some { s with lociPlmn := loci }.text

/-- A `+CLCK` that reaches the PIN check and does not leave the lock as it is. -/
def clckTouches (s : Sim) (f : List Bytes) : Prop :=
  f.getD 0 [] = ascii "sc" ∧ 3 ≤ f.length ∧ (f.getD 1 [] = ascii "0" ∨ f.getD 1 [] = ascii "1") ∧
    s.pinLeft ≠ 0 ∧
    ¬(f.getD 2 [] = s.pin ∧ s.pinLeft = pinTries ∧ s.pinOk = true ∧
      s.pinOn = (f.getD 1 [] = ascii "1" : Bool))

/-- A `+CPWD` that reaches the PIN check and does not leave the lock as it is. -/
def cpwdTouches (s : Sim) (f : List Bytes) : Prop :=
  f.getD 0 [] = ascii "sc" ∧ 3 ≤ f.length ∧ simCodeOk (f.getD 2 []) 4 = true ∧ s.pinOn = true ∧
    s.pinLeft ≠ 0 ∧
    ¬(f.getD 1 [] = s.pin ∧ s.pinLeft = pinTries ∧ s.pinOk = true ∧ f.getD 2 [] = s.pin)

/-- The commands that present a PIN to the card without asking whether there is one. -/
def touches (s : Sim) (cmd : Bytes) : Prop :=
  (∃ arg, argAfter cmd (ascii "+clck=") = some arg ∧ s.clckTouches (atFields arg 3)) ∨
    ∃ arg, argAfter cmd (ascii "+cpwd=") = some arg ∧ s.cpwdTouches (atFields arg 3)

variable {s s' : Sim}

theorem Undisturbed.refl (s : Sim) : s.Undisturbed s := ⟨rfl, .inl rfl⟩

/-- What is written to the file is the lock and the location. -/
theorem text_of_lock (same : s'.lock = s.lock) (loci : Bytes) :
    { s' with lociPlmn := loci }.text = { s with lociPlmn := loci }.text := by
  simp only [lock, Prod.mk.injEq] at same
  obtain ⟨on, pin, puk, pinLeft, pukLeft, -⟩ := same
  simp only [text, on, pin, puk, pinLeft, pukLeft]

@[simp] theorem save_lock : s.save.lock = s.lock := by
  unfold save
  split <;> rfl

theorem Undisturbed.save (kept : s.Undisturbed s') : s.Undisturbed s'.save := by
  refine ⟨save_lock.trans kept.lock, ?_⟩
  unfold Sim.save
  split
  · exact .inr ⟨s'.lociPlmn, congrArg some (text_of_lock kept.lock s'.lociPlmn)⟩
  · exact kept.file

theorem Undisturbed.withLoci (kept : s.Undisturbed s') (loci : Bytes) :
    s.Undisturbed { s' with lociPlmn := loci } :=
  ⟨kept.lock, kept.file⟩

/-- The card is undisturbed under a condition, without which the lock is another one. -/
structure KeptIff (s s' : Sim) (p : Prop) : Prop where
  kept : p → s.Undisturbed s'
  only : s'.lock = s.lock → p

theorem KeptIff.refl {s : Sim} {p : Prop} (holds : p) : s.KeptIff s p :=
  ⟨fun _ => .refl s, fun _ => holds⟩

theorem KeptIff.congr {p q : Prop} (cond : s.KeptIff s' p) (same : p ↔ q) : s.KeptIff s' q :=
  ⟨fun holds => cond.kept (same.mpr holds), fun lock => same.mp (cond.only lock)⟩

theorem KeptIff.iff {p : Prop} (cond : s.KeptIff s' p) : s.Undisturbed s' ↔ p :=
  ⟨fun kept => cond.only kept.lock, cond.kept⟩

end Sim

open Sim

/-! ## The two commands -/

/-- A PIN that is presented costs a try or, if it is right, may leave everything as it is. -/
theorem keptIff_pinTurn (s : Sim) (given : Bytes) (on : Bool) (pin : Bytes) :
    s.KeptIff (s.pinTurn given on pin) (s.pinLeft = 0 ∨
      given = s.pin ∧ s.pinLeft = pinTries ∧ s.pinOk = true ∧ s.pinOn = on ∧ pin = s.pin) := by
  unfold pinTurn
  split
  · next blocked => exact .refl (.inl blocked)
  · next left =>
    split
    · next right =>
      constructor
      · rintro (blocked | ⟨-, full, isOk, rfl, rfl⟩)
        · exact absurd blocked left
        · exact Undisturbed.save ⟨by simp only [Sim.lock, full, isOk], .inl rfl⟩
      · intro same
        rw [save_lock] at same
        simp only [Sim.lock, Prod.mk.injEq] at same
        exact .inr ⟨right, same.2.2.2.1.symm, same.2.2.2.2.2.symm, same.1.symm, same.2.1⟩
    · next wrong =>
      refine ⟨fun kept => absurd kept (by simp [left, wrong]), fun same => ?_⟩
      rw [save_lock] at same
      have less : s.pinLeft - 1 = s.pinLeft := congrArg (fun l => l.2.2.2.1) same
      omega

theorem keptIff_simClck (m : Modem) (ch : Nat) (f : List Bytes) :
    m.sim.KeptIff (simClck m ch f).1.sim (¬m.sim.clckTouches f) := by
  rcases simClck_cases m ch f with ⟨silent, same⟩ | ⟨⟨sc, enough, mode⟩, set⟩
  · rw [same]
    exact .refl fun touched => silent ⟨touched.1, touched.2.1, touched.2.2.1⟩
  rw [set]
  refine (keptIff_pinTurn _ _ _ _).congr ?_
  simp only [clckTouches, sc, enough, mode, true_and, and_true, not_and, Ne]
  tauto

theorem keptIff_simCpwd (m : Modem) (ch : Nat) (f : List Bytes) :
    m.sim.KeptIff (simCpwd m ch f).1.sim (¬m.sim.cpwdTouches f) := by
  rcases simCpwd_cases m ch f with ⟨silent, same⟩ | ⟨⟨sc, enough, code, on⟩, set⟩
  · rw [same]
    exact .refl fun touched => silent ⟨touched.1, touched.2.1, touched.2.2.1, touched.2.2.2.1⟩
  rw [set, take_code code]
  refine (keptIff_pinTurn _ _ _ _).congr ?_
  simp only [cpwdTouches, sc, enough, code, on, true_and, not_and, Ne]
  tauto

/-! ## A line -/

/-- Without a card, of the SIM's commands only these two do anything to it. -/
theorem simCommand_absent {m : Modem} (absent : m.sim.present = false) (ch : Nat) {cmd : Bytes}
    {o : Out} (found : dispatch (simCommand m ch) cmd = some o) :
    o.1.sim = m.sim ∨
      (∃ arg, argAfter cmd (ascii "clck=") = some arg ∧ o = simClck m ch (atFields arg 3)) ∨
      ∃ arg, argAfter cmd (ascii "cpwd=") = some arg ∧ o = simCpwd m ch (atFields arg 3) := by
  simp only [dispatch, simCommand, List.findSome?_cons, List.findSome?_nil] at found
  split at found
  · next heq =>
    obtain ⟨arg, -, rfl⟩ := map_eq_some_iff.mp heq
    exact .inl (by cases found; rfl)
  split at found
  · next heq =>
    obtain ⟨arg, -, rfl⟩ := map_eq_some_iff.mp heq
    exact .inl (by cases found; rfl)
  split at found
  · next heq =>
    obtain ⟨arg, -, rfl⟩ := map_eq_some_iff.mp heq
    cases found
    have unread : simCpin m ch (atFields arg 2) = (m, [cmeError ch 10]) := by
      unfold simCpin
      exact if_pos (by rw [absent]; rfl)
    left
    simp only [cpinCommand, unread, Bool.and_not_self, Bool.false_eq_true, if_false]
  split at found
  · next heq =>
    obtain ⟨arg, isArg, rfl⟩ := map_eq_some_iff.mp heq
    cases found
    exact .inr (.inl ⟨arg, isArg, rfl⟩)
  split at found
  · next heq =>
    obtain ⟨arg, isArg, rfl⟩ := map_eq_some_iff.mp heq
    cases found
    exact .inr (.inr ⟨arg, isArg, rfl⟩)
  · cases found

theorem atCommandLine_plus (host : Host) (mode : Mode) (m : Modem) (ch : Nat) {line : Bytes}
    (cmd : Bytes) (isCmd : commandOf line = 43 :: cmd)
    (other : argAfter (43 :: cmd) (ascii "+xdrv=9,1,") = none) :
    atCommandLine host mode m ch line = plusCommand host mode m ch cmd := by
  simp only [atCommandLine, isCmd, other]

theorem keptIff_atCommandLine (host : Host) (mode : Mode) {m : Modem}
    (absent : m.sim.present = false) (ch : Nat) (line : Bytes) :
    m.sim.KeptIff (atCommandLine host mode m ch line).1.sim (¬m.sim.touches (commandOf line)) := by
  have learned : ∀ cmd, (learnChannel m ch cmd).sim = m.sim :=
    fun cmd => (simKept_learnChannel m ch cmd).sim
  by_cases clck : ∃ arg, argAfter (commandOf line) (ascii "+clck=") = some arg
  · obtain ⟨arg, isArg⟩ := clck
    have isCmd := argAfter_eq_some isArg
    have run := atCommandLine_plus host mode m ch (ascii "clck=" ++ arg) isCmd rfl
    have table : plusCommand host mode m ch (ascii "clck=" ++ arg) =
        simClck (learnChannel m ch (ascii "clck=" ++ arg)) ch (atFields arg 3) := rfl
    have same := keptIff_simClck (learnChannel m ch (ascii "clck=" ++ arg)) ch
      (atFields arg 3)
    rw [learned] at same
    rw [run, table, touches, isCmd]
    refine same.congr (not_congr ?_)
    constructor
    · exact fun touched => .inl ⟨arg, rfl, touched⟩
    · rintro (⟨arg', same', touched⟩ | ⟨arg', differs, -⟩)
      · cases same'
        exact touched
      · cases differs
  by_cases cpwd : ∃ arg, argAfter (commandOf line) (ascii "+cpwd=") = some arg
  · obtain ⟨arg, isArg⟩ := cpwd
    have isCmd := argAfter_eq_some isArg
    have run := atCommandLine_plus host mode m ch (ascii "cpwd=" ++ arg) isCmd rfl
    have table : plusCommand host mode m ch (ascii "cpwd=" ++ arg) =
        simCpwd (learnChannel m ch (ascii "cpwd=" ++ arg)) ch (atFields arg 3) := rfl
    have same := keptIff_simCpwd (learnChannel m ch (ascii "cpwd=" ++ arg)) ch
      (atFields arg 3)
    rw [learned] at same
    rw [run, table, touches, isCmd]
    refine same.congr (not_congr ?_)
    constructor
    · exact fun touched => .inr ⟨arg, rfl, touched⟩
    · rintro (⟨arg', differs, -⟩ | ⟨arg', same', touched⟩)
      · cases differs
      · cases same'
        exact touched
  · have kept : (atCommandLine host mode m ch line).1.sim = m.sim := by
      rcases atCommandLine_cases host mode m ch line with quiet | ⟨cmd, isCmd, plus⟩
      · exact quiet.sim
      rw [plus, ← learned cmd]
      rcases plusCommand_cases host mode m ch cmd with quiet | sim | radio
      · exact quiet.sim
      · rcases simCommand_absent ((learned cmd).symm ▸ absent) ch sim with
          same | ⟨arg, isArg, -⟩ | ⟨arg, isArg, -⟩
        · exact same
        · exact absurd ⟨arg, by rw [isCmd]; exact isArg⟩ clck
        · exact absurd ⟨arg, by rw [isCmd]; exact isArg⟩ cpwd
      · exact (simKept_radioCommand radio).sim
    rw [kept]
    refine .refl ?_
    rintro (⟨arg, isArg, -⟩ | ⟨arg, isArg, -⟩)
    · exact clck ⟨arg, isArg⟩
    · exact cpwd ⟨arg, isArg⟩

/-- The search for a cell that follows a line keeps the lock, and writes it as it is. -/
theorem keptIff_campUpdate {s : Sim} {m : Modem} {p : Prop} (cond : s.KeptIff m.sim p) :
    s.KeptIff (campUpdate m).sim p := by
  rcases campUpdate_sim m with same | ⟨loci, noted⟩
  · rw [same]
    exact cond
  rw [noted]
  refine ⟨fun holds => ((cond.kept holds).withLoci loci).save, fun lock => cond.only ?_⟩
  rw [save_lock] at lock
  exact lock

/-- A line on a channel of the core. -/
def Core.atLine (host : Host) (c : Core) (ch : Nat) (line : Bytes) : Core :=
  c.runOut (atCommand host c.mode c.modem ch line)

/-- Without a card, a line leaves the lock alone and does not write it to the file changed,
exactly when it is no `+CLCK` or `+CPWD` that presents a PIN and changes something. -/
theorem absent_sim_undisturbed_iff (host : Host) (c : Core) (ch : Nat) (line : Bytes)
    (absent : c.modem.sim.present = false) :
    c.modem.sim.Undisturbed (c.atLine host ch line).modem.sim ↔
      ¬c.modem.sim.touches (commandOf line) := by
  rw [Core.atLine, Core.runOut_modem]
  exact (keptIff_campUpdate (keptIff_atCommandLine host c.mode absent ch line)).iff

/-- The modem of a new board without a card. -/
def noCard : Core := { Core.iosBbInit {} with
  modem := { (Core.iosBbInit {}).modem with sim := { Sim.fresh {} with present := false } } }

/-- `+CPIN` leaves an absent card alone. -/
theorem absent_sim_cpin_undisturbed :
    noCard.modem.sim.Undisturbed (noCard.atLine bareHost 1
      (ascii "+cpin=\"0000\"")).modem.sim := by
  refine (absent_sim_undisturbed_iff _ noCard 1 _ rfl).mpr ?_
  have other : ∀ pat ∈ [ascii "+clck=", ascii "+cpwd="],
      argAfter (commandOf (ascii "+cpin=\"0000\"")) pat = none := by decide +kernel
  rintro (⟨arg, found, -⟩ | ⟨arg, found, -⟩)
  · exact some_ne_none arg (found.symm.trans (other _ (by simp)))
  · exact some_ne_none arg (found.symm.trans (other _ (by simp)))

/-- `+CLCK` with a wrong PIN costs a card that is not there a try. -/
theorem absent_sim_loses_try :
    noCard.modem.sim.present = false ∧ noCard.modem.sim.pinLeft = 3 ∧
      (noCard.atLine bareHost 1
        (ascii "+clck=\"sc\",1,\"0000\"")).modem.sim.pinLeft = 2 := by
  refine ⟨rfl, rfl, ?_⟩
  decide +kernel

end QemuIos.Baseband

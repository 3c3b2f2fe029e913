import QemuIos.Baseband.Proofs.Engine

/-!
# The SIM lock

The PIN, the PUK and their try counters over AT lines, resets and power cycles. The card's file
is read back as it was written (`Sim.load_eq`), and what a command can do to the card is said
once (`Sim.Turn`).
-/

namespace QemuIos.Baseband
open CText List

/-! ## The file -/

theorem litScan_append (lit rest : Bytes) : litScan lit (lit ++ rest) = .ok rest := by
  induction lit with
  | nil => cases rest <;> rfl
  | cons c lit ih => simp [litScan, ih]

/-- A small number behind a space. -/
theorem intScan_decimal {n : Int} (low : 0 ≤ n) (high : n ≤ 10) {rest : Bytes}
    (stop : ∀ c ∈ rest.head?, isDigit 10 c = false) :
    intScan (32 :: (decimal n ++ rest)) = .ok (n, rest) := by
  unfold intScan
  rw [scanInt_space _ (by decide), scanInt_decimal (by simp only [longMax64]; omega)
    (by simp only [longMax64]; omega) stop]
  simp only [intOf]
  rw [Int.bmod_eq_of_le (by omega) (by omega)]

theorem simCodeOk_digits {s : Bytes} {min : Nat} (ok : simCodeOk s min) :
    min ≤ s.length ∧ s.length ≤ 8 ∧ ∀ c ∈ s, isDigit 10 c = true := by
  simpa [simCodeOk, and_assoc] using ok

/-- A code behind a space. -/
theorem wordScan_code {code : Bytes} {min : Nat} (ok : simCodeOk code min) (positive : 0 < min)
    (rest : Bytes) : wordScan 15 (32 :: (code ++ 32 :: rest)) = .ok (code, 32 :: rest) := by
  obtain ⟨atLeast, atMost, digits⟩ := simCodeOk_digits ok
  have nonempty : code ≠ [] := ne_nil_of_length_pos (by omega)
  have free : ∀ c ∈ code, isSpace c = false :=
    fun c inside => (isSpace_of_isDigit (by decide) (digits c inside)).1
  unfold wordScan
  rw [scanWord_space _ (by decide), scanWord_append nonempty (by omega) free (by simp; decide)]

namespace Sim

/-- The values a card's file holds. -/
structure CodesOk (s : Sim) : Prop where
  pin : simCodeOk s.pin 4
  puk : simCodeOk s.puk 8
  pinLow : 0 ≤ s.pinLeft
  pinHigh : s.pinLeft ≤ pinTries
  pukLow : 0 ≤ s.pukLeft
  pukHigh : s.pukLeft ≤ pukTries

/-- The line of the file is read as it was written. -/
theorem scanSimLine_text {s : Sim} (ok : s.CodesOk) :
    scanSimLine s.text = .ok (⟨s.pinOn.toNat, s.pin, s.puk, s.pinLeft, s.pukLeft⟩,
      10 :: if s.lociPlmn = [] then [] else ascii "loci " ++ s.lociPlmn ++ [10]) := by
  obtain ⟨pin, puk, pinLow, pinHigh, pukLow, pukHigh⟩ := ok
  have onSmall : ((s.pinOn.toNat : Nat) : Int) ≤ 10 := by cases s.pinOn <;> decide
  generalize isTail : (if s.lociPlmn = [] then [] else ascii "loci " ++ s.lociPlmn ++ [10]) = tail
  have parts : s.text = ascii "sim-pin" ++ (32 :: (decimal s.pinOn.toNat ++ (32 :: (s.pin ++
      (32 :: (s.puk ++ (32 :: (decimal s.pinLeft ++ (32 :: (decimal s.pukLeft ++
        (10 :: tail))))))))))) := by
    rw [text, isTail, show ascii "sim-pin " = ascii "sim-pin" ++ [32] by decide]
    simp only [append_assoc, cons_append, nil_append]
  rw [parts]
  unfold scanSimLine
  rw [litScan_append]
  simp only [bind, Except.bind, pure, Except.pure]
  rw [intScan_decimal (by omega) onSmall (by simp; decide)]
  dsimp only
  rw [wordScan_code pin (by decide)]
  dsimp only
  rw [wordScan_code puk (by decide)]
  dsimp only
  rw [intScan_decimal pinLow (by simp only [pinTries] at pinHigh; omega) (by simp; decide)]
  dsimp only
  rw [intScan_decimal pukLow (by simp only [pukTries] at pukHigh; omega) (by simp; decide)]

/-- The card in the file is this one, or there is no file and the card is new. -/
def FileOk (s : Sim) : Prop :=
  (s.file = none ∧ ∃ loci, s = { s.fresh with lociPlmn := loci }) ∨
    ∃ loci, s.file = some { s with lociPlmn := loci }.text

/-- The card has a file that can be written. -/
def Kept (s : Sim) : Prop := s.fileSet = true ∧ s.writable = true

theorem fileOk_save {s : Sim} (kept : s.Kept) : s.save.FileOk := by
  unfold save
  rw [kept.1, kept.2]
  exact .inr ⟨s.lociPlmn, rfl⟩

theorem load_none {s : Sim} (file : s.file = none) : s.load = s.fresh := by
  unfold load
  rw [file]
  cases s.fileSet <;> rfl

theorem load_some {s : Sim} {text : Bytes} (set : s.fileSet = true) (file : s.file = some text) :
    s.load = s.fresh.readFrom text := by
  unfold load
  rw [set, file]

theorem readFrom_text {s card : Sim} (ok : card.CodesOk) : s.readFrom card.text =
    let found := scanLoci
      (10 :: if card.lociPlmn = [] then [] else ascii "loci " ++ card.lociPlmn ++ [10])
    { s with
      pinOn := card.pinOn, pin := card.pin, puk := card.puk, pinLeft := card.pinLeft
      pukLeft := card.pukLeft, lociPlmn := found.getD s.lociPlmn } := by
  have lineOk : SimLine.ok
      ⟨card.pinOn.toNat, card.pin, card.puk, card.pinLeft, card.pukLeft⟩ = true := by
    simp [SimLine.ok, ok.pin, ok.puk, ok.pinLow, ok.pinHigh, ok.pukLow, ok.pukHigh]
  have isOn : decide (((card.pinOn.toNat : Nat) : Int) ≠ 0) = card.pinOn := by
    cases card.pinOn <;> rfl
  dsimp only [readFrom]
  rw [scanSimLine_text ok]
  simp only [Option.filter_some, lineOk, if_true, isOn]
  split
  · next found => rw [found]; rfl
  · next noFile => rw [noFile]; rfl

/-- A reload gives the card back. -/
theorem load_eq {s : Sim} (kept : s.Kept) (ok : s.CodesOk) (file : s.FileOk) :
    ∃ loci, s.load = { s with lociPlmn := loci } := by
  rcases file with ⟨noFile, loci, new⟩ | ⟨loci, saved⟩
  · refine ⟨[], ?_⟩
    rw [load_none noFile]
    conv_rhs => rw [new]
    rfl
  · have ok' : CodesOk { s with lociPlmn := loci } :=
      ⟨ok.pin, ok.puk, ok.pinLow, ok.pinHigh, ok.pukLow, ok.pukHigh⟩
    rw [load_some kept.1 saved, readFrom_text ok']
    exact ⟨_, rfl⟩

/-! ## What a command does to the card -/

/-- The card after a command or a power cycle, up to its location and the file. -/
inductive Turn (s : Sim) : Sim → Prop where
  | idle (loci : Bytes) (file : Option Bytes) : Turn s { s with lociPlmn := loci, file }
  | powered (loci : Bytes) (file : Option Bytes) :
      Turn s { s with pinOk := false, lociPlmn := loci, file }
  | rightPin (loci : Bytes) (file : Option Bytes) (on : Bool) (pin : Bytes) (left : s.pinLeft ≠ 0)
      (ok : pin = s.pin ∨ simCodeOk pin 4) :
      Turn s { s with
        pinLeft := pinTries, pinOk := true, pinOn := on, pin, lociPlmn := loci, file
        compared := s.compared ++ [(.pin, true)] }
  | wrongPin (loci : Bytes) (file : Option Bytes) (left : s.pinLeft ≠ 0) :
      Turn s { s with
        pinLeft := s.pinLeft - 1, pinOk := s.pinOk && s.pinLeft - 1 ≠ 0, lociPlmn := loci, file
        compared := s.compared ++ [(.pin, false)] }
  | rightPuk (loci : Bytes) (file : Option Bytes) (pin : Bytes) (blocked : s.pinLeft = 0)
      (left : s.pukLeft ≠ 0) (ok : simCodeOk pin 4) :
      Turn s { s with
        pin, pinOn := true, pinOk := true, pinLeft := pinTries, pukLeft := pukTries
        lociPlmn := loci, file, compared := s.compared ++ [(.puk, true)] }
  | wrongPuk (loci : Bytes) (file : Option Bytes) (blocked : s.pinLeft = 0)
      (left : s.pukLeft ≠ 0) :
      Turn s { s with
        pukLeft := s.pukLeft - 1, lociPlmn := loci, file
        compared := s.compared ++ [(.puk, false)] }

/-- Whether a code was right, and the codes compared before it. -/
abbrev Log := List (Code × Bool)

/-- At most so many wrong codes of each kind since the last right one. -/
def Recent (log : Log) (pins puks : Int) : Prop :=
  ∀ run, run <:+ log → (∀ entry ∈ run, entry.2 = false) →
    (run.count (.pin, false) : Int) ≤ pins ∧ (run.count (.puk, false) : Int) ≤ puks

/-- At most so many wrong codes of each kind between any two right ones. -/
def Spaced (log : Log) : Prop :=
  ∀ run, run <:+: log → (∀ entry ∈ run, entry.2 = false) →
    run.count (.pin, false) ≤ 3 ∧ run.count (.puk, false) ≤ 10

theorem recent_right {log : Log} {code : Code} {pins puks : Int} (pinsLow : 0 ≤ pins)
    (puksLow : 0 ≤ puks) : Recent (log ++ [(code, true)]) pins puks := by
  intro run isSuffix wrong
  rcases suffix_concat_iff.mp isSuffix with rfl | ⟨before, rfl, -⟩
  · exact ⟨pinsLow, puksLow⟩
  · exact absurd (wrong (code, true) (by simp)) (by simp)

/-- A code more, which counts as what it is. -/
theorem recent_concat {log : Log} {entry : Code × Bool} {pins puks : Int} (pinsLow : 0 ≤ pins)
    (puksLow : 0 ≤ puks) (recent : Recent log (pins - [entry].count (.pin, false))
      (puks - [entry].count (.puk, false))) : Recent (log ++ [entry]) pins puks := by
  intro run isSuffix wrong
  rcases suffix_concat_iff.mp isSuffix with rfl | ⟨before, rfl, suffix⟩
  · exact ⟨pinsLow, puksLow⟩
  have old := recent before suffix fun entry inside => wrong entry (mem_append_left _ inside)
  rw [count_append, count_append]
  omega

/-- A stretch of the log ends with its last entry or lies before it. -/
theorem spaced_concat {log : Log} {entry : Code × Bool} {pins puks : Int} (spaced : Spaced log)
    (recent : Recent (log ++ [entry]) pins puks) (pinsHigh : pins ≤ 3) (puksHigh : puks ≤ 10) :
    Spaced (log ++ [entry]) := by
  intro run inside wrong
  rcases infix_concat_iff.mp inside with isSuffix | before
  · have counts := recent run isSuffix wrong
    omega
  · exact spaced run before wrong

/-- What holds of a card from the start. -/
structure Inv (s : Sim) : Prop extends CodesOk s where
  unblocked : s.pukLeft < pukTries → s.pinLeft = 0
  recent : Recent s.compared (pinTries - s.pinLeft) (pukTries - s.pukLeft)
  spaced : Spaced s.compared

variable {s s' : Sim}

/-- As long as the PIN is not blocked, no wrong PUK was given. -/
theorem Inv.pukLeft_eq (inv : s.Inv) (left : s.pinLeft ≠ 0) : s.pukLeft = pukTries :=
  le_antisymm inv.pukHigh (not_lt.mp fun less => left (inv.unblocked less))

theorem inv_turn (inv : s.Inv) (turn : Turn s s') : s'.Inv := by
  have full : s.pinLeft ≠ 0 → s.pukLeft = 10 := inv.pukLeft_eq
  obtain ⟨⟨pin, puk, pinLow, pinHigh, pukLow, pukHigh⟩, unblocked, recent, spaced⟩ := inv
  simp only [pinTries, pukTries] at pinHigh pukHigh unblocked recent
  cases turn with
  | idle loci file =>
    exact ⟨⟨pin, puk, pinLow, pinHigh, pukLow, pukHigh⟩, unblocked, recent, spaced⟩
  | powered loci file =>
    exact ⟨⟨pin, puk, pinLow, pinHigh, pukLow, pukHigh⟩, unblocked, recent, spaced⟩
  | rightPin loci file on pin' left ok =>
    have pukFull := full left
    have isOk : simCodeOk pin' 4 := by
      rcases ok with rfl | ok
      · exact pin
      · exact ok
    have recent' : Recent (s.compared ++ [(.pin, true)]) 0 0 := recent_right le_rfl le_rfl
    refine ⟨⟨isOk, puk, (by decide : (0 : Int) ≤ 3), le_rfl, pukLow, pukHigh⟩, ?_, ?_, ?_⟩
    · intro less
      dsimp only [pukTries] at less
      omega
    · simpa [pukFull] using recent'
    · exact spaced_concat spaced recent' (by decide) (by decide)
  | wrongPin loci file left =>
    have recent' : Recent (s.compared ++ [(.pin, false)]) (3 - (s.pinLeft - 1))
        (10 - s.pukLeft) := by
      refine recent_concat (by omega) (by omega) ?_
      convert recent using 1
      · exact (by omega : 3 - (s.pinLeft - 1) - 1 = 3 - s.pinLeft)
      · exact sub_zero _
    refine ⟨⟨pin, puk, ?_, ?_, pukLow, pukHigh⟩, ?_, recent', ?_⟩
    · dsimp only
      omega
    · dsimp only [pinTries]
      omega
    · intro less
      have := unblocked less
      exact absurd this left
    · exact spaced_concat spaced recent' (by omega) (by omega)
  | rightPuk loci file pin' blocked left ok =>
    have recent' : Recent (s.compared ++ [(.puk, true)]) 0 0 := recent_right le_rfl le_rfl
    refine ⟨⟨ok, puk, (by decide : (0 : Int) ≤ 3), le_rfl, (by decide : (0 : Int) ≤ 10), le_rfl⟩,
      ?_, recent', ?_⟩
    · exact fun less => absurd less (lt_irrefl _)
    · exact spaced_concat spaced recent' (by decide) (by decide)
  | wrongPuk loci file blocked left =>
    have recent' : Recent (s.compared ++ [(.puk, false)]) (3 - s.pinLeft)
        (10 - (s.pukLeft - 1)) := by
      refine recent_concat (by omega) (by omega) ?_
      convert recent using 1
      · exact sub_zero _
      · exact (by omega : 10 - (s.pukLeft - 1) - 1 = 10 - s.pukLeft)
    refine ⟨⟨pin, puk, pinLow, pinHigh, ?_, ?_⟩, fun _ => blocked, recent', ?_⟩
    · dsimp only
      omega
    · dsimp only [pukTries]
      omega
    · exact spaced_concat spaced recent' (by omega) (by omega)

/-- A turn, after which the file is right if it was before. -/
structure Steps (s s' : Sim) : Prop where
  turn : Turn s s'
  saved : s.Kept → s.FileOk → s'.FileOk

theorem Steps.refl (s : Sim) : Steps s s := ⟨.idle s.lociPlmn s.file, fun _ file => file⟩

theorem Turn.kept (turn : Turn s s') (kept : s.Kept) : s'.Kept := by
  cases turn <;> exact kept

theorem Turn.withFile (turn : Turn s s') (loci : Bytes) (file : Option Bytes) :
    Turn s { s' with lociPlmn := loci, file } := by
  cases turn with
  | idle => exact .idle loci file
  | powered => exact .powered loci file
  | rightPin _ _ on pin left ok => exact .rightPin loci file on pin left ok
  | wrongPin _ _ left => exact .wrongPin loci file left
  | rightPuk _ _ pin blocked left ok => exact .rightPuk loci file pin blocked left ok
  | wrongPuk _ _ blocked left => exact .wrongPuk loci file blocked left

theorem save_eq : s.save = { s with lociPlmn := s.lociPlmn, file := s.save.file } := by
  unfold save
  split <;> rfl

theorem Turn.save (turn : Turn s s') : Steps s s'.save :=
  ⟨by rw [save_eq]; exact turn.withFile _ _, fun kept _ => fileOk_save (turn.kept kept)⟩

/-- A PIN that is presented, and what may then be set. -/
theorem steps_pinTurn (given : Bytes) (on : Bool) {pin : Bytes}
    (ok : pin = s.pin ∨ simCodeOk pin 4) : Steps s (s.pinTurn given on pin) := by
  unfold pinTurn
  split
  · exact .refl s
  · next left =>
    split
    · exact Turn.save (.rightPin s.lociPlmn s.file on pin left ok)
    · exact Turn.save (.wrongPin s.lociPlmn s.file left)

end Sim

/-! ## Commands -/

open Sim

theorem take_code {code : Bytes} {min : Nat} (ok : simCodeOk code min) : code.take 8 = code :=
  take_of_length_le (simCodeOk_digits ok).2.1

theorem steps_simCpin (m : Modem) (ch : Nat) (f : List Bytes) :
    Steps m.sim (simCpin m ch f).1.sim := by
  rcases simCpin_cases m ch f with
    same | ⟨-, s, set, rfl | ⟨blocked, left, ok, rfl | rfl⟩⟩
  · rw [same]
    exact .refl _
  all_goals rw [set]
  · exact steps_pinTurn _ _ (.inl rfl)
  · rw [take_code ok]
    exact Turn.save (.rightPuk m.sim.lociPlmn m.sim.file _ blocked left ok)
  · exact Turn.save (.wrongPuk m.sim.lociPlmn m.sim.file blocked left)

theorem steps_simClck (m : Modem) (ch : Nat) (f : List Bytes) :
    Steps m.sim (simClck m ch f).1.sim := by
  rcases simClck_cases m ch f with ⟨-, same⟩ | ⟨-, set⟩
  · rw [same]
    exact .refl _
  · rw [set]
    exact steps_pinTurn _ _ (.inl rfl)

theorem steps_simCpwd (m : Modem) (ch : Nat) (f : List Bytes) :
    Steps m.sim (simCpwd m ch f).1.sim := by
  rcases simCpwd_cases m ch f with ⟨-, same⟩ | ⟨asks, set⟩
  · rw [same]
    exact .refl _
  · rw [set, take_code asks.2.2.1]
    exact steps_pinTurn _ _ (.inr asks.2.2.1)

theorem SimKept.steps {m m' : Modem} (kept : SimKept m m') : Steps m.sim m'.sim := by
  rw [kept.sim]
  exact .refl _

section
open Table

theorem steps_simCommand (m : Modem) (ch : Nat) {cmd : Bytes} :
    (simCommand m ch).Answers (fun o => Steps m.sim o.1.sim) cmd := by
  refine answers_cons (fun _ _ => .refl _) ?_
  refine answers_cons (fun _ _ => .refl _) ?_
  refine answers_cons (fun arg _ => ?_) ?_
  · have cpin := steps_simCpin m ch (atFields arg 2)
    unfold cpinCommand
    dsimp only
    split
    · rw [((SimKept.walk ch).schedule _).sim]
      exact cpin
    · exact cpin
  refine answers_cons (fun arg _ => steps_simClck m ch _) ?_
  refine answers_cons (fun arg _ => steps_simCpwd m ch _) ?_
  exact answers_nil

end

theorem steps_plusCommand (host : Host) (mode : Mode) (m : Modem) (ch : Nat) (cmd : Bytes) :
    Steps m.sim (plusCommand host mode m ch cmd).1.sim := by
  rw [← (simKept_learnChannel m ch cmd).sim]
  rcases plusCommand_cases host mode m ch cmd with quiet | sim | radio
  · exact quiet.toSimKept.steps
  · exact dispatch_answers (steps_simCommand _ ch) sim
  · exact (simKept_radioCommand radio).steps

theorem steps_atCommandLine (host : Host) (mode : Mode) (m : Modem) (ch : Nat) (line : Bytes) :
    Steps m.sim (atCommandLine host mode m ch line).1.sim := by
  rcases atCommandLine_cases host mode m ch line with quiet | ⟨cmd, -, plus⟩
  · exact quiet.toSimKept.steps
  · rw [plus]
    exact steps_plusCommand host mode m ch cmd

/-- The search for a cell only writes the card's location. -/
theorem campUpdate_sim (m : Modem) :
    (campUpdate m).sim = m.sim ∨
      ∃ loci, (campUpdate m).sim = { m.sim with lociPlmn := loci }.save := by
  unfold campUpdate
  dsimp only
  split
  · exact .inl rfl
  · split
    · exact .inl rfl
    · split
      · split
        · exact .inr ⟨_, rfl⟩
        · exact .inl rfl
      · exact .inl rfl

theorem steps_atCommand (host : Host) (mode : Mode) (m : Modem) (ch : Nat) (line : Bytes) :
    Steps m.sim (atCommand host mode m ch line).1.sim := by
  have line' := steps_atCommandLine host mode m ch line
  rcases campUpdate_sim (atCommandLine host mode m ch line).1 with same | ⟨loci, noted⟩
  · exact same ▸ line'
  · have written := (line'.turn.withFile loci (atCommandLine host mode m ch line).1.sim.file).save
    exact noted ▸ written

/-! ## Runs -/

/-- A line on some channel, in any mode of the transport; time that passes; a reset of the
modem; and a power-off after which the card is read from its file again. -/
inductive Modem.SimStep : Modem → Modem → Prop where
  | line (m : Modem) (host : Host) (mode : Mode) (ch : Nat) (line : Bytes) :
      SimStep m (atCommand host mode m ch line).1
  | clock (m : Modem) (now : Int) : SimStep m { m with nowMs := now }
  | reset (m : Modem) : SimStep m m.reset
  | reload (m : Modem) (kept : m.sim.Kept) : SimStep m (Core.iosBbInit m).modem

/-- The card and its file. -/
structure Modem.SimInv (m : Modem) : Prop where
  card : m.sim.Inv
  file : m.sim.Kept → m.sim.FileOk

theorem Sim.FileOk.powered {s : Sim} (file : s.FileOk) : FileOk { s with pinOk := false } := by
  rcases file with ⟨noFile, loci, new⟩ | ⟨loci, saved⟩
  · refine .inl ⟨noFile, loci, ?_⟩
    conv_lhs => rw [new]
    rfl
  · exact .inr ⟨loci, saved⟩

theorem Sim.FileOk.withLoci {s : Sim} (file : s.FileOk) (loci : Bytes) :
    FileOk { s with lociPlmn := loci } := by
  rcases file with ⟨noFile, _, new⟩ | ⟨loci', saved⟩
  · refine .inl ⟨noFile, loci, ?_⟩
    conv_lhs => rw [new]
    rfl
  · exact .inr ⟨loci', saved⟩

/-- Every step is a turn of the card. -/
theorem Modem.SimStep.steps {m m' : Modem} (inv : m.SimInv) (step : SimStep m m') :
    Steps m.sim m'.sim := by
  cases step with
  | line host mode ch line => exact steps_atCommand host mode m ch line
  | clock now => exact .refl _
  | reset => exact ⟨.powered m.sim.lociPlmn m.sim.file, fun _ file => file.powered⟩
  | reload kept =>
    have off : CodesOk { m.sim with pinOk := false } :=
      ⟨inv.card.pin, inv.card.puk, inv.card.pinLow, inv.card.pinHigh, inv.card.pukLow,
        inv.card.pukHigh⟩
    have file := (inv.file kept).powered
    obtain ⟨loci, loaded⟩ := Sim.load_eq (s := { m.sim with pinOk := false }) kept off file
    have isSim : (Core.iosBbInit m).modem.sim = { m.sim with pinOk := false, lociPlmn := loci } :=
      loaded
    rw [isSim]
    exact ⟨.powered loci m.sim.file, fun _ _ => file.withLoci loci⟩

theorem Modem.SimStep.inv {m m' : Modem} (inv : m.SimInv) (step : SimStep m m') : m'.SimInv := by
  have steps := step.steps inv
  have kept : m'.sim.Kept → m.sim.Kept := by
    intro kept
    obtain ⟨turn, -⟩ := steps
    generalize m'.sim = s' at turn kept
    cases turn <;> exact kept
  exact ⟨Sim.inv_turn inv.card steps.turn, fun k => steps.saved (kept k) (inv.file (kept k))⟩

/-- A card no file describes. -/
theorem Modem.simInv_new {m : Modem} (new : m.sim.fileSet = false ∨ m.sim.file = none)
    (log : m.sim.compared = []) : (Core.iosBbInit m).modem.SimInv := by
  have isSim : (Core.iosBbInit m).modem.sim = Sim.fresh { m.sim with pinOk := false } := by
    change Sim.load { m.sim with pinOk := false } = _
    rcases new with unset | noFile
    · unfold Sim.load
      dsimp only
      rw [unset]
    · exact Sim.load_none noFile
  refine ⟨?_, ?_⟩
  · rw [isSim]
    refine ⟨⟨?_, ?_, ?_, le_rfl, ?_, le_rfl⟩, ?_, ?_, ?_⟩
    · exact (by decide : simCodeOk (ascii "1111") 4 = true)
    · exact (by decide : simCodeOk (ascii "12345678") 8 = true)
    · exact (by decide : (0 : Int) ≤ 3)
    · exact (by decide : (0 : Int) ≤ 10)
    · exact fun less => absurd less (lt_irrefl _)
    · intro run isSuffix _
      rw [show (Sim.fresh { m.sim with pinOk := false }).compared = [] from log,
        suffix_nil] at isSuffix
      subst isSuffix
      exact ⟨le_rfl, le_rfl⟩
    · intro run inside _
      rw [show (Sim.fresh { m.sim with pinOk := false }).compared = [] from log,
        infix_nil] at inside
      subst inside
      exact ⟨Nat.zero_le _, Nat.zero_le _⟩
  · intro kept
    rw [isSim] at kept ⊢
    have noFile : m.sim.file = none :=
      new.resolve_left (by rw [show m.sim.fileSet = true from kept.1]; simp)
    exact .inl ⟨noFile, [], rfl⟩

/-! ## The lock -/

/-- The last thing compared was this code, and it was right. -/
def Sim.Presented (s s' : Sim) (code : Code) : Prop := s'.compared = s.compared ++ [(code, true)]

theorem Sim.Turn.pin_changes {s s' : Sim} (turn : Turn s s') (changes : s'.pin ≠ s.pin) :
    (s.pinLeft ≠ 0 ∧ Presented s s' .pin) ∨
      (s.pinLeft = 0 ∧ s.pukLeft ≠ 0 ∧ Presented s s' .puk) := by
  cases turn with
  | rightPin _ _ on pin left ok => exact .inl ⟨left, rfl⟩
  | rightPuk _ _ pin blocked left ok => exact .inr ⟨blocked, left, rfl⟩
  | _ => exact absurd rfl changes

theorem Sim.Turn.unlocks {s s' : Sim} (turn : Turn s s') (locked : s.locked = true)
    (unlocked : s'.locked = false) : Presented s s' .pin ∨ Presented s s' .puk := by
  cases turn with
  | rightPin _ _ on pin left ok => exact .inl rfl
  | rightPuk _ _ pin blocked left ok => exact .inr rfl
  | idle => exact absurd (locked.symm.trans unlocked) (by decide)
  | powered =>
    simp only [Sim.locked] at locked unlocked
    grind
  | wrongPin _ _ left =>
    simp only [Sim.locked] at locked unlocked
    grind
  | wrongPuk _ _ blocked left => exact absurd (locked.symm.trans unlocked) (by decide)

/-- Once the last PUK try is gone, the card stays as it is. -/
theorem Sim.Turn.blocked {s s' : Sim} (inv : s.Inv) (turn : Turn s s') (gone : s.pukLeft = 0) :
    s'.locked = s.locked ∧ s'.pin = s.pin ∧ s'.puk = s.puk ∧ s'.pukLeft = 0 := by
  have noPin : s.pinLeft = 0 := inv.unblocked (by rw [gone]; decide)
  cases turn with
  | idle => exact ⟨rfl, rfl, rfl, gone⟩
  | powered => exact ⟨by simp [Sim.locked, noPin], rfl, rfl, gone⟩
  | rightPin _ _ on pin left ok => exact absurd noPin left
  | wrongPin _ _ left => exact absurd noPin left
  | rightPuk _ _ pin blocked left ok => exact absurd gone left
  | wrongPuk _ _ blocked left => exact absurd gone left

end QemuIos.Baseband

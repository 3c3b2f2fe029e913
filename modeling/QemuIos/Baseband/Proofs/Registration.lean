import QemuIos.Baseband.Proofs.Answers

/-!
# Registration reports

When the host is told `+CREG: 1`, and whether it is told once that is no longer true. The burst
of reports takes two ticks; `+CFUN` drops a burst it makes wrong, `+COPS=2` and a SIM that locks
do not.
-/

namespace QemuIos.Baseband
open CText Table List Option Modem Bool

variable {m m' : Modem}

/-! ## The state the model would report -/

theorem regStat_of_camped (locked : m'.sim.locked = m.sim.locked)
    (cfun : m'.reg.cfun = m.reg.cfun) (detached : m'.reg.copsDetached = m.reg.copsDetached)
    (sameCamp : camped m' = camped m) : regStat m' = regStat m := by
  unfold regStat
  rw [locked, cfun, detached, sameCamp]

/-- The card only counts through its lock. -/
theorem regStat_congr (nowMs : m'.nowMs = m.nowMs) (locked : m'.sim.locked = m.sim.locked)
    (cfun : m'.reg.cfun = m.reg.cfun) (detached : m'.reg.copsDetached = m.reg.copsDetached)
    (registered : m'.reg.registered = m.reg.registered)
    (campDueMs : m'.reg.campDueMs = m.reg.campDueMs) : regStat m' = regStat m := by
  apply regStat_of_camped locked cfun detached
  unfold camped campPossible
  rw [nowMs, locked, cfun, detached, registered, campDueMs]

theorem Quiet.regStat_eq (quiet : Quiet m m') : regStat m' = regStat m := by
  apply regStat_congr quiet.nowMs <;> simp only [quiet.sim, quiet.reg]

/-- Registered: the radio is on, nothing stands against it, and the search is over. -/
theorem regStat_eq_one :
    regStat m = 1 ↔ m.reg.cfun = 1 ∧ m.reg.copsDetached = false ∧ m.sim.locked = false ∧
      m.reg.registered = true ∧ m.reg.campDueMs ≠ 0 ∧ m.reg.campDueMs ≤ m.nowMs := by
  unfold regStat camped campPossible
  by_cases cfun : m.reg.cfun = 1
  · cases m.reg.copsDetached <;> cases m.sim.locked <;> cases m.reg.registered <;> simp [cfun]
  · simp [cfun]

theorem searchTime_pos (m : Modem) : 0 < searchTime m := by
  unfold searchTime
  split
  · decide
  · split
    · next set => exact_mod_cast Nat.pos_of_ne_zero set
    · decide

theorem save_locked (s : Sim) : s.save.locked = s.locked := by
  unfold Sim.save
  split <;> rfl

/-- What `camp_update` leaves alone. -/
structure Camps (m m' : Modem) : Prop where
  stat : regStat m' = regStat m
  isOpen : m'.isOpen = m.isOpen
  nowMs : m'.nowMs = m.nowMs
  cfun : m'.reg.cfun = m.reg.cfun
  cregN : m'.reg.cregN = m.reg.cregN
  cregCh : m'.reg.cregCh = m.reg.cregCh
  lastCreg : m'.reg.lastCreg = m.reg.lastCreg
  regStep : m'.reg.regStep = m.reg.regStep

theorem camps_campUpdate (m : Modem) : Camps m (campUpdate m) := by
  unfold campUpdate
  dsimp only
  split
  · next impossible =>
    -- no search: the time of its end does not matter
    have no : campPossible m = false := by simpa using impossible
    have still : camped { m with reg := { m.reg with campDueMs := 0 } } = camped m := by
      simp [camped, no]
    exact ⟨regStat_of_camped rfl rfl rfl still, rfl, rfl, rfl, rfl, rfl, rfl, rfl⟩
  · split
    · next fresh =>
      -- a new search ends later than now
      have later := searchTime_pos m
      have before : camped m = false := by simp [camped, fresh]
      refine ⟨regStat_of_camped rfl rfl rfl ?_, rfl, rfl, rfl, rfl, rfl, rfl, rfl⟩
      rw [before]
      simp only [camped, and_eq_false_iff, decide_eq_false_iff_not]
      right
      split
      · omega
      · omega
    · split
      · split
        · refine ⟨?_, rfl, rfl, rfl, rfl, rfl, rfl, rfl⟩
          exact regStat_congr rfl (save_locked _) rfl rfl rfl rfl
        · exact ⟨rfl, rfl, rfl, rfl, rfl, rfl, rfl, rfl⟩
      · exact ⟨rfl, rfl, rfl, rfl, rfl, rfl, rfl, rfl⟩

/-! ## Truthful states -/

/-- The second half of a burst is only due while it is true, and a host that was told otherwise
than it would be told now is about to hear of it. -/
structure Truthful (m : Modem) : Prop where
  cregCh : 0 < m.reg.cregCh
  burst : m.reg.regStep = 2 → regStat m = 1 ∧ m.reg.lastCreg = 2
  owed : m.reg.lastCreg = 1 → regStat m ≠ 1 → 0 < m.reg.cregN → m.isOpen m.reg.cregCh = true →
    m.reg.cfun = 1 → m.reg.regStep ≠ 0

section
variable {m m' : Modem}

variable {cmd arg : Bytes}

/-- In the first half of a burst nothing is promised. -/
theorem Truthful.of_first (cregCh : 0 < m.reg.cregCh) (first : m.reg.regStep = 1) : Truthful m where
  cregCh := cregCh
  burst second := by rw [first] at second; cases second
  owed _ _ _ _ _ := by rw [first]; decide

theorem Truthful.step_of_off (truthful : Truthful m) (off : m.reg.cfun ≠ 1) : m.reg.regStep ≠ 2 :=
  fun second => off (regStat_eq_one.mp (truthful.burst second).1).1

theorem truthful_regSchedule (cregCh : 0 < m.reg.cregCh)
    (off : m.reg.cfun ≠ 1 → m.reg.regStep ≠ 2) : Truthful (regSchedule m) := by
  unfold regSchedule
  split
  · next isOff =>
    exact ⟨cregCh, fun second => absurd second (off isOff), fun _ _ _ _ on => absurd on isOff⟩
  · exact .of_first cregCh rfl

theorem Truthful.camps (truthful : Truthful m) (camps : Camps m m') : Truthful m' where
  cregCh := by rw [camps.cregCh]; exact truthful.cregCh
  burst second := by
    rw [camps.stat, camps.lastCreg]
    exact truthful.burst (camps.regStep ▸ second)
  owed told differs wanted isOpen on := by
    rw [camps.regStep]
    rw [camps.lastCreg] at told
    rw [camps.stat] at differs
    rw [camps.cregN] at wanted
    rw [camps.cregCh, camps.isOpen] at isOpen
    exact truthful.owed told differs wanted isOpen (camps.cfun ▸ on)

/-- The same reports to the same host, and a registration is not lost. -/
theorem Truthful.sameReg (truthful : Truthful m) (reg : m'.reg = m.reg)
    (isOpen : m'.isOpen m.reg.cregCh = m.isOpen m.reg.cregCh)
    (stat : regStat m = 1 → regStat m' = 1) : Truthful m' where
  cregCh := by rw [reg]; exact truthful.cregCh
  burst second := by
    rw [reg] at second ⊢
    exact (truthful.burst second).imp_left stat
  owed told differs wanted listens on := by
    rw [reg] at told wanted listens on ⊢
    exact truthful.owed told (mt stat differs) wanted (isOpen ▸ listens) on

theorem Truthful.quiet (truthful : Truthful m) (quiet : Quiet m m') : Truthful m' :=
  truthful.sameReg quiet.reg (quiet.isOpen _ truthful.cregCh) quiet.regStat_eq.trans

/-! ## Commands about the SIM -/

/-- The card may change as long as it does not lock, or nothing was promised. -/
theorem Truthful.withSim (truthful : Truthful m) {s : Sim}
    (unlocked : m.reg.regStep ≠ 1 → m.sim.locked = false → s.locked = false) :
    Truthful { m with sim := s } := by
  by_cases first : m.reg.regStep = 1
  · exact .of_first truthful.cregCh first
  · refine truthful.sameReg rfl rfl fun registered => ?_
    obtain ⟨cfun, attached, noLock, rest⟩ := regStat_eq_one.mp registered
    exact regStat_eq_one.mpr ⟨cfun, attached, unlocked first noLock, rest⟩

/-- The PIN that a `+CLCK` or `+CPWD` makes the card compare. -/
def presentedPin (s : Sim) (cmd : Bytes) : Option Bytes :=
  match argAfter cmd (ascii "clck=") with
  | some arg =>
    let f := atFields arg 3
    if f.getD 0 [] = ascii "sc" ∧ 3 ≤ f.length ∧
        (f.getD 1 [] = ascii "0" ∨ f.getD 1 [] = ascii "1") then some (f.getD 2 [])
    else none
  | none =>
    match argAfter cmd (ascii "cpwd=") with
    | some arg =>
      let f := atFields arg 3
      if f.getD 0 [] = ascii "sc" ∧ 3 ≤ f.length ∧ simCodeOk (f.getD 2 []) 4 ∧ s.pinOn then
        some (f.getD 1 [])
      else none
    | none => none

/-- The last PIN try is spent on a wrong PIN. -/
def takesLastTry (s : Sim) (cmd : Bytes) : Bool :=
  s.pinLeft = 1 && (presentedPin s cmd).any (· ≠ s.pin)

/-- A PIN does not lock a card unless it takes the last try. -/
theorem pinTurn_locked {s : Sim} {given : Bytes} (unlocked : s.locked = false)
    (spared : s.pinLeft = 1 → given = s.pin) (on : Bool) (pin : Bytes) :
    (s.pinTurn given on pin).locked = false := by
  unfold Sim.pinTurn
  split
  · exact unlocked
  · next left =>
    split
    · rw [save_locked]
      simp [Sim.locked, pinTries]
    · next wrong =>
      have notLast : s.pinLeft - 1 ≠ 0 := fun last => wrong (spared (by omega))
      rw [save_locked]
      simp only [Sim.locked] at unlocked ⊢
      simp [notLast]
      simpa [left] using unlocked

/-- A command about the SIM only changes the card, and locks it only by the last try. -/
def SparesLock (cmd : Bytes) (m m' : Modem) : Prop :=
  ∃ s, m' = { m with sim := s } ∧
    (takesLastTry m.sim cmd = false → m.sim.locked = false → s.locked = false)

theorem SparesLock.refl (cmd : Bytes) (m : Modem) : SparesLock cmd m m :=
  ⟨m.sim, rfl, fun _ unlocked => unlocked⟩

theorem SparesLock.pinTurn {given : Bytes} (presented : presentedPin m.sim cmd = some given)
    (on : Bool) (pin : Bytes) : SparesLock cmd m { m with sim := m.sim.pinTurn given on pin } :=
  ⟨_, rfl, fun spared unlocked => pinTurn_locked unlocked
    (fun last => by simpa [takesLastTry, last, presented] using spared) on pin⟩

theorem sparesLock_simCpin (cmd : Bytes) (m : Modem) (ch : Nat) (f : List Bytes) :
    SparesLock cmd m (simCpin m ch f).1 := by
  rcases simCpin_cases m ch f with same | ⟨locked, s, set, -⟩
  · rw [same]
    exact .refl cmd m
  · exact ⟨s, set, fun _ unlocked => absurd (locked.symm.trans unlocked) (by decide)⟩

theorem sparesLock_simClck (ch : Nat)
    (isArg : argAfter cmd (ascii "clck=") = some arg) :
    SparesLock cmd m (simClck m ch (atFields arg 3)).1 := by
  rcases simClck_cases m ch (atFields arg 3) with ⟨-, same⟩ | ⟨asks, set⟩
  · rw [same]
    exact .refl cmd m
  rw [set]
  refine .pinTurn ?_ _ _
  unfold presentedPin
  rw [isArg]
  exact if_pos asks

theorem sparesLock_simCpwd (ch : Nat)
    (isArg : argAfter cmd (ascii "cpwd=") = some arg)
    (notClck : argAfter cmd (ascii "clck=") = none) :
    SparesLock cmd m (simCpwd m ch (atFields arg 3)).1 := by
  rcases simCpwd_cases m ch (atFields arg 3) with ⟨-, same⟩ | ⟨asks, set⟩
  · rw [same]
    exact .refl cmd m
  rw [set]
  refine .pinTurn ?_ _ _
  unfold presentedPin
  rw [notClck, isArg]
  exact if_pos asks

theorem Truthful.sparesLock (truthful : Truthful m) (spares : SparesLock cmd m m')
    (spared : m.reg.regStep ≠ 1 → takesLastTry m.sim cmd = false) : Truthful m' := by
  obtain ⟨s, rfl, unlocked⟩ := spares
  exact truthful.withSim fun notFirst => unlocked (spared notFirst)

theorem truthful_simCommand (truthful : Truthful m) (ch : Nat)
    (spared : m.reg.regStep ≠ 1 → takesLastTry m.sim cmd = false) :
    (simCommand m ch).Answers (fun o => Truthful o.1) cmd := by
  refine answers_cons (fun _ _ => truthful) ?_
  refine answers_cons (fun _ _ => truthful) ?_
  refine answers_cons (fun arg _ => ?_) ?_
  · have spares := sparesLock_simCpin cmd m ch (atFields arg 2)
    have after := truthful.sparesLock spares spared
    unfold cpinCommand
    dsimp only
    split
    · exact truthful_regSchedule after.cregCh after.step_of_off
    · exact after
  refine answers_cons (fun arg isArg => ?_) ?_
  · exact truthful.sparesLock (sparesLock_simClck ch isArg) spared
  refine answers_cons (fun arg isArg => ?_) ?_
  · have notClck := argAfter_none isArg (show ¬ ascii "cpwd=" <+: ascii "clck=" ∧
      ¬ ascii "clck=" <+: ascii "cpwd=" by decide)
    exact truthful.sparesLock (sparesLock_simCpwd ch isArg notClck) spared
  exact answers_nil

/-! ## Commands about the radio -/

/-- A burst may follow. -/
theorem Truthful.scheduleIf (truthful : Truthful m) (c : Prop) [Decidable c] :
    Truthful (if c then regSchedule m else m) := by
  split
  · exact truthful_regSchedule truthful.cregCh truthful.step_of_off
  · exact truthful

/-- With the radio off, or without a burst, only the channel matters. -/
theorem Truthful.of_off (cregCh : 0 < m.reg.cregCh) (noBurst : m.reg.regStep = 0)
    (off : m.reg.cfun ≠ 1) : Truthful m where
  cregCh := cregCh
  burst second := by rw [noBurst] at second; cases second
  owed _ _ _ _ on := absurd on off

theorem reportDetached_reg :
    ∃ told, (reportDetached m).1.reg = { m.reg with lastCreg := told } := by
  unfold reportDetached
  split
  · exact ⟨0, rfl⟩
  · exact ⟨m.reg.lastCreg, rfl⟩

theorem truthful_cfunCommand (truthful : Truthful m) (ch : Nat) (n : Int) :
    Truthful (cfunCommand m ch n).1 := by
  unfold cfunCommand Out.andThen
  dsimp only
  split
  · next moves =>
    split
    · next on =>
      have first : (regSchedule { m with reg := { m.reg with cfun := n } }).reg.regStep = 1 := by
        simp [regSchedule, on]
      have burst := truthful_regSchedule (m := { m with reg := { m.reg with cfun := n } })
        truthful.cregCh fun off => absurd on off
      dsimp only
      split
      · exact .of_first burst.cregCh first
      · exact burst
    · next off =>
      dsimp only
      generalize isReleased : releaseAll (fun _ => true)
        { m with reg := { m.reg with cfun := n } } = released
      have kept : released.1.reg = { m.reg with cfun := n } := by
        rw [← isReleased]
        exact (Quiet.of_board (board_releaseAll _ _)).reg
      obtain ⟨told, isReg⟩ := reportDetached_reg
      refine .of_off ?_ rfl ?_
      all_goals
        dsimp only
        rw [isReg, kept]
      · exact truthful.cregCh
      · exact off
  · exact truthful

/-- `+COPS=2` tells a host that listens; it must not come between the halves of a burst. -/
theorem truthful_detach (truthful : Truthful m) (noBurst : m.reg.regStep ≠ 2) :
    Truthful (reportDetached { m with reg := { m.reg with copsDetached := true } }).1 := by
  unfold reportDetached
  split
  · refine ⟨truthful.cregCh, fun second => absurd second noBurst, fun told => ?_⟩
    exact absurd (show (0 : Int) = 1 from told) (by decide)
  · next deaf =>
    refine ⟨truthful.cregCh, fun second => absurd second noBurst, ?_⟩
    intro _ _ wanted isOpen _
    exact absurd ⟨isOpen, wanted⟩ deaf

variable (host : Host)

theorem truthful_copsCommand (truthful : Truthful m) (ch : Nat)
    (attached : m.reg.regStep = 2 → arg ≠ ascii "2") : Truthful (copsCommand host m ch arg).1 := by
  unfold copsCommand Out.andThen
  dsimp only
  split
  · exact truthful_regSchedule truthful.cregCh truthful.step_of_off
  · split
    · next isTwo => exact truthful_detach truthful fun second => attached second isTwo
    · split
      · exact truthful.camps ⟨rfl, rfl, rfl, rfl, rfl, rfl, rfl, rfl⟩
      · split
        · unfold copsManual
          dsimp only
          split
          all_goals exact truthful_regSchedule truthful.cregCh truthful.step_of_off
        · exact truthful

theorem truthful_radioCommand (truthful : Truthful m) (ch : Nat)
    (notCreg : argAfter cmd (ascii "creg=") = none)
    (attached : m.reg.regStep = 2 → cmd ≠ ascii "cops=2") :
    (radioCommand host m ch).Answers (fun o => Truthful o.1) cmd := by
  have other : ∀ {m'}, Camps m m' → Truthful m' := fun camps => truthful.camps camps
  have same : ∀ (arg : Bytes), Pat.arg? (.start "creg=") cmd = some arg → False := by
    intro arg isArg
    rw [Pat.arg?, notCreg] at isArg
    cases isArg
  refine answers_cons (fun _ _ => ?_) ?_
  · -- the multiplexer starts: only the default channel closes
    exact truthful.sameReg rfl ((simKept_startMux m).isOpen _ truthful.cregCh) id
  refine answers_cons (fun _ _ => other ⟨rfl, rfl, rfl, rfl, rfl, rfl, rfl, rfl⟩) ?_
  refine answers_cons (fun _ _ => truthful_cfunCommand truthful ch _) ?_
  refine answers_cons (fun arg isArg => (same arg isArg).elim) ?_
  refine answers_cons (fun _ _ => truthful) ?_
  refine answers_cons (fun _ _ => ?_) ?_
  · apply Truthful.scheduleIf
    exact other ⟨rfl, rfl, rfl, rfl, rfl, rfl, rfl, rfl⟩
  refine answers_cons (fun _ _ => other ⟨rfl, rfl, rfl, rfl, rfl, rfl, rfl, rfl⟩) ?_
  refine answers_cons (fun _ _ => truthful) ?_
  refine answers_cons (fun _ _ => truthful) ?_
  refine answers_cons (fun arg isArg => ?_) ?_
  · apply truthful_copsCommand host truthful ch
    rintro second rfl
    refine attached second ?_
    rw [argAfter_eq_some isArg]
    decide
  refine answers_cons (fun _ _ => truthful) ?_
  refine answers_cons (fun _ _ => truthful) ?_
  refine answers_cons (fun _ _ => truthful) ?_
  exact answers_nil

/-! ## Lines -/

/-- The channel of the reports changes only with `+CREG=`. -/
theorem quiet_learnChannel (m : Modem) (ch : Nat) (notCreg : argAfter cmd (ascii "creg=") = none) :
    Quiet m (learnChannel m ch cmd) := by
  have no := startsWith_of_none notCreg
  unfold learnChannel
  rw [no]
  repeat' split
  all_goals first
    | exact .of_fields rfl rfl rfl rfl
    | contradiction

/-- `+CREG=` is found behind the commands in front of it. -/
theorem dispatch_creg (mode : Mode) (ch : Nat) :
    dispatch (commandTable host mode m ch) (ascii "creg=" ++ arg) =
      some (if 0 < atoi arg then regSchedule { m with reg := { m.reg with cregN := atoi arg } }
        else { m with reg := { m.reg with cregN := atoi arg } }, [atOk ch]) := by
  rfl

/-- Other reports or another channel for them. -/
theorem Truthful.setReports (truthful : Truthful m) {ch : Nat} (positive : 0 < ch) (n : Int) :
    Truthful (if 0 < n then regSchedule { m with reg := { m.reg with cregCh := ch, cregN := n } }
      else { m with reg := { m.reg with cregCh := ch, cregN := n } }) := by
  split
  · exact truthful_regSchedule positive truthful.step_of_off
  · next silent =>
    exact ⟨positive, truthful.burst, fun _ _ wanted => absurd wanted silent⟩

theorem truthful_creg (mode : Mode) (truthful : Truthful m) (ch : Nat)
    (isArg : argAfter cmd (ascii "creg=") = some arg) :
    Truthful (plusCommand host mode m ch cmd).1 := by
  obtain rfl := argAfter_eq_some isArg
  unfold plusCommand
  dsimp only
  rw [dispatch_creg]
  by_cases default : ch = 0
  · have learned : learnChannel m ch (ascii "creg=" ++ arg) = m := if_pos default
    rw [learned]
    exact truthful.setReports truthful.cregCh _
  have learned : learnChannel m ch (ascii "creg=" ++ arg) =
      { m with reg := { m.reg with cregCh := ch } } := by
    unfold learnChannel
    rw [if_neg default, if_pos]
    simp [startsWith]
  rw [learned]
  exact truthful.setReports (Nat.pos_of_ne_zero default) _

/-- The lines that may make a report wrong without a word about it: `+COPS=2` between the halves
of a burst, and a wrong PIN that takes the last try unless a burst is about to begin. -/
def lineOk (m : Modem) (line : Bytes) : Bool :=
  match commandOf line with
  | 43 :: cmd =>
    (m.reg.regStep ≠ 2 || cmd ≠ ascii "cops=2") && (m.reg.regStep = 1 || !takesLastTry m.sim cmd)
  | _ => true

theorem truthful_atCommandLine (mode : Mode) (truthful : Truthful m) (ch : Nat)
    {line : Bytes} (ok : lineOk m line) : Truthful (atCommandLine host mode m ch line).1 := by
  rcases atCommandLine_cases host mode m ch line with quiet | ⟨cmd, isCmd, plus⟩
  · exact truthful.quiet quiet
  rw [plus]
  rw [lineOk, isCmd] at ok
  simp only [ne_eq, and_eq_true, or_eq_true, decide_eq_true_eq, not_eq_true'] at ok
  obtain ⟨attached, spared⟩ := ok
  cases isCreg : argAfter cmd (ascii "creg=") with
  | some arg => exact truthful_creg host mode truthful ch isCreg
  | none =>
    have learned := quiet_learnChannel m ch isCreg
    have truthful' := truthful.quiet learned
    rcases plusCommand_cases host mode m ch cmd with quiet | sim | radio
    · exact truthful'.quiet quiet
    · refine dispatch_answers (truthful_simCommand truthful' ch ?_) sim
      rw [learned.reg, learned.sim]
      exact fun notFirst => spared.resolve_left notFirst
    · refine dispatch_answers (truthful_radioCommand host truthful' ch isCreg ?_) radio
      rw [learned.reg]
      exact fun second => attached.resolve_left (not_not.mpr second)

theorem truthful_atCommand (mode : Mode) (truthful : Truthful m) (ch : Nat)
    {line : Bytes} (ok : lineOk m line) : Truthful (atCommand host mode m ch line).1 :=
  (truthful_atCommandLine host mode truthful ch ok).camps (camps_campUpdate _)

/-! ## Controls -/

/-- `ios_bb_changed` schedules what a control made wrong. -/
theorem truthful_changed (cregCh : 0 < m.reg.cregCh)
    (burst : m.reg.regStep = 2 → (regStat m = 1 ∧ m.reg.lastCreg = 2) ∨
      (m.reg.cfun = 1 ∧ m.isOpen m.reg.cregCh = true ∧ regStat m ≠ m.reg.lastCreg)) :
    Truthful (changed m).1 := by
  unfold changed
  dsimp only
  generalize isTold : (if rssi m ≠ m.lastRssi ∨ batteryLevel m ≠ m.lastBatt then
      if m.isOpen m.xcievCh = true then emitXciev m
      else
        ({ m with lastRssi := rssi m, lastBatt := batteryLevel m },
          emitXsigstr { m with lastRssi := rssi m, lastBatt := batteryLevel m })
    else (m, [])) = told
  have quiet : Quiet m told.1 := by
    rw [← isTold]
    repeat' split
    · exact .of_board (board_emitXciev m)
    · exact .of_fields rfl rfl rfl rfl
    · exact .refl m
  have camps := camps_campUpdate told.1
  generalize campUpdate told.1 = m₁ at camps
  have positive : 0 < m₁.reg.cregCh := by rw [camps.cregCh, quiet.reg]; exact cregCh
  have stat : regStat m₁ = regStat m := camps.stat.trans quiet.regStat_eq
  have reported : m₁.reg.lastCreg = m.reg.lastCreg := by rw [camps.lastCreg, quiet.reg]
  have isOpen : m₁.isOpen m₁.reg.cregCh = m.isOpen m.reg.cregCh := by
    rw [camps.cregCh, camps.isOpen, quiet.reg, quiet.isOpen _ cregCh]
  have cfun : m₁.reg.cfun = m.reg.cfun := by rw [camps.cfun, quiet.reg]
  have step : m₁.reg.regStep = m.reg.regStep := by rw [camps.regStep, quiet.reg]
  -- what the schedule leaves is truthful, and the rest of the function does not touch it
  have scheduled : Truthful (if m₁.reg.cfun = 1 ∧ m₁.isOpen m₁.reg.cregCh = true ∧
      regStat m₁ ≠ m₁.reg.lastCreg then regSchedule m₁ else m₁) := by
    split
    · next due => exact truthful_regSchedule positive fun off => absurd due.1 off
    · next calm =>
      refine ⟨positive, ?_, ?_⟩
      · intro second
        rw [step] at second
        rw [stat, reported]
        refine (burst second).resolve_right fun wrong => calm ?_
        rw [cfun, isOpen, stat, reported]
        exact wrong
      · intro told differs _ listens on
        exact absurd ⟨on, listens, told ▸ differs⟩ calm
  generalize (if m₁.reg.cfun = 1 ∧ m₁.isOpen m₁.reg.cregCh = true ∧
      regStat m₁ ≠ m₁.reg.lastCreg then regSchedule m₁ else m₁) = m₂ at scheduled
  split
  · exact scheduled.quiet (.of_fields rfl rfl rfl rfl)
  · exact scheduled.quiet (.of_fields rfl rfl rfl rfl)

/-- The controls that may: the network goes, or a locked card is put in while nobody listens,
between the halves of a burst. -/
def controlOk (m : Modem) (change : Control) : Bool :=
  m.reg.regStep ≠ 2 ||
    match change with
    | .registered on => on
    | .simPresent on => !{ m.sim with present := on }.locked || m.isOpen m.reg.cregCh
    | _ => true

section

variable (truthful : Truthful m)
include truthful

theorem Truthful.operatorChanged : Truthful (operatorChanged m) :=
  truthful.scheduleIf _

/-- A control that leaves the reported state alone. -/
theorem Truthful.changed (cregCh : m'.reg.cregCh = m.reg.cregCh)
    (step : m'.reg.regStep = m.reg.regStep) (told : m'.reg.lastCreg = m.reg.lastCreg)
    (stat : regStat m = 1 → regStat m' = 1) : Truthful (Baseband.changed m').1 := by
  apply truthful_changed
  · rw [cregCh]
    exact truthful.cregCh
  · intro second
    obtain ⟨registered, isTold⟩ := truthful.burst (step ▸ second)
    exact .inl ⟨stat registered, told.trans isTold⟩

theorem truthful_control {change : Control} (ok : controlOk m change)
    {o : Out} (accepted : m.control change = some o) : Truthful o.1 := by
  cases change with
  | carrier name =>
    rw [Modem.control] at accepted
    split at accepted
    · obtain rfl := some.inj accepted
      have named : Truthful (Baseband.changed { m with operatorLong := name.take 32 }).1 :=
        truthful.changed rfl rfl rfl id
      exact named.operatorChanged
    · cases accepted
  | mccMnc plmn =>
    rw [Modem.control] at accepted
    split at accepted
    · obtain rfl := some.inj accepted
      have moved : Truthful
          (Baseband.changed { m with reg := { m.reg with plmn := plmn.take 6 } }).1 :=
        truthful.changed rfl rfl rfl id
      exact moved.operatorChanged
    · cases accepted
  | registered on =>
    obtain rfl := some.inj accepted
    by_cases second : m.reg.regStep = 2
    · have isOn : on = true := by simpa [controlOk, second] using ok
      subst isOn
      refine truthful.changed rfl rfl rfl fun registered => ?_
      obtain ⟨cfun, attached, unlocked, -, camp⟩ := regStat_eq_one.mp registered
      exact regStat_eq_one.mpr ⟨cfun, attached, unlocked, rfl, camp⟩
    · exact truthful_changed truthful.cregCh fun second' => absurd second' second
  | simPresent on =>
    obtain rfl := some.inj accepted
    by_cases second : m.reg.regStep = 2
    · obtain ⟨registered, told⟩ := truthful.burst second
      obtain ⟨cfun, attached, -, rest⟩ := regStat_eq_one.mp registered
      refine truthful_changed truthful.cregCh fun _ => ?_
      cases locks : Sim.locked { m.sim with present := on } with
      | false => exact .inl ⟨regStat_eq_one.mpr ⟨cfun, attached, locks, rest⟩, told⟩
      | true =>
        have isOpen : m.isOpen m.reg.cregCh = true := by
          simpa [controlOk, second, locks] using ok
        have off : regStat { m with sim := { m.sim with present := on } } = 0 := by
          simp [regStat, locks]
        refine .inr ⟨cfun, isOpen, ?_⟩
        rw [off]
        exact fun same => absurd (same.trans told) (by decide)
    · exact truthful_changed truthful.cregCh fun second' => absurd second' second
  | gpsFix on =>
    obtain rfl := some.inj accepted
    exact truthful.quiet (.of_fields rfl rfl rfl rfl)
  | _ =>
    obtain rfl := some.inj accepted
    exact truthful.changed rfl rfl rfl id

/-! ## Time -/

theorem Truthful.later {now : Int} (later : m.nowMs ≤ now) :
    Truthful { m with nowMs := now } := by
  refine truthful.sameReg rfl rfl fun registered => ?_
  obtain ⟨cfun, attached, unlocked, isOn, set, ended⟩ := regStat_eq_one.mp registered
  exact regStat_eq_one.mpr ⟨cfun, attached, unlocked, isOn, set, ended.trans later⟩

theorem truthful_regTick : Truthful (regTick host m).1 := by
  unfold regTick
  dsimp only
  split
  · next closed =>
    have isClosed : m.isOpen m.reg.cregCh = false := by simpa using closed
    refine ⟨truthful.cregCh, fun second => (by cases second), ?_⟩
    intro _ _ _ isOpen
    exact absurd (isClosed.symm.trans isOpen) (by decide)
  · split
    · split
      · next registered =>
        exact ⟨truthful.cregCh, fun _ => ⟨registered, rfl⟩, fun told => absurd told (by simp)⟩
      · next searching =>
        exact ⟨truthful.cregCh, fun second => (by cases second),
          fun told => absurd told searching⟩
    · split
      · next second =>
        obtain ⟨registered, -⟩ := truthful.burst second
        have quiet := Quiet.of_board <| board_emitXciev
          { m with reg := { m.reg with lastCreg := 1 } }
        unfold Out.andThen
        dsimp only
        generalize (emitXciev { m with reg := { m.reg with lastCreg := 1 } }).1 = m₁ at quiet
        have stat : regStat { m₁ with reg := { m₁.reg with regStep := 0 } } = 1 :=
          (quiet.regStat_eq.trans registered : regStat m₁ = 1)
        refine ⟨?_, fun second => (by cases second), fun _ differs => absurd stat differs⟩
        dsimp only
        rw [quiet.reg]
        exact truthful.cregCh
      · exact truthful

/-- What the search found is reported at once; anything else starts a burst. -/
theorem truthful_regNotice : Truthful (regNotice m) := by
  unfold regNotice
  split
  · split
    · next found =>
      exact ⟨truthful.cregCh, fun _ => found, fun _ _ _ _ _ => (by decide : (2 : Nat) ≠ 0)⟩
    · exact truthful_regSchedule truthful.cregCh truthful.step_of_off
  · exact truthful

omit truthful in
theorem regStat_regNotice : regStat (regNotice m) = regStat m := by
  unfold regNotice
  split
  · split
    · rfl
    unfold regSchedule
    split
    · rfl
    · rfl
  · rfl

theorem truthful_regTurn : Truthful (regTurn host m).1 := by
  have noticed := truthful_regNotice truthful
  unfold regTurn
  dsimp only
  split
  · exact truthful_regTick host noticed
  · exact noticed

omit truthful in
/-- The rest of a tick leaves registration alone. -/
theorem quiet_modemTick (m : Modem) :
    Quiet (regTurn host (campUpdate m)).1 (modemTick host m).1 := by
  have chains := (Quiet.walk 0).toChains
  have temp : ∀ m : Modem, Quiet m (tempTurn m).1 :=
    fun m => chains.when (.of_fields rfl rfl rfl rfl)
  refine chains.andThen (chains.andThen (temp _) fun m => ?_) (chains.forEach (fun i m => ?_) _)
  · exact .of_board (board_xsimTurn m)
  · exact .of_board (board_callTick i m)

theorem truthful_modemTick : Truthful (modemTick host m).1 := by
  have camps := truthful.camps (camps_campUpdate m)
  exact (truthful_regTurn host camps).quiet (quiet_modemTick host m)

end

end

/-! ## Runs -/

/-- What happens to the engine: a line on a channel, a control, a tick, time that passes with
other input, and a channel that the host opens or closes. -/
inductive RegEvent where
  | line (mode : Mode) (ch : Nat) (line : Bytes)
  | control (change : Control)
  | tick (now : Int)
  | clock (now : Int)
  | opened (ch : Nat)
  | closed (ch : Nat)
  deriving DecidableEq, Repr

variable (host : Host)

def Modem.on (m : Modem) : RegEvent → Modem
  | .line mode ch line => (atCommand host mode m ch line).1
  | .control change => ((m.control change).getD (m, [])).1
  | .tick now => (modemTick host { m with nowMs := now }).1
  | .clock now => { m with nowMs := now }
  | .opened ch => m.setChan ch { m.chans ch with isOpen := true }
  | .closed ch => m.setChan ch { line := (m.chans ch).line.clear }

/-- The condition on an event in a state: time does not go back, the channel of the reports is
not opened while the host wrongly believes it is registered, and no line or control takes the
registration away in the middle of a burst or without a report. -/
def Modem.eventOk (m : Modem) : RegEvent → Bool
  | .line _ _ line => lineOk m line
  | .control change => controlOk m change
  | .tick now => m.nowMs ≤ now
  | .clock now => m.nowMs ≤ now
  | .opened ch => ch ≠ m.reg.cregCh || m.reg.lastCreg ≠ 1 || regStat m = 1
  | .closed _ => true

/-- Another state of a channel, which does not make the host listen to what it was told. -/
theorem Truthful.setChan (truthful : Truthful m) {ch : Nat} {chan : AtChan}
    (deaf : m.reg.lastCreg = 1 → regStat m ≠ 1 → m.reg.cregCh = ch → ¬ chan.isOpen = true) :
    Truthful (m.setChan ch chan) := by
  refine ⟨truthful.cregCh, truthful.burst, ?_⟩
  intro told differs wanted isOpen on
  replace isOpen : (Function.update m.chans ch chan m.reg.cregCh).isOpen = true := isOpen
  by_cases same : m.reg.cregCh = ch
  · rw [same, Function.update_self] at isOpen
    exact absurd isOpen (deaf told differs same)
  · rw [Function.update_of_ne same] at isOpen
    exact truthful.owed told differs wanted isOpen on

theorem truthful_on (truthful : Truthful m) {e : RegEvent} (ok : m.eventOk e) :
    Truthful (m.on host e) := by
  cases e with
  | line mode ch line => exact truthful_atCommand host mode truthful ch ok
  | control change =>
    rw [on]
    cases accepted : m.control change with
    | none => exact truthful
    | some o => exact truthful_control truthful ok accepted
  | tick now =>
    have later : m.nowMs ≤ now := by simpa [eventOk] using ok
    exact truthful_modemTick host (truthful.later later)
  | clock now =>
    have later : m.nowMs ≤ now := by simpa [eventOk] using ok
    exact truthful.later later
  | opened ch =>
    refine truthful.setChan ?_
    rintro told differs rfl -
    simp [eventOk, told, differs] at ok
  | closed ch => exact truthful.setChan fun _ _ _ isOpen => absurd isOpen (by simp)

theorem truthful_init (start : Modem) : Truthful (Core.iosBbInit start).modem where
  cregCh := (by decide : 0 < 2)
  burst second := by cases second
  owed told := by cases told

/-- The state behind a run of events. -/
def Modem.after (m : Modem) (events : List RegEvent) : Modem :=
  events.foldl (Modem.on host) m

/-- Every event of a run meets the condition in its state. -/
def Modem.allOk (host : Host) : Modem → List RegEvent → Bool
  | _, [] => true
  | m, e :: rest => m.eventOk e && allOk host (m.on host e) rest

theorem truthful_after (truthful : Truthful m) {events : List RegEvent}
    (meets : m.allOk host events) : Truthful (m.after host events) := by
  induction events generalizing m with
  | nil => exact truthful
  | cons e rest ih =>
    rw [allOk, and_eq_true] at meets
    exact ih (truthful_on host truthful meets.1) meets.2

/-! ## Reports -/

theorem regStat_cases : regStat m = 0 ∨ regStat m = 1 ∨ regStat m = 2 := by
  unfold regStat
  repeat' split
  · exact .inl rfl
  · exact .inl rfl
  · exact .inr (.inl rfl)
  · exact .inr (.inr rfl)

section

variable {host : Host} (truthful : Truthful m) (off : regStat m ≠ 1)
include truthful off

/-- A step of the burst announces a registration only if the model would. -/
theorem Truthful.silent_regTick : Only (!·.announces) (regTick host m) := by
  have other : regStat m = 0 ∨ regStat m = 2 := by
    rcases regStat_cases with zero | one | two
    · exact .inl zero
    · exact absurd one off
    · exact .inr two
  unfold Only regTick cgregReport
  dsimp only
  rw [if_neg off]
  split
  · rfl
  split
  · rcases other with stat | stat
    all_goals
      rw [stat]
      split <;> rfl
  · split
    · next second => exact absurd (truthful.burst second).1 off
    · rfl

theorem Truthful.silent_modemTick (camp : campUpdate m' = m) :
    Only (!·.announces) (modemTick host m') := by
  refine .modemTick (fun _ plain => (and_eq_true_iff.mp plain).2) ?_
  rw [camp]
  rw [← regStat_regNotice] at off
  exact .ite ((truthful_regNotice truthful).silent_regTick off) rfl

end

/-- The promises about a state: a tick says `+CREG: 1` only in state 1, a control and a line that
does not ask for it never do, and a host that was told so and should not have been is about to hear
of it. -/
def Promised (m : Modem) : Prop :=
  (∀ now, m.nowMs ≤ now → ∀ act ∈ (modemTick host { m with nowMs := now }).2,
    act.announces = true → regStat (campUpdate { m with nowMs := now }) = 1) ∧
  (∀ mode ch line, asks (commandOf line) = false → ∀ act ∈ (atCommand host mode m ch line).2,
    act.announces = false) ∧
  (∀ change o, m.control change = some o → ∀ act ∈ o.2, act.announces = false) ∧
  (m.reg.lastCreg = 1 → regStat m ≠ 1 → 0 < m.reg.cregN → m.isOpen m.reg.cregCh = true →
    m.reg.cfun = 1 → m.reg.regStep ≠ 0)

/-- In every run whose events all meet the condition, they hold in every state. -/
theorem registration_truthful (start : Modem) (events : List RegEvent)
    (meets : (Core.iosBbInit start).modem.allOk host events = true) :
    Promised host ((Core.iosBbInit start).modem.after host events) := by
  have truthful := truthful_after host (truthful_init start) meets
  refine ⟨?_, ?_, ?_, truthful.owed⟩
  · intro now later act told announces
    by_contra off
    have camps := (truthful.later later).camps (camps_campUpdate _)
    have quiet := all_eq_true.mp (camps.silent_modemTick off rfl) act told
    simp [announces] at quiet
  · intro mode ch line silent act told
    simpa using all_eq_true.mp (silent_atCommand silent) act told
  · intro change o accepted act told
    simpa using all_eq_true.mp (plain_control _ accepted).silent act told

/-- A network, reports asked for on channel 2, the search over: the host is told. -/
theorem registration_found_and_told :
    Promised bareHost
      ((Core.iosBbInit { reg := { registered := true, searchMs := 100 } }).modem.after
        bareHost
        [.opened 2, .line ⟨true, true⟩ 2 (ascii "+creg=2"), .tick 400, .tick 800]) :=
  registration_truthful _ _ _ (by decide +kernel)

/-- The host deregisters between the halves of the burst, is told `+CREG: 0`, and then
`+CREG: 1`. -/
theorem burst_outlives_detach :
    ¬ ∀ (host : Host) (start : Modem) (events : List RegEvent),
      Promised host ((Core.iosBbInit start).modem.after host events) := by
  intro all
  have told := (all bareHost
    { reg := { registered := true, searchMs := 100 } }
    [.opened 2, .line ⟨true, true⟩ 2 (ascii "+creg=2"), .tick 400,
      .line ⟨true, true⟩ 2 (ascii "+cops=2")]).1 800 (by decide +kernel)
    (urc 2 (ascii "+CREG: 1,0,0")) (by decide +kernel) rfl
  revert told
  decide +kernel

end QemuIos.Baseband

import QemuIos.Baseband.Core

/-!
# What a command leaves alone

A relation between the states before and after that holds of a few small changes holds of every
command, which is made up of them (`Walk`). Most commands touch neither the clock nor the SIM nor
registration, and none but the multiplexer's start touches whether a channel is open.
-/

namespace QemuIos.Baseband
open CText Option

variable (m : Modem)

variable (ch : Nat)

theorem setChan_chans (c : AtChan) :
    (m.setChan ch c).chans = Function.update m.chans ch c := rfl

/-! ## Relations kept step by step -/

structure Chains (R : Modem → Modem → Prop) : Prop where
  refl : ∀ m, R m m
  trans : ∀ {m₁ m₂ m₃}, R m₁ m₂ → R m₂ m₃ → R m₁ m₃

namespace Chains

variable {R : Modem → Modem → Prop} (chains : Chains R) {m : Modem}
include chains

theorem andThen {o : Out} {f : Modem → Out} (first : R m o.1) (second : ∀ m', R m' (f m').1) :
    R m (o.andThen f).1 :=
  chains.trans first (second o.1)

theorem forEach {f : Nat → Modem → Out} (each : ∀ i m, R m (f i m).1) (is : List Nat)
    (m : Modem) : R m (forEach is f m).1 := by
  have loop : ∀ (o : Out), R m o.1 → R m (is.foldl (fun o i => o.andThen (f i)) o).1 := by
    induction is with
    | nil => exact fun _ kept => kept
    | cons i is ih => exact fun o kept => ih _ (chains.andThen kept fun m' => each i m')
  exact loop (m, []) (chains.refl m)

theorem when {c : Prop} [Decidable c] {o : Out} (step : R m o.1) :
    R m (if c then o else (m, [])).1 := by
  split
  · exact step
  · exact chains.refl m

end Chains

/-! ## Tables of commands -/

theorem argAfter_eq_some {cmd pat arg : Bytes} (isArg : argAfter cmd pat = some arg) :
    cmd = pat ++ arg := by
  unfold argAfter at isArg
  split at isArg
  · next starts =>
    obtain ⟨rest, rfl⟩ := List.isPrefixOf_iff_prefix.mp starts
    rw [List.drop_left] at isArg
    rw [some.inj isArg]
  · cases isArg

/-- Two commands that differ in their first letters are not the same. -/
theorem argAfter_none {cmd pat pat' arg : Bytes} (isArg : argAfter cmd pat = some arg)
    (differ : ¬ pat <+: pat' ∧ ¬ pat' <+: pat) : argAfter cmd pat' = none := by
  obtain rfl := argAfter_eq_some isArg
  unfold argAfter
  rw [if_neg]
  intro also
  exact (List.prefix_or_prefix_of_prefix (List.prefix_append pat arg)
    (List.isPrefixOf_iff_prefix.mp also)).elim differ.1 differ.2

theorem startsWith_of_none {cmd : Bytes} {pat : String}
    (missing : argAfter cmd (ascii pat) = none) : startsWith cmd pat = false := by
  by_contra starts
  rw [argAfter, if_pos (by simpa [startsWith] using starts)] at missing
  cases missing

/-- Every entry that knows a command meets a property. -/
def Table.Answers (p : Out → Prop) (table : Table) (cmd : Bytes) : Prop :=
  ∀ entry ∈ table, ∀ arg, entry.1.arg? cmd = some arg → p (entry.2 arg)

namespace Table

variable {p : Out → Prop} {pat : Pat} {run : Bytes → Out} {table : Table} {cmd : Bytes}

theorem answers_nil : Answers p [] cmd := by simp [Answers]

theorem answers_cons (first : ∀ arg, pat.arg? cmd = some arg → p (run arg))
    (rest : Answers p table cmd) : Answers p ((pat, run) :: table) cmd := by
  intro entry inside
  rcases List.mem_cons.mp inside with rfl | later
  · exact first
  · exact rest entry later

theorem answers_append {first second : Table} (left : Answers p first cmd)
    (right : Answers p second cmd) : Answers p (first ++ second) cmd :=
  fun entry inside => (List.mem_append.mp inside).elim (left entry) (right entry)

end Table

theorem dispatch_answers {p : Out → Prop} {table : Table} {cmd : Bytes} {o : Out}
    (answers : table.Answers p cmd) (done : dispatch table cmd = some o) : p o := by
  obtain ⟨entry, inside, answer⟩ := List.exists_of_findSome?_eq_some done
  obtain ⟨arg, isArg, rfl⟩ := map_eq_some_iff.mp answer
  exact answers entry inside arg isArg

/-! ## What only concerns the calls -/

/-- The fields that the relations of this development look at, the calls apart. -/
def Modem.board (m : Modem) : Int × (Nat → AtChan) × Sim × Reg × Gps × Int × Int × List Nat :=
  (m.nowMs, m.chans, m.sim, m.reg, m.gps, m.tempDueMs, m.tempPeriodMs,
    [m.xcievCh, m.callCh, m.smsCh, m.xsigstrCh, m.xsimCh, m.tempCh, m.ctzrCh])

abbrev SameBoard (m m' : Modem) : Prop := m'.board = m.board

theorem sameBoard_chains : Chains SameBoard :=
  ⟨fun _ => rfl, fun first second => second.trans first⟩

theorem board_releaseAll (p : Call → Bool) (m : Modem) : SameBoard m (releaseAll p m).1 :=
  sameBoard_chains.forEach (fun i m => sameBoard_chains.when (o := callRelease i m) rfl) _ m

theorem board_callNew {m m' : Modem} {mt : Bool} {number : Bytes} {stat : CallStat} {i : Nat}
    (made : callNew m mt number stat = some (m', i)) : SameBoard m m' := by
  unfold callNew at made
  split at made
  · cases made
  · obtain ⟨rfl, rfl⟩ := Prod.mk.inj (some.inj made)
    rfl

theorem board_chldCommand (arg : Option Bytes) :
    SameBoard m (chldCommand m ch arg).1 := by
  have progress : ∀ i stat (m : Modem), SameBoard m (callProgress i stat m).1 := fun _ _ _ => rfl
  apply sameBoard_chains.andThen rfl
  intro m
  split
  · exact board_releaseAll _ m
  · repeat' split
    · exact board_releaseAll _ m
    · rfl
    · rfl
  · split
    · refine sameBoard_chains.andThen (sameBoard_chains.forEach ?_ _ m) (progress _ _)
      exact fun i m => sameBoard_chains.when (progress i _ m)
    apply sameBoard_chains.forEach
    intro i m
    split
    · exact progress i _ m
    · exact sameBoard_chains.when (progress i _ m)
  · exact sameBoard_chains.forEach (fun i m => sameBoard_chains.when (progress i _ m)) _ m
  · rfl

theorem board_dialCommand (num : Bytes) :
    SameBoard m (dialCommand m ch num).1 := by
  unfold dialCommand
  dsimp only
  generalize (if isEmergencyNumber (dialNumber num []) = true then radioOk m else serviceOk m) =
    healthy
  split
  · rfl
  split
  · rfl
  · next made =>
    have same := board_callNew made
    exact same

theorem board_answerCommand : SameBoard m (answerCommand m ch).1 := by
  unfold answerCommand
  split
  · rfl
  · rfl

theorem board_callTick (i : Nat) (m : Modem) : SameBoard m (callTick i m).1 := by
  unfold callTick
  dsimp only
  repeat' split
  all_goals first
    | rfl
    | refine sameBoard_chains.andThen (o := (m.setCall i _, _)) rfl fun m => ?_
      split
      · rfl
      · rfl

theorem board_xsimTurn : SameBoard m (xsimTurn m).1 := by
  unfold xsimTurn
  dsimp only
  repeat' split
  all_goals rfl

theorem board_emitXciev : SameBoard m (emitXciev m).1 := by
  unfold emitXciev
  split
  · rfl
  · rfl

theorem smsParseSubmit_eq (p : Bytes) : ∃ num text count, smsParseSubmit m p =
    { m with lastMoNum := num, lastMoText := text, moCount := count } := by
  unfold smsParseSubmit
  extract_lets n octet pos
  repeat' split
  all_goals exact ⟨_, _, _, rfl⟩

/-! ## Walks through the commands -/

/-- What a relation allows if it holds of the commands that are neither about the SIM nor about
registration nor about calls; `ch` is the channel a command comes from. -/
structure Walk (ch : Nat) (R : Modem → Modem → Prop) : Prop extends Chains R where
  rest : ∀ {m m'}, SameBoard m m' → m'.calls = m.calls → m'.nextCallId = m.nextCallId → R m m'
  /-- A channel's line or mode changes, not whether it is open. -/
  chan : ∀ m i c, c.isOpen = (m.chans i).isOpen →
    (i = 0 → c.dataCid = (m.chans i).dataCid ∨ c.dataCid = 0) → R m (m.setChan i c)
  release : ∀ i m, R m (callRelease i m).1
  temperature : ∀ m n, R m (temperatureCommand m ch n).1
  zone : ∀ m on, R m { m with ctzrOn := on, ctzrCh := ch }

/-- And of the commands about registration. -/
structure RadioWalk (ch : Nat) (R : Modem → Modem → Prop) : Prop extends Walk ch R where
  reg : ∀ m r, r.regStep = m.reg.regStep ∨ r.regStep ≤ 2 → r.cregCh = m.reg.cregCh →
    (r.plmn = m.reg.plmn ∨ plmnOk r.plmn = true) → R m { m with reg := r }
  startMux : ∀ m, R m (m.setChan 0 { m.chans 0 with isOpen := false })

/-- And of those about the SIM and the receiver. -/
structure FullWalk (ch : Nat) (R : Modem → Modem → Prop) : Prop extends RadioWalk ch R where
  sim : ∀ m s, (s.lociPlmn = m.sim.lociPlmn ∨ s.lociPlmn = m.reg.plmn.take 6) →
    R m { m with sim := s }
  learn : ∀ m cmd, R m (learnChannel m ch cmd)
  gps : ∀ m (g : Gps), g.ch = m.gps.ch ∧ g.intervalMs = m.gps.intervalMs ∨
    (0 ≤ g.ch → g.ch = (ch : Int) ∧ 0 < g.intervalMs) → R m { m with gps := g }

/-! ## A network chosen by hand -/

/-- What `+COPS=1,2,"…` reads into its array. -/
def handPlmn (host : Host) (digits : Bytes) : Bytes :=
  (List.range 3).map fun i => (hexNibbles 3 digits []).getD i (host.stack i)

/-- The network a command selects by hand, if it names one. -/
def manualPlmn (host : Host) (cmd : Bytes) : Option Bytes :=
  (argAfter cmd (ascii "cops=1,2,\"")).bind fun digits =>
    if (handPlmn host digits).getD 0 0 ≠ 0 ∧ (handPlmn host digits).getD 1 0 ≠ 0 then
      some (cstr (handPlmn host digits)) else none

theorem argAfter_append (pat arg : Bytes) : argAfter (pat ++ arg) pat = some arg := by
  rw [argAfter, if_pos (List.isPrefixOf_iff_prefix.mpr (List.prefix_append pat arg)),
    List.drop_left]

theorem manualPlmn_eq {host : Host} {cmd arg : Bytes}
    (isArg : argAfter cmd (ascii "cops=") = some arg) (starts : startsWith arg "1,2,\"" = true)
    (named : (handPlmn host (arg.drop 5)).getD 0 0 ≠ 0 ∧
      (handPlmn host (arg.drop 5)).getD 1 0 ≠ 0) :
    manualPlmn host cmd = some (cstr (handPlmn host (arg.drop 5))) := by
  obtain ⟨digits, rfl⟩ := List.isPrefixOf_iff_prefix.mp starts
  have isCmd : cmd = ascii "cops=1,2,\"" ++ digits := by
    rw [argAfter_eq_some isArg, ← List.append_assoc]
    rfl
  have isDigits : (ascii "1,2,\"" ++ digits).drop 5 = digits := rfl
  rw [isDigits] at named ⊢
  rw [manualPlmn, isCmd, argAfter_append, bind_some, if_pos named]

/-- A network's number fits the engine's array. -/
theorem plmnOk_take {plmn : Bytes} (ok : plmnOk plmn = true) : plmn.take 6 = plmn := by
  have length : plmn.length = 5 ∨ plmn.length = 6 := by
    simpa [plmnOk] using (Bool.and_eq_true_iff.mp ok).1
  exact List.take_of_length_le (by omega)

open Table

namespace Walk

variable {ch : Nat} {R : Modem → Modem → Prop} (walk : Walk ch R) (m : Modem)
include walk

theorem releaseAll (p : Call → Bool) : R m (releaseAll p m).1 :=
  walk.forEach (fun i m => walk.when (walk.release i m)) _ m

theorem cmgsPromptCommit (ch' : Nat) (send : Bool) : R m (cmgsPromptCommit m ch' send).1 := by
  have closed := walk.chan m ch' { m.chans ch' with
    smsPrompt := false, line := (m.chans ch').line.clear } rfl fun _ => .inl rfl
  obtain ⟨num, text, count, parsed⟩ := smsParseSubmit_eq (m.setChan ch' { m.chans ch' with
    smsPrompt := false, line := (m.chans ch').line.clear })
    (hexNibbles 220 ((m.chans ch').line.cstrFrom 0) [])
  unfold Baseband.cmgsPromptCommit
  dsimp only
  split
  · exact closed
  · rw [parsed]
    exact walk.trans closed (walk.rest rfl rfl rfl)

theorem boardCommand (mode : Mode) {cmd : Bytes} :
    (boardCommand mode m ch).Answers (fun o => R m o.1) cmd := by
  iterate 2 refine answers_cons (fun _ _ => walk.rest rfl rfl rfl) ?_
  refine answers_cons (fun arg _ => walk.temperature m _) ?_
  iterate 7 refine answers_cons (fun _ _ => walk.refl m) ?_
  exact answers_nil

theorem serviceCommand {cmd : Bytes} :
    (serviceCommand m ch).Answers (fun o => R m o.1) cmd := by
  iterate 6 refine answers_cons (fun _ _ => walk.refl m) ?_
  refine answers_cons (fun _ _ => walk.chan m ch _ rfl fun _ => .inl rfl) ?_
  iterate 2 refine answers_cons (fun _ _ => walk.refl m) ?_
  exact answers_cons (fun _ _ => walk.zone m _) answers_nil

/-- The table of the calls, with what it makes of `+CHLD`. -/
theorem callCommand {cmd : Bytes}
    (chld : ∀ arg, argAfter cmd (ascii "chld") = some arg → R m (chldCommand m ch
      (if arg.head? = some 61 then some (arg.drop 1) else none)).1) :
    (callCommand m ch).Answers (fun o => R m o.1) cmd := by
  apply answers_append
  · intro entry inside arg _
    obtain ⟨text, -, rfl⟩ := List.mem_map.mp inside
    exact walk.refl m
  · refine answers_cons (fun _ _ => walk.andThen (walk.refl m) fun m => walk.releaseAll m _) ?_
    iterate 6 refine answers_cons (fun _ _ => walk.rest rfl rfl rfl) ?_
    refine answers_cons chld ?_
    exact answers_cons (fun _ _ => walk.refl m) answers_nil

theorem dataCommand (mode : Mode) {cmd : Bytes} :
    (dataCommand mode m ch).Answers (fun o => R m o.1) cmd := by
  refine answers_cons (fun _ _ => walk.refl m) ?_
  refine answers_cons (fun arg _ => ?_) ?_
  · unfold cgactCommand
    split
    · refine walk.andThen (walk.rest rfl rfl rfl) (walk.forEach (fun i m => ?_) _)
      exact walk.when (walk.chan m i _ rfl fun _ => .inr rfl)
    · split
      · exact walk.rest rfl rfl rfl
      · exact walk.refl m
  iterate 2 refine answers_cons (fun _ _ => walk.refl m) ?_
  refine answers_cons (fun arg _ => ?_) answers_nil
  unfold cgdataCommand
  dsimp only
  split
  · exact walk.refl m
  · next allowed => exact walk.chan m ch _ rfl fun isZero => by simp [isZero] at allowed

end Walk

namespace RadioWalk

variable {ch : Nat} {R : Modem → Modem → Prop} (walk : RadioWalk ch R) (m : Modem)
include walk

theorem schedule : R m (regSchedule m) := by
  unfold regSchedule
  split
  · exact walk.refl m
  · exact walk.reg m _ (.inr (Nat.le_succ 1)) rfl (.inl rfl)

/-- A setting, after which a burst may be due. -/
theorem scheduleIf {m m' : Modem} (set : R m m') (c : Prop) [Decidable c] :
    R m (if c then regSchedule m' else m') := by
  split
  · exact walk.trans set (walk.schedule m')
  · exact set

theorem detached : R m (reportDetached m).1 := walk.when (walk.reg m _ (.inl rfl) rfl (.inl rfl))

/-- Only a radio that is switched off releases the calls. -/
theorem cfunCommand (n : Int) : R m (cfunCommand m ch n).1 := by
  apply walk.andThen (walk.refl m)
  intro m
  have set := walk.reg m { m.reg with cfun := n } (.inl rfl) rfl (.inl rfl)
  split
  · split
    · refine walk.trans (walk.trans set (walk.schedule _)) ?_
      dsimp only
      split
      · exact walk.rest rfl rfl rfl
      · exact walk.refl _
    · refine walk.andThen (walk.andThen (walk.trans set (walk.releaseAll _ _)) walk.detached) ?_
      exact fun m => walk.reg m _ (.inr (Nat.zero_le 2)) rfl (.inl rfl)
  · exact walk.refl m

theorem copsCommand {host : Host} {cmd arg : Bytes}
    (isArg : argAfter cmd (ascii "cops=") = some arg)
    (manual : ∀ m p, manualPlmn host cmd = some p →
      R m { m with reg := { m.reg with plmn := p } }) :
    R m (copsCommand host m ch arg).1 := by
  apply walk.andThen (walk.refl m)
  intro m
  repeat' split
  · exact walk.trans (walk.reg m { m.reg with copsDetached := false } (.inl rfl) rfl (.inl rfl))
      (walk.schedule _)
  · exact walk.trans (walk.reg m { m.reg with copsDetached := true } (.inl rfl) rfl (.inl rfl))
      (walk.detached _)
  · exact walk.reg m _ (.inl rfl) rfl (.inl rfl)
  · next starts =>
    unfold copsManual
    refine walk.trans ?_ (walk.schedule _)
    split
    · next named => exact manual m _ (manualPlmn_eq isArg starts named)
    · exact walk.refl m
  · exact walk.refl m

/-- The table of the radio, with what a network chosen by hand does. -/
theorem radioCommand {host : Host} {cmd : Bytes}
    (manual : ∀ m p, manualPlmn host cmd = some p →
      R m { m with reg := { m.reg with plmn := p } }) :
    (radioCommand host m ch).Answers (fun o => R m o.1) cmd := by
  refine answers_cons (fun _ _ => walk.startMux m) ?_
  refine answers_cons (fun _ _ => walk.rest rfl rfl rfl) ?_
  refine answers_cons (fun arg _ => walk.cfunCommand m _) ?_
  refine answers_cons (fun arg _ => walk.scheduleIf
    (walk.reg m { m.reg with cregN := atoi arg } (.inl rfl) rfl (.inl rfl)) _) ?_
  refine answers_cons (fun _ _ => walk.refl m) ?_
  refine answers_cons (fun arg _ => walk.scheduleIf
    (walk.reg m { m.reg with cgregN := atoi arg } (.inl rfl) rfl (.inl rfl)) _) ?_
  refine answers_cons (fun _ _ => walk.reg m _ (.inl rfl) rfl (.inl rfl)) ?_
  iterate 2 refine answers_cons (fun _ _ => walk.refl m) ?_
  refine answers_cons (fun arg isArg => walk.copsCommand m isArg manual) ?_
  iterate 3 refine answers_cons (fun _ _ => walk.refl m) ?_
  exact answers_nil

end RadioWalk

/-! ## The SIM and everything -/

theorem Sim.save_lociPlmn (s : Sim) : s.save.lociPlmn = s.lociPlmn := by
  unfold Sim.save
  split
  · rfl
  · rfl

namespace Sim

/-- A PIN is presented and, if it is right, the lock and the PIN are set. -/
def pinTurn (s : Sim) (given : Bytes) (on : Bool) (pin : Bytes) : Sim :=
  if s.pinLeft = 0 then s
  else if given = s.pin then
    { s with
      pinLeft := pinTries, pinOk := true, pinOn := on, pin
      compared := s.compared ++ [(Code.pin, true)] }.save
  else
    { s with
      pinLeft := s.pinLeft - 1, pinOk := s.pinOk && s.pinLeft - 1 ≠ 0
      compared := s.compared ++ [(Code.pin, false)] }.save

theorem save_again (s : Sim) (on : Bool) (pin : Bytes) :
    { s.save with pinOn := on, pin }.save = { s with pinOn := on, pin }.save := by
  by_cases kept : s.fileSet && s.writable
  · simp [save, kept, text]
  · simp [save, kept]

/-- A PIN check, and what a caller makes of the card if the PIN is right. -/
theorem checkPin_cases (s : Sim) (given : Bytes) :
    (∃ err, ∀ on pin, s.checkPin given = (s.pinTurn given on pin, some err)) ∨
    ∃ s', s.checkPin given = (s', none) ∧ s'.pinOn = s.pinOn ∧ s'.pin = s.pin ∧
      s' = s.pinTurn given s.pinOn s.pin ∧
      ∀ on pin, { s' with pinOn := on, pin }.save = s.pinTurn given on pin := by
  have kept : ∀ s : Sim, s.save.pinOn = s.pinOn ∧ s.save.pin = s.pin := by
    intro s
    unfold save
    split <;> exact ⟨rfl, rfl⟩
  unfold checkPin pinTurn
  by_cases blocked : s.pinLeft = 0
  · simp [blocked]
  by_cases right : given = s.pin
  · simp only [if_neg blocked, if_pos right]
    exact .inr ⟨_, rfl, (kept _).1, (kept _).2, rfl, fun on pin => save_again _ on pin⟩
  · simp [blocked, right]

theorem pinTurn_lociPlmn (s : Sim) (given : Bytes) (on : Bool) (pin : Bytes) :
    (s.pinTurn given on pin).lociPlmn = s.lociPlmn := by
  unfold pinTurn
  repeat' split
  · rfl
  · exact save_lociPlmn _
  · exact save_lociPlmn _

end Sim

/-- A `+CLCK` that presents a PIN. -/
def clckAsks (f : List Bytes) : Prop :=
  f.getD 0 [] = ascii "sc" ∧ 3 ≤ f.length ∧ (f.getD 1 [] = ascii "0" ∨ f.getD 1 [] = ascii "1")

/-- A `+CPWD` that does. -/
def cpwdAsks (s : Sim) (f : List Bytes) : Prop :=
  f.getD 0 [] = ascii "sc" ∧ 3 ≤ f.length ∧ simCodeOk (f.getD 2 []) 4 = true ∧ s.pinOn = true

theorem simClck_cases (f : List Bytes) :
    ¬clckAsks f ∧ (simClck m ch f).1 = m ∨ clckAsks f ∧ (simClck m ch f).1 = { m with
      sim := m.sim.pinTurn (f.getD 2 []) (f.getD 1 [] = ascii "1") m.sim.pin } := by
  unfold simClck
  split
  · next other => exact .inl ⟨fun asks => other asks.1, rfl⟩
  · next sc =>
    split
    · next query =>
      refine .inl ⟨?_, rfl⟩
      rintro ⟨-, -, mode⟩
      rw [query.2] at mode
      exact absurd mode (by decide)
    · split
      · next malformed =>
        refine .inl ⟨?_, rfl⟩
        rintro ⟨-, enough, mode⟩
        exact malformed.elim (by omega) fun neither => mode.elim neither.1 neither.2
      · next wellFormed =>
        rw [not_or, not_and_or, not_not, not_not] at wellFormed
        refine .inr ⟨⟨not_not.mp sc, by omega, wellFormed.2⟩, ?_⟩
        rcases m.sim.checkPin_cases (f.getD 2 []) with ⟨err, refused⟩
          | ⟨s', accepted, -, pin, -, set⟩
        · rw [refused (f.getD 1 [] = ascii "1") m.sim.pin]
        · rw [accepted, ← set, ← pin]

theorem simCpwd_cases (f : List Bytes) :
    ¬cpwdAsks m.sim f ∧ (simCpwd m ch f).1 = m ∨ cpwdAsks m.sim f ∧ (simCpwd m ch f).1 = { m with
      sim := m.sim.pinTurn (f.getD 1 []) m.sim.pinOn ((f.getD 2 []).take 8) } := by
  unfold simCpwd
  split
  · next other => exact .inl ⟨fun asks => other asks.1, rfl⟩
  · next sc =>
    split
    · next malformed =>
      refine .inl ⟨?_, rfl⟩
      rintro ⟨-, enough, code, on⟩
      simp only [code, on, Bool.not_true, Bool.or_false, decide_eq_true_eq] at malformed
      omega
    · next wellFormed =>
      simp only [Bool.or_eq_true, decide_eq_true_eq, Bool.not_eq_true', not_or, not_lt,
        Bool.not_eq_false] at wellFormed
      refine .inr ⟨⟨not_not.mp sc, wellFormed.1.1, wellFormed.1.2, wellFormed.2⟩, ?_⟩
      rcases m.sim.checkPin_cases (f.getD 1 []) with ⟨err, refused⟩ | ⟨s', accepted, on, -, -, set⟩
      · rw [refused m.sim.pinOn ((f.getD 2 []).take 8)]
      · rw [accepted, ← set, ← on]

/-- `+CPIN` works on a locked card: with the PUK if the PIN is blocked. -/
theorem simCpin_cases (f : List Bytes) :
    (simCpin m ch f).1 = m ∨ m.sim.locked = true ∧ ∃ s, (simCpin m ch f).1 = { m with sim := s } ∧
      (s = m.sim.pinTurn (f.getD 0 []) m.sim.pinOn m.sim.pin ∨
        m.sim.pinLeft = 0 ∧ m.sim.pukLeft ≠ 0 ∧ simCodeOk (f.getD 1 []) 4 = true ∧
          (s = { m.sim with
              pin := (f.getD 1 []).take 8, pinOn := true, pinOk := true
              pinLeft := pinTries, pukLeft := pukTries
              compared := m.sim.compared ++ [(Code.puk, true)] }.save ∨
            s = { m.sim with
              pukLeft := m.sim.pukLeft - 1
              compared := m.sim.compared ++ [(Code.puk, false)] }.save)) := by
  unfold simCpin
  dsimp only
  split
  · exact .inl rfl
  · next present =>
    split
    · exact .inl rfl
    · next left =>
      split
      · next blocked =>
        have locked : m.sim.locked = true := by
          simpa [Sim.locked, blocked] using present
        split
        · exact .inl rfl
        · next code =>
          rw [Bool.or_eq_true, not_or, Bool.not_eq_true', Bool.not_eq_false] at code
          split
          · exact .inr ⟨locked, _, rfl, .inr ⟨blocked, left, code.2, .inl rfl⟩⟩
          · exact .inr ⟨locked, _, rfl, .inr ⟨blocked, left, code.2, .inr rfl⟩⟩
      · split
        · exact .inl rfl
        · next locked =>
          refine .inr ⟨by simpa using locked, _, ?_, .inl rfl⟩
          rcases m.sim.checkPin_cases (f.getD 0 []) with ⟨err, refused⟩
            | ⟨s', accepted, -, -, same, -⟩
          · rw [refused m.sim.pinOn m.sim.pin]
          · rw [accepted, ← same]

namespace FullWalk

variable {ch : Nat} {R : Modem → Modem → Prop} (walk : FullWalk ch R) (m : Modem)
include walk

theorem simCommand {cmd : Bytes} : (simCommand m ch).Answers (fun o => R m o.1) cmd := by
  have turn : ∀ {m' : Modem} {given on pin}, m' = { m with sim := m.sim.pinTurn given on pin } →
      R m m' := by
    rintro m' given on pin rfl
    exact walk.sim m _ (.inl (m.sim.pinTurn_lociPlmn given on pin))
  have stays : ∀ {m' : Modem}, m' = m → R m m' := fun same => same ▸ walk.refl m
  iterate 2 refine answers_cons (fun _ _ => walk.refl m) ?_
  refine answers_cons (fun arg _ => walk.scheduleIf ?_ _) (answers_cons (fun arg _ => ?_)
    (answers_cons (fun arg _ => ?_) answers_nil))
  · rcases simCpin_cases m ch (atFields arg 2) with
      same | ⟨-, s, set, rfl | ⟨-, -, -, puk⟩⟩
    · exact stays same
    · exact turn set
    · obtain rfl | rfl := puk <;> exact set ▸ walk.sim m _ (.inl (Sim.save_lociPlmn _))
  · exact (simClck_cases m ch (atFields arg 3)).elim (stays ·.2) (turn ·.2)
  · exact (simCpwd_cases m ch (atFields arg 3)).elim (stays ·.2) (turn ·.2)

theorem campUpdate : R m (campUpdate m) := by
  have noted := walk.reg m { m.reg with campNoted := true } (.inl rfl) rfl (.inl rfl)
  unfold Baseband.campUpdate
  dsimp only
  split
  · exact walk.reg m _ (.inl rfl) rfl (.inl rfl)
  · split
    · exact walk.reg m _ (.inl rfl) rfl (.inl rfl)
    · repeat' split
      · exact walk.trans noted (walk.sim { m with reg := { m.reg with campNoted := true } } _
          (.inr (Sim.save_lociPlmn _)))
      · exact noted
      · exact walk.refl m

theorem gpsCommand (cmd : Bytes) : R m { m with gps := gpsCommand m.gps m.nowMs ch cmd } := by
  apply walk.gps
  unfold Baseband.gpsCommand
  split
  · exact .inl ⟨rfl, rfl⟩
  · split
    · exact .inr fun session => absurd session (by simp [gpsReset])
    · split
      · refine .inr fun _ => ⟨rfl, ?_⟩
        dsimp only
        split
        · omega
        · decide
      · exact .inl ⟨rfl, rfl⟩

theorem gpsPoll (host : Host) : R m (gpsPoll host m).1 := by
  unfold Baseband.gpsPoll
  dsimp only
  split
  · exact walk.refl m
  · exact walk.gps m _ (.inl ⟨rfl, rfl⟩)

theorem plusCommand {host : Host} (mode : Mode) {cmd : Bytes}
    (manual : ∀ m p, manualPlmn host cmd = some p → R m { m with reg := { m.reg with plmn := p } })
    (chld : ∀ m arg, argAfter cmd (ascii "chld") = some arg → R m (chldCommand m ch
      (if arg.head? = some 61 then some (arg.drop 1) else none)).1) :
    R m (plusCommand host mode m ch cmd).1 := by
  refine walk.trans (walk.learn m cmd) ?_
  unfold Baseband.plusCommand
  dsimp only
  generalize learnChannel m ch cmd = m
  have all : (commandTable host mode m ch).Answers (fun o => R m o.1) cmd :=
    answers_append (answers_append (answers_append (answers_append (answers_append
      (walk.boardCommand m mode) (walk.simCommand m)) (walk.radioCommand m manual))
      (walk.serviceCommand m)) (walk.callCommand m (chld m))) (walk.dataCommand m mode)
  match known : dispatch (commandTable host mode m ch) cmd with
  | some o => exact dispatch_answers all known
  | none => exact walk.gpsCommand m cmd

/-- A relation that does not look at the calls holds of every line. -/
theorem atCommand (free : ∀ {m m'}, SameBoard m m' → R m m') {host : Host} (mode : Mode)
    {line : Bytes} (manual : ∀ cmd, commandOf line = 43 :: cmd → ∀ m p,
      manualPlmn host cmd = some p → R m { m with reg := { m.reg with plmn := p } }) :
    R m (atCommand host mode m ch line).1 := by
  refine walk.andThen ?_ walk.campUpdate
  unfold atCommandLine
  dsimp only
  split
  · exact walk.refl m
  split
  · exact walk.refl m
  · exact free (board_dialCommand m ch _)
  · next cmd isCmd =>
    exact walk.plusCommand m mode (manual cmd isCmd) fun m arg _ => free (board_chldCommand m ch _)
  · repeat' split
    · exact free (board_answerCommand m ch)
    · exact walk.andThen (walk.refl m) fun m => walk.releaseAll m _
    · exact walk.rest rfl rfl rfl
    · exact walk.refl m

/-- `ios_bb_changed` searches, schedules a burst and notes what it told. -/
theorem changed : R m (changed m).1 := by
  have reported : R m (if rssi m ≠ m.lastRssi ∨ batteryLevel m ≠ m.lastBatt then
      if m.isOpen m.xcievCh then emitXciev m
      else
        let m := { m with lastRssi := rssi m, lastBatt := batteryLevel m }
        (m, emitXsigstr m)
    else (m, [])).1 := by
    unfold emitXciev
    repeat' split
    all_goals exact walk.rest rfl rfl rfl
  have pushed : ∀ m : Modem, R m (if m.sim.present ≠ m.simLast ∧ m.isOpen m.xsimCh then
      { m with xsimDueMs := m.nowMs + 100 } else m) := by
    intro m
    split
    all_goals exact walk.rest rfl rfl rfl
  have noted : ∀ m : Modem, R m { m with simLast := m.sim.present } :=
    fun m => walk.rest rfl rfl rfl
  exact walk.trans (walk.trans (walk.scheduleIf (walk.trans reported (walk.campUpdate _)) _)
    (pushed _)) (noted _)

theorem control {m : Modem} {change : Control} {o : Out} (accepted : m.control change = some o) :
    R m o.1 := by
  have told : ∀ {m'}, R m m' → R m (Baseband.changed m').1 :=
    fun set => walk.trans set (walk.changed _)
  have operator : ∀ m, R m (operatorChanged m) := fun m => walk.scheduleIf (walk.refl m) _
  cases change with
  | carrier name =>
    obtain ⟨-, done⟩ := ite_none_right_eq_some.mp accepted
    obtain rfl := some.inj done
    exact walk.andThen (told (walk.rest rfl rfl rfl)) operator
  | mccMnc plmn =>
    obtain ⟨ok, done⟩ := ite_none_right_eq_some.mp accepted
    obtain rfl := some.inj done
    exact walk.andThen (told
      (walk.reg m _ (.inl rfl) rfl (.inr (by rw [plmnOk_take ok]; exact ok)))) operator
  | gpsFix on =>
    obtain rfl := some.inj accepted
    exact walk.gps m _ (.inl ⟨rfl, rfl⟩)
  | registered on =>
    obtain rfl := some.inj accepted
    exact told (walk.reg m _ (.inl rfl) rfl (.inl rfl))
  | simPresent | simFile =>
    obtain rfl := some.inj accepted
    exact told (walk.sim m _ (.inl rfl))
  | _ =>
    obtain rfl := some.inj accepted
    exact told (walk.rest rfl rfl rfl)

end FullWalk

/-! ## The clock, the channels, the SIM and registration -/

/-- The clock, and whether a channel of the multiplexer is open, are as they were, and the
default channel carries no packet data. -/
structure Keeps (m m' : Modem) : Prop where
  nowMs : m'.nowMs = m.nowMs
  isOpen : ∀ ch, 0 < ch → m'.isOpen ch = m.isOpen ch
  data0 : (m.chans 0).dataCid = 0 → (m'.chans 0).dataCid = 0

/-- The SIM is as it was too. -/
structure SimKept (m m' : Modem) : Prop extends Keeps m m' where
  sim : m'.sim = m.sim

/-- And registration. -/
structure Quiet (m m' : Modem) : Prop extends SimKept m m' where
  reg : m'.reg = m.reg

theorem Keeps.trans {m₁ m₂ m₃ : Modem} (first : Keeps m₁ m₂) (second : Keeps m₂ m₃) :
    Keeps m₁ m₃ where
  nowMs := second.nowMs.trans first.nowMs
  isOpen ch inside := (second.isOpen ch inside).trans (first.isOpen ch inside)
  data0 none := second.data0 (first.data0 none)

/-- A change of fields other than these. -/
theorem Keeps.of_fields {m m' : Modem} (nowMs : m'.nowMs = m.nowMs) (chans : m'.chans = m.chans) :
    Keeps m m' where
  nowMs := nowMs
  isOpen ch _ := by rw [Modem.isOpen, Modem.isOpen, chans]
  data0 none := by rw [chans]; exact none

theorem SimKept.trans {m₁ m₂ m₃ : Modem} (first : SimKept m₁ m₂) (second : SimKept m₂ m₃) :
    SimKept m₁ m₃ :=
  ⟨first.toKeeps.trans second.toKeeps, second.sim.trans first.sim⟩

theorem SimKept.of_fields {m m' : Modem} (nowMs : m'.nowMs = m.nowMs) (chans : m'.chans = m.chans)
    (sim : m'.sim = m.sim) : SimKept m m' :=
  ⟨Keeps.of_fields nowMs chans, sim⟩

namespace Quiet

theorem trans {m₁ m₂ m₃ : Modem} (first : Quiet m₁ m₂) (second : Quiet m₂ m₃) : Quiet m₁ m₃ :=
  ⟨first.toSimKept.trans second.toSimKept, second.reg.trans first.reg⟩

theorem of_fields {m m' : Modem} (nowMs : m'.nowMs = m.nowMs) (chans : m'.chans = m.chans)
    (sim : m'.sim = m.sim) (reg : m'.reg = m.reg) : Quiet m m' :=
  ⟨SimKept.of_fields nowMs chans sim, reg⟩

theorem of_board {m m' : Modem} (same : SameBoard m m') : Quiet m m' := by
  simp only [SameBoard, Modem.board, Prod.mk.injEq] at same
  exact .of_fields same.1 same.2.1 same.2.2.1 same.2.2.2.1

theorem refl : Quiet m m := of_board rfl

theorem setChan (c : AtChan) (isOpen : c.isOpen = (m.chans ch).isOpen)
    (data0 : ch = 0 → c.dataCid = (m.chans ch).dataCid ∨ c.dataCid = 0) :
    Quiet m (m.setChan ch c) where
  nowMs := rfl
  isOpen k _ := by
    by_cases same : k = ch
    · subst same
      rw [Modem.isOpen, setChan_chans, Function.update_self]
      exact isOpen
    · rw [Modem.isOpen, setChan_chans, Function.update_of_ne same]
      rfl
  data0 none := by
    by_cases same : ch = 0
    · subst same
      rw [setChan_chans, Function.update_self]
      rcases data0 rfl with kept | zero
      · rw [kept, none]
      · exact zero
    · rw [setChan_chans, Function.update_of_ne (Ne.symm same)]
      exact none
  sim := rfl
  reg := rfl

theorem walk : Walk ch Quiet where
  refl := refl
  trans := trans
  rest same _ _ := of_board same
  chan := setChan
  release _ _ := of_board rfl
  temperature _ _ := .of_fields rfl rfl rfl rfl
  zone _ _ := .of_fields rfl rfl rfl rfl

end Quiet

/-- The start of the multiplexer closes the default channel only. -/
theorem simKept_startMux :
    SimKept m (m.setChan 0 { m.chans 0 with isOpen := false }) where
  nowMs := rfl
  isOpen ch inside := by
    rw [Modem.isOpen, setChan_chans, Function.update_of_ne inside.ne']
    rfl
  data0 none := by rw [setChan_chans, Function.update_self]; exact none
  sim := rfl

theorem SimKept.walk : RadioWalk ch SimKept where
  refl m := (Quiet.refl m).toSimKept
  trans := SimKept.trans
  rest same _ _ := (Quiet.of_board same).toSimKept
  chan m i c isOpen data0 := (Quiet.setChan m i c isOpen data0).toSimKept
  release _ _ := .of_fields rfl rfl rfl
  temperature _ _ := .of_fields rfl rfl rfl
  zone _ _ := .of_fields rfl rfl rfl
  reg _ _ _ _ _ := .of_fields rfl rfl rfl
  startMux := simKept_startMux

theorem simKept_radioCommand {host : Host} {m : Modem} {ch : Nat} {cmd : Bytes} {o : Out}
    (done : dispatch (radioCommand host m ch) cmd = some o) : SimKept m o.1 :=
  dispatch_answers ((SimKept.walk ch).radioCommand m fun _ _ _ => .of_fields rfl rfl rfl) done

theorem simKept_learnChannel (cmd : Bytes) :
    SimKept m (learnChannel m ch cmd) := by
  unfold learnChannel
  repeat' split
  all_goals exact .of_fields rfl rfl rfl

theorem Keeps.walk : FullWalk ch Keeps where
  refl m := (Quiet.refl m).toKeeps
  trans := Keeps.trans
  rest same _ _ := (Quiet.of_board same).toKeeps
  chan m i c isOpen data0 := (Quiet.setChan m i c isOpen data0).toKeeps
  release _ _ := .of_fields rfl rfl
  temperature _ _ := .of_fields rfl rfl
  zone _ _ := .of_fields rfl rfl
  reg _ _ _ _ _ := .of_fields rfl rfl
  startMux m := (simKept_startMux m).toKeeps
  sim _ _ _ := .of_fields rfl rfl
  learn m cmd := (simKept_learnChannel m ch cmd).toKeeps
  gps _ _ _ := .of_fields rfl rfl

theorem keeps_atCommand (host : Host) (mode : Mode) (m : Modem) (ch : Nat) (line : Bytes) :
    Keeps m (atCommand host mode m ch line).1 :=
  (Keeps.walk ch).atCommand m (fun same => (Quiet.of_board same).toKeeps) mode
    fun _ _ _ _ _ => .of_fields rfl rfl

/-! ## Lines -/

/-- What a command behind the `+` does: one about the SIM, one about the radio, or nothing of
interest here. -/
theorem plusCommand_cases (host : Host) (mode : Mode) (m : Modem) (ch : Nat) (cmd : Bytes) :
    Quiet (learnChannel m ch cmd) (plusCommand host mode m ch cmd).1 ∨
      dispatch (simCommand (learnChannel m ch cmd) ch) cmd =
        some (plusCommand host mode m ch cmd) ∨
      dispatch (radioCommand host (learnChannel m ch cmd) ch) cmd =
        some (plusCommand host mode m ch cmd) := by
  unfold plusCommand
  dsimp only
  generalize learnChannel m ch cmd = m
  have walk := Quiet.walk ch
  have parts : dispatch (commandTable host mode m ch) cmd =
      (((dispatch (boardCommand mode m ch) cmd).or (dispatch (simCommand m ch) cmd)).or
        (dispatch (radioCommand host m ch) cmd)).or
        (dispatch (serviceCommand m ch ++ (callCommand m ch ++ dataCommand mode m ch)) cmd) := by
    simp only [dispatch, commandTable, List.findSome?_append, Option.or_assoc]
  have others : (serviceCommand m ch ++ (callCommand m ch ++ dataCommand mode m ch)).Answers
      (fun o => Quiet m o.1) cmd :=
    answers_append (walk.serviceCommand m) (answers_append
      (walk.callCommand m fun arg _ => .of_board (board_chldCommand m ch _))
      (walk.dataCommand m mode))
  rw [parts]
  cases board : dispatch (boardCommand mode m ch) cmd with
  | some o => exact .inl (dispatch_answers (walk.boardCommand m mode) board)
  | none =>
    cases sim : dispatch (simCommand m ch) cmd with
    | some o => exact .inr (.inl rfl)
    | none =>
      cases radio : dispatch (radioCommand host m ch) cmd with
      | some o => exact .inr (.inr rfl)
      | none =>
        left
        cases known : dispatch (serviceCommand m ch ++ (callCommand m ch ++ dataCommand mode m ch))
            cmd with
        | some o => exact dispatch_answers others known
        | none => exact .of_fields rfl rfl rfl rfl

/-- A line is a command behind a `+`, or nothing of interest here. -/
theorem atCommandLine_cases (host : Host) (mode : Mode) (m : Modem) (ch : Nat) (line : Bytes) :
    Quiet m (atCommandLine host mode m ch line).1 ∨
      ∃ cmd, commandOf line = 43 :: cmd ∧
        atCommandLine host mode m ch line = plusCommand host mode m ch cmd := by
  unfold atCommandLine
  dsimp only
  split
  · exact .inl (.refl m)
  split
  · exact .inl (.refl m)
  · exact .inl (.of_board (board_dialCommand m ch _))
  · next cmd isCmd => exact .inr ⟨cmd, isCmd, rfl⟩
  · left
    repeat' split
    · exact .of_board (board_answerCommand m ch)
    · exact (Quiet.walk ch).andThen (.refl m) fun m => (Quiet.walk ch).releaseAll m _
    · exact .of_fields rfl rfl rfl rfl
    · exact .refl m

end QemuIos.Baseband

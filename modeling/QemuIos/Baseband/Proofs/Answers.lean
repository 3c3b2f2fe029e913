import QemuIos.Baseband.Proofs.Engine

/-!
# What commands and ticks write

A line that starts with `at` makes the engine write something before it switches anything off,
whatever the command is. A line `+CREG: 1`, which tells the host that it is registered, can only be
the answer to `+CREG?`, a number of the board or the card, or part of a burst of reports.
-/

namespace QemuIos.Baseband
open CText

/-! ## Tests on what is written -/

def Act.isWrite : Act → Bool
  | .write _ _ => true
  | _ => false

/-- A line `+CREG: 1`. -/
def Act.announces : Act → Bool
  | .write _ text => (ascii "\r\n+CREG: 1").isPrefixOf text
  | _ => false

/-- Any other line. -/
def Act.plain (act : Act) : Bool := act.isWrite && !act.announces

/-- Every action passes a test. -/
def Only (p : Act → Bool) (o : Out) : Prop := o.2.all p = true

namespace Only

variable {p q : Act → Bool} {o : Out}

theorem mono (only : Only p o) (weaker : ∀ act, p act = true → q act = true) : Only q o :=
  List.all_eq_true.mpr fun act inside => weaker act (List.all_eq_true.mp only act inside)

theorem silent (only : Only Act.plain o) : Only (!·.announces) o :=
  only.mono fun _ plain => (Bool.and_eq_true_iff.mp plain).2

theorem andThen {f : Modem → Out} (first : Only p o) (second : ∀ m, Only p (f m)) :
    Only p (o.andThen f) := by
  unfold Only Out.andThen
  rw [List.all_append, first, second o.1]
  rfl

theorem ite {c : Prop} [Decidable c] {a b : Out} (yes : Only p a) (no : Only p b) :
    Only p (if c then a else b) := by
  split
  · exact yes
  · exact no

theorem forEach {f : Nat → Modem → Out} (each : ∀ i m, Only p (f i m)) (is : List Nat)
    (m : Modem) : Only p (forEach is f m) := by
  have onwards : ∀ o : Out, Only p o → Only p (is.foldl (fun o i => o.andThen (f i)) o) := by
    induction is with
    | nil => exact fun _ only => only
    | cons i is ih => exact fun o only => ih _ (only.andThen (each i))
  exact onwards (m, []) rfl

end Only

/-! ## Reports that follow an answer -/

theorem plain_emitXcallstat (m m' : Modem) (id : Int32) (stat : CallStat) :
    Only Act.plain (m', emitXcallstat m id stat) := by
  unfold Only emitXcallstat
  split <;> rfl

variable (m : Modem)

theorem plain_callProgress (i : Nat) (stat : CallStat) :
    Only Act.plain (callProgress i stat m) := by
  have told := plain_emitXcallstat m m (m.calls i).id stat
  unfold Only at told ⊢
  unfold callProgress
  dsimp only
  rw [List.all_append, told]
  split <;> rfl

theorem plain_callRelease (i : Nat) : Only Act.plain (callRelease i m) := by
  have told := plain_emitXcallstat m m (m.calls i).id .released
  unfold Only at told ⊢
  unfold callRelease
  dsimp only
  rw [List.all_append, told]
  split <;> rfl

theorem plain_releaseAll (p : Call → Bool) : Only Act.plain (releaseAll p m) := by
  refine Only.forEach (fun i m => ?_) _ m
  exact .ite (plain_callRelease m i) rfl

theorem plain_reportDetached : Only Act.plain (reportDetached m) := .ite rfl rfl

/-! ## Ticks -/

theorem plain_callTick (i : Nat) (m : Modem) : Only Act.plain (callTick i m) := by
  unfold callTick
  dsimp only
  repeat' split
  · rfl
  · exact Only.andThen rfl fun m => .ite (plain_callProgress m i .active) rfl
  · exact plain_emitXcallstat m _ _ _
  · exact plain_emitXcallstat m _ _ _
  · exact plain_emitXcallstat m _ _ _
  · exact plain_callProgress m i .active
  · rfl
  · rfl
  · rfl

theorem plain_tempTurn : Only Act.plain (tempTurn m) := by
  refine .ite ?_ rfl
  unfold Only
  dsimp only
  split <;> rfl

/-- Only the registration part of a tick may write something else. -/
theorem Only.modemTick {host : Host} {m : Modem} {p : Act → Bool}
    (weaker : ∀ act, act.plain = true → p act = true)
    (turn : Only p (regTurn host (campUpdate m))) : Only p (modemTick host m) := by
  refine ((turn.andThen fun m => ?_).andThen fun m => ?_).andThen (.forEach (fun i m => ?_) _)
  · exact (plain_tempTurn m).mono weaker
  · have plain : Only Act.plain (xsimTurn m) := .ite (.ite rfl rfl) rfl
    exact plain.mono weaker
  · exact (plain_callTick i m).mono weaker

theorem plain_changed : Only Act.plain (changed m) := by
  unfold Only changed emitXciev emitXsigstr
  dsimp only
  repeat' split
  all_goals rfl

theorem plain_control {change : Control} {o : Out} (accepted : m.control change = some o) :
    Only Act.plain o := by
  cases change with
  | carrier | mccMnc =>
    obtain ⟨-, told⟩ := Option.ite_none_right_eq_some.mp accepted
    cases told
    exact (plain_changed _).andThen fun _ => rfl
  | gpsFix => cases accepted; rfl
  | _ => cases accepted; exact plain_changed _

/-! ## Answers -/

/-- Something is written while the modem is on. -/
def spoken : List Act → Bool
  | [] => false
  | .write _ _ :: _ => true
  | .msc _ _ :: _ => true
  | .powerOff :: _ => false
  | .ipReset :: rest => spoken rest
  | .startH5 :: rest => spoken rest
  | .startMux :: rest => spoken rest

theorem spoken_append {acts : List Act} (first : spoken acts = true) (more : List Act) :
    spoken (acts ++ more) = true := by
  fun_induction spoken acts with
  | case1 => cases first
  | case2 | case3 => rfl
  | case4 => cases first
  | case5 rest ih | case6 rest ih | case7 rest ih => exact ih first

/-- The commands whose answer may be a line `+CREG: 1`. -/
def asks (cmd : Bytes) : Bool :=
  cmd ∈ [ascii "+creg?", ascii "+cgsn", ascii "+cimi", ascii "+ccid"]

/-- Something is written, and no line `+CREG: 1` unless it was asked for. -/
def Answered (asked : Bool) (o : Out) : Prop :=
  (spoken o.2 && (o.2.all (!·.announces) || asked)) = true

section

variable {asked : Bool} {o : Out}

theorem Answered.spoken (answered : Answered asked o) : spoken o.2 = true :=
  (Bool.and_eq_true_iff.mp answered).1

theorem Answered.silent (answered : Answered false o) : Only (!·.announces) o := by
  rw [Answered, Bool.or_false] at answered
  exact (Bool.and_eq_true_iff.mp answered).2

theorem Answered.andThen {f : Modem → Out} (first : Answered asked o)
    (second : ∀ m, Only (!·.announces) (f m)) : Answered asked (o.andThen f) := by
  unfold Answered Out.andThen at *
  rw [Bool.and_eq_true] at first ⊢
  rw [List.all_append, second, Bool.and_true]
  exact ⟨spoken_append first.1 _, first.2⟩

theorem Answered.ite {c : Prop} [Decidable c] {a b : Out} (yes : Answered asked a)
    (no : Answered asked b) : Answered asked (if c then a else b) := by
  split
  · exact yes
  · exact no

theorem answered_asked {text : String} {cmd arg : Bytes} (told : spoken o.2 = true)
    (isCmd : (Pat.whole text).arg? cmd = some arg) (among : asks (43 :: ascii text) = true) :
    Answered (asks (43 :: cmd)) o := by
  rw [Pat.arg?] at isCmd
  split at isCmd
  · next same => rw [Answered, same, among, told, Bool.or_true, Bool.and_true]
  · cases isCmd

/-- After a line that may be missing comes the result code. -/
theorem answered_result (c : Prop) [Decidable c] {ch ch' : Nat} {line : Bytes}
    (plain : (urc ch line).announces = false) :
    Answered asked (m, (if c then [urc ch line] else []) ++ [atOk ch']) := by
  unfold Answered
  split
  · rw [List.singleton_append, List.all_cons, plain]
    rfl
  · rfl

end

open Table

variable (ch : Nat) (cmd : Bytes)

theorem answered_boardCommand (mode : Mode) :
    (boardCommand mode m ch).Answers (Answered (asks (43 :: cmd))) cmd := by
  refine answers_cons (fun _ _ => ?_) ?_
  · unfold Answered emitXsigstr
    dsimp only
    split <;> rfl
  iterate 2 refine answers_cons (fun _ _ => rfl) ?_
  refine answers_cons (fun _ _ => ?_) ?_
  · unfold Answered crsmReply
    dsimp only
    repeat' split
    all_goals rfl
  refine answers_cons (fun _ _ => rfl) ?_
  refine answers_cons (fun _ _ => ?_) ?_
  · -- the switch comes before the `OK`, which is the first thing sent in H5
    unfold Answered
    dsimp only
    split <;> rfl
  refine answers_cons (fun _ _ => ?_) ?_
  · unfold Answered
    dsimp only
    split <;> rfl
  iterate 3 refine answers_cons (fun _ isCmd => answered_asked rfl isCmd rfl) ?_
  exact answers_nil

theorem answered_simCpin {asked : Bool} (f : List Bytes) : Answered asked (simCpin m ch f) := by
  unfold simCpin
  dsimp only
  repeat' split
  all_goals rfl

theorem answered_simClck {asked : Bool} (f : List Bytes) : Answered asked (simClck m ch f) := by
  apply Answered.ite (answered_result m _ rfl)
  repeat' split
  all_goals rfl

theorem answered_simCpwd {asked : Bool} (f : List Bytes) : Answered asked (simCpwd m ch f) := by
  unfold simCpwd
  repeat' split
  all_goals rfl

theorem answered_simCommand : (simCommand m ch).Answers (Answered (asks (43 :: cmd))) cmd := by
  refine answers_cons (fun _ _ => ?_) ?_
  · unfold Answered
    dsimp only
    repeat' split
    all_goals rfl
  refine answers_cons (fun _ _ => rfl) ?_
  refine answers_cons (fun arg _ => answered_simCpin m ch (atFields arg 2)) ?_
  refine answers_cons (fun arg _ => answered_simClck m ch _) ?_
  refine answers_cons (fun arg _ => answered_simCpwd m ch _) ?_
  exact answers_nil

theorem answered_cfunCommand {asked : Bool} (n : Int) : Answered asked (cfunCommand m ch n) := by
  refine Answered.andThen (o := (m, [atOk ch])) rfl fun m => .ite (.ite rfl ?_) rfl
  exact ((plain_releaseAll _ _).andThen plain_reportDetached).silent.andThen fun _ => rfl

theorem answered_copsCommand {asked : Bool} (host : Host) (arg : Bytes) :
    Answered asked (copsCommand host m ch arg) := by
  refine Answered.andThen (o := (m, [atOk ch])) rfl fun m => .ite rfl (.ite ?_ ?_)
  · exact (plain_reportDetached _).silent
  · exact .ite rfl (.ite rfl rfl)

theorem answered_radioCommand (host : Host) :
    (radioCommand host m ch).Answers (Answered (asks (43 :: cmd))) cmd := by
  iterate 2 refine answers_cons (fun _ _ => rfl) ?_
  refine answers_cons (fun arg _ => answered_cfunCommand m ch _) ?_
  refine answers_cons (fun _ _ => rfl) ?_
  refine answers_cons (fun _ isCmd => answered_asked rfl isCmd rfl) ?_
  iterate 4 refine answers_cons (fun _ _ => rfl) ?_
  refine answers_cons (fun arg _ => answered_copsCommand m ch host arg) ?_
  refine answers_cons (fun _ _ => ?_) ?_
  · unfold Answered copsReply
    dsimp only
    repeat' split
    all_goals rfl
  iterate 2 refine answers_cons (fun _ _ => rfl) ?_
  exact answers_nil

theorem answered_serviceCommand :
    (serviceCommand m ch).Answers (Answered (asks (43 :: cmd))) cmd := by
  iterate 4 refine answers_cons (fun _ _ => rfl) ?_
  refine answers_cons (fun arg _ => answered_result m _ rfl) ?_
  iterate 2 refine answers_cons (fun _ _ => rfl) ?_
  refine answers_cons (fun _ _ => ?_) ?_
  · unfold Answered cmgrCommand
    dsimp only
    split <;> rfl
  iterate 2 refine answers_cons (fun _ _ => rfl) ?_
  exact answers_nil

theorem answered_chldCommand {asked : Bool} (arg : Option Bytes) :
    Answered asked (chldCommand m ch arg) := by
  refine Answered.andThen (o := (m, [atOk ch])) rfl fun m => Only.silent ?_
  have progress := fun i stat m => plain_callProgress m i stat
  split
  · exact plain_releaseAll m _
  · refine .ite (plain_releaseAll m _) ?_
    split
    · exact plain_callRelease m _
    · rfl
  · split
    · refine Only.andThen (.forEach (fun i m => ?_) _ m) (progress _ _)
      exact .ite (progress i .held m) rfl
    · refine .forEach (fun i m => ?_) _ m
      exact .ite (progress i .held m) (.ite (progress i .active m) rfl)
  · refine .forEach (fun i m => ?_) _ m
    exact .ite (progress i .active m) rfl
  · rfl

theorem answered_callCommand : (callCommand m ch).Answers (Answered (asks (43 :: cmd))) cmd := by
  apply answers_append
  · intro entry inside arg _
    obtain ⟨text, -, rfl⟩ := List.mem_map.mp inside
    rfl
  refine answers_cons (fun _ _ => ?_) ?_
  · exact Answered.andThen (o := (m, [atOk ch])) rfl fun m => (plain_releaseAll m _).silent
  iterate 6 refine answers_cons (fun _ _ => rfl) ?_
  refine answers_cons (fun _ _ => answered_chldCommand m ch _) ?_
  refine answers_cons (fun _ _ => rfl) ?_
  exact answers_nil

theorem answered_dataCommand (mode : Mode) :
    (dataCommand mode m ch).Answers (Answered (asks (43 :: cmd))) cmd := by
  refine answers_cons (fun _ _ => rfl) ?_
  refine answers_cons (fun arg _ => Answered.ite ?_ (.ite rfl rfl)) ?_
  · apply Answered.andThen (o := ({ m with pdpActive := false }, [atOk ch])) rfl
    refine Only.forEach (fun i m => ?_) _
    refine .ite ?_ rfl
    unfold Only
    split <;> rfl
  iterate 2 refine answers_cons (fun _ _ => rfl) ?_
  refine answers_cons (fun arg _ => Answered.ite rfl ?_) ?_
  · unfold Answered
    dsimp only
    split <;> rfl
  exact answers_nil

theorem answered_plusCommand (host : Host) (mode : Mode) :
    Answered (asks (43 :: cmd)) (plusCommand host mode m ch cmd) := by
  unfold plusCommand
  dsimp only
  generalize learnChannel m ch cmd = m
  have all : (commandTable host mode m ch).Answers (Answered (asks (43 :: cmd))) cmd :=
    answers_append (answers_append (answers_append (answers_append (answers_append
      (answered_boardCommand m ch cmd mode) (answered_simCommand m ch cmd))
      (answered_radioCommand m ch cmd host)) (answered_serviceCommand m ch cmd))
      (answered_callCommand m ch cmd)) (answered_dataCommand m ch cmd mode)
  match known : dispatch (commandTable host mode m ch) cmd with
  | some o => exact dispatch_answers all known
  | none => rfl

theorem answered_dialCommand {asked : Bool} (num : Bytes) :
    Answered asked (dialCommand m ch num) := by
  unfold Answered dialCommand emitXcallstat
  dsimp only
  repeat' split
  all_goals rfl

theorem answered_answerCommand {asked : Bool} : Answered asked (answerCommand m ch) := by
  unfold answerCommand
  split
  · exact Answered.andThen (o := (m, [atOk ch])) rfl fun m => (plain_callProgress m _ _).silent
  · rfl

/-- Every command line is answered, and with a line `+CREG: 1` only if it asks for one. -/
theorem answered_atCommand (host : Host) (mode : Mode) (m : Modem) (ch : Nat) (line : Bytes) :
    Answered (asks (commandOf line)) (atCommand host mode m ch line) := by
  refine Answered.andThen ?_ fun _ => rfl
  unfold atCommandLine
  dsimp only
  split
  · unfold Answered radioNvramBlock
    dsimp only
    split <;> rfl
  · split
    · rfl
    · exact answered_dialCommand m ch _
    · next isPlus =>
      rw [isPlus]
      exact answered_plusCommand m ch _ host mode
    · apply Answered.ite (answered_answerCommand m ch)
      apply Answered.ite
      · exact Answered.andThen (o := (m, [atOk ch])) rfl fun m => (plain_releaseAll m _).silent
      · split
        · rfl
        · rfl

theorem silent_atCommand {host : Host} {mode : Mode} {m : Modem} {ch : Nat} {line : Bytes}
    (unasked : asks (commandOf line) = false) :
    Only (!·.announces) (atCommand host mode m ch line) := by
  have answered := answered_atCommand host mode m ch line
  rw [unasked] at answered
  exact answered.silent

theorem spoken_cmgsPromptCommit (send : Bool) : spoken (cmgsPromptCommit m ch send).2 = true := by
  unfold cmgsPromptCommit
  dsimp only
  split <;> rfl

end QemuIos.Baseband

import QemuIos.ItBoot.Proofs.Run
import QemuIos.ItBoot.Proofs.State

/-!
# Sequences of runs

A device boots again and again, and every run may be cut off by a power loss. What passes from
one run to the next is the disk; the state a run loads is the one the last run that saved left
behind (`final_state_saved`, `loads_saved`).
-/

namespace QemuIos.ItBoot
open CText List State

variable {st : State} {d : Disk}

/-! ## Invariants of the locals -/

/-- The host offers this. -/
def Offered (env : Env) (text : Bytes) (o : Offer) : Prop :=
  pullOffer env.host = .ok text ∧ parseOffer text = some o

/-- The parts of a run between the recovery and the activation keep a property. -/
structure Closed (env : Env) (P : Locals → Prop) : Prop where
  result : ∀ l code, P l → P { l with result := code }
  hostGood : ∀ text o l, Offered env text o → P l → P (hostGood o l)
  hostBad : ∀ text o l, Offered env text o → P l → P (hostBad o l)
  revert : ∀ l l', RevertOutcome env l l' → P l → P l'
  take : ∀ text o l l', Offered env text o → TakeOutcome env o text l l' → P l → P l'
  judgedGood : ∀ text o l, Offered env text o → P l → P (judgedGood o l)
  noVerdict : ∀ l l', NoVerdictOutcome env l l' → P l → P l'

/-- What every part keeps, the whole keeps. -/
theorem Closed.pullAndApply {env : Env} {P : Locals → Prop} (closed : Closed env P) {l : Locals}
    (start : P l) : P (pullAndApply env l) := by
  have outcome := pullAndApply_outcome env l
  generalize QemuIos.ItBoot.pullAndApply env l = l' at outcome ⊢
  cases outcome with
  | silent code _ => exact start
  | malformed text _ _ => exact closed.result _ _ start
  | offered text o pulled parsed =>
    have offered : Offered env text o := ⟨pulled, parsed⟩
    apply closed.noVerdict _ _ (noVerdict_outcome env _)
    apply closed.judgedGood text o _ offered
    apply closed.take text o _ _ offered (takeWanted_outcome env o text _)
    apply closed.revert _ _ (revertBad_outcome env _)
    apply closed.hostBad text o _ offered
    exact closed.hostGood text o _ offered start

/-! ## The states of a run are sound -/

/-- The state can be written and read back, and so can the current serial. -/
def Locals.Sound (l : Locals) : Prop := l.st.Sound ∧ IsLong l.cur

theorem bootState_sound (file : Option Bytes) {cur : Int} (long : IsLong cur) :
    (bootState file cur).Sound := by
  have sound := loadState_sound file
  unfold bootState
  split
  · rename_i st loaded
    rwa [loaded] at sound
  · rename_i st loaded
    rw [loaded] at sound
    exact { sound with seed := long }

variable (env : Env)

theorem recover_sound (b : Boot) : (recover env b).Sound := by
  have outcome := recover_outcome env b
  generalize recover env b = l at outcome ⊢
  cases outcome with
  | sound ok =>
    have long := (pkgOk_isSerial ok).isLong
    exact ⟨bootState_sound _ long, long⟩
  | recovered seed _ _ ok _ =>
    have long := (pkgOk_isSerial ok).isLong
    exact ⟨bootState_sound _ long, long⟩
  | unusable _ => exact ⟨bootState_sound _ isLong_minus_one, isLong_minus_one⟩

theorem addAll_sound (sound : st.Sound) {serials : List Int} (long : ∀ s ∈ serials, IsLong s) :
    { st with bad := st.bad.addAll serials }.Sound := by
  refine { sound with bad := ?_ }
  intro s member
  rcases Fifo.mem_of_mem_addAll member with old | new
  · exact sound.bad s old
  · exact long s new

theorem usable_isLong {cur s : Int} (usable : st.usable d cur s) : IsLong s :=
  (pkgOk_isSerial (usable_iff.mp usable).2.2.2).isLong

theorem isLong_small {n : Int} (low : 0 ≤ n) (high : n ≤ 2) : IsLong n := by
  unfold IsLong
  have room : (2 : Int) ≤ longMax := by decide
  omega

theorem wanted_isLong {o : Offer} (checked : o.Checked) (sound : st.Sound) :
    IsLong (wanted o st) := by
  unfold wanted
  split
  · exact sound.seed
  · exact checked.serial.isLong

theorem sound_closed : Closed env Locals.Sound where
  result _ _ sound := sound
  hostGood text o l offered sound := by
    unfold hostGood
    split
    · exact ⟨{ sound.1 with good := sound.2, tries := isLong_zero }, sound.2⟩
    · exact sound
  hostBad text o l offered sound := by
    have checked := parseOffer_checked offered.2
    rw [hostBad_eq]
    refine ⟨addAll_sound sound.1 ?_, sound.2⟩
    intro s member
    exact (checked.bad s (mem_filter.mp member).1).isLong
  revert l l' outcome sound := by
    cases outcome with
    | kept _ => exact sound
    | stuck _ _ _ => exact sound
    | reverted back _ _ _ usable _ =>
      exact ⟨{ sound.1 with tries := isLong_zero }, usable_isLong usable⟩
  take text o l l' offered outcome sound := by
    have long := wanted_isLong (parseOffer_checked offered.2) sound.1
    cases outcome with
    | idle _ => exact sound
    | refused _ => exact sound
    | wrongBuild _ _ _ _ => exact sound
    | failed b rc _ _ _ _ _ _ _ => exact sound
    | moved b fresh _ _ _ _ _ _ _ _ _ =>
      refine ⟨{ sound.1 with previous := ?_, tries := ?_ }, long⟩
      · dsimp only
        split
        · exact sound.2
        · exact sound.1.previous
      · dsimp only
        split
        · exact isLong_zero
        · exact isLong_small (by omega) (by omega)
  judgedGood text o l offered sound := by
    unfold judgedGood
    split
    · exact ⟨{ sound.1 with good := sound.2, tries := isLong_zero }, sound.2⟩
    · exact sound
  noVerdict l l' outcome sound := by
    cases outcome with
    | exempt _ => exact sound
    | counted _ fewer =>
      refine ⟨{ sound.1 with tries := ?_ }, sound.2⟩
      have old := sound.1.tries
      have limit : l.st.tries < 2 := fewer
      unfold IsLong at old ⊢
      have room : (2 : Int) ≤ longMax := by decide
      dsimp only
      omega
    | stuck _ _ => exact sound
    | reverted back _ _ _ usable _ =>
      exact ⟨{ addBad_sound sound.1 sound.2 with tries := isLong_zero },
        usable_isLong usable⟩

theorem rememberHook_sound {e : Entry} (checked : e.Checked) {hooks : List Hook}
    (sound : ∀ h ∈ hooks, h.Sound) (count : hooks.length ≤ maxHooks) :
    (∀ h ∈ rememberHook hooks e, h.Sound) ∧ (rememberHook hooks e).length ≤ maxHooks := by
  have bytes : ∀ c ∈ e.target, isLineByte c := by
    intro c member
    have token := checked.targetBytes c member
    simp only [isTokenByte, Bool.and_eq_true] at token
    exact Bool.and_eq_true _ _ ▸ token.1
  have flag : IsLong (if e.respring then 1 else 0) := by
    split
    · exact isLong_small (by omega) (by omega)
    · exact isLong_zero
  unfold rememberHook
  split
  · exact ⟨sound, count⟩
  rename_i isHook
  have new : Hook.Sound ⟨e.target, if e.respring then 1 else 0⟩ :=
    ⟨bytes, checked.target (not_not.mp isHook), flag⟩
  dsimp only
  split
  · rw [length_set]
    refine ⟨fun h member => ?_, count⟩
    rcases mem_or_eq_of_mem_set member with old | rfl
    · exact sound h old
    · exact new
  · split
    · rename_i room
      rw [forall_mem_append, forall_mem_singleton, length_append]
      exact ⟨⟨sound, new⟩, room⟩
    · exact ⟨sound, count⟩

theorem rememberHooks_sound {entries : List Entry} (checked : ∀ e ∈ entries, e.Checked)
    {hooks : List Hook} (sound : ∀ h ∈ hooks, h.Sound) (count : hooks.length ≤ maxHooks) :
    (∀ h ∈ entries.foldl rememberHook hooks, h.Sound) ∧
      (entries.foldl rememberHook hooks).length ≤ maxHooks := by
  induction entries generalizing hooks with
  | nil => exact ⟨sound, count⟩
  | cons e entries ih =>
    obtain ⟨sound', count'⟩ := rememberHook_sound (checked e mem_cons_self) sound count
    rw [foldl_cons]
    apply ih _ sound' count'
    exact fun e' member => checked e' (mem_cons_of_mem _ member)

theorem loadPkg_checked (s : Int) :
    ∀ e ∈ ((loadPkg d s).map (·.entries)).getD [], e.Checked := by
  cases loaded : loadPkg d s with
  | none => simp
  | some o =>
    obtain ⟨-, data, -, -, parsed, -⟩ := loadPkg_eq_some.mp loaded
    exact (parseOffer_checked parsed).entries

theorem applyHooks_state (serial : Int) (st : State) (b : Boot) :
    ∃ hooks, (applyHooks env serial st b).1 = { st with hooks } ∧
      (st.Sound → (applyHooks env serial st b).1.Sound) := by
  refine ⟨_, rfl, fun sound => ?_⟩
  obtain ⟨hooks, count⟩ := rememberHooks_sound (loadPkg_checked serial) sound.hooks
    sound.hookCount
  exact { sound with hooks := hooks, hookCount := count }

/-- The activation changes nothing of the state but the hooks. -/
theorem activate_state (start : Int) (l : Locals) :
    ∃ hooks, (activate env start l).st = { l.st with hooks } ∧
      (l.st.Sound → (activate env start l).st.Sound) := by
  unfold activate
  by_cases positive : 0 ≤ l.cur
  · simp only [if_pos positive]
    exact applyHooks_state env l.cur l.st l.boot
  · simp only [if_neg positive]
    exact ⟨l.st.hooks, rfl, id⟩

theorem runLocals_sound (b : Boot) : (runLocals env b).st.Sound := by
  have sound := (sound_closed env).pullAndApply (recover_sound env b)
  obtain ⟨_, -, keeps⟩ := activate_state env (recover env b).cur (pullAndApply env (recover env b))
  exact keeps sound.1

/-! ## From run to run -/

/-- A boot: what the run meets, and after how many filesystem steps the power is cut. -/
structure Run where
  env : Env
  power : Option Nat := none

variable (r : Run)

namespace Run

def start (d : Disk) : Boot := { disk := d, power := r.power }

/-- What a run works on once `recover` is through. -/
abbrev recovered (r : Run) (d : Disk) : Locals := recover r.env (r.start d)

def locals (d : Disk) : Locals := runLocals r.env (r.start d)

def moves (d : Disk) : List Move := runMoves r.env (r.start d)

/-- The disk a run leaves behind. -/
def final (d : Disk) : Disk := (itBootRun r.env (r.start d)).1.disk

/-- The run gets to write its state. -/
def Saves (d : Disk) : Prop :=
  r.env.readonly = false ∧ r.env.fails .saveState = false ∧ (r.locals d).boot.dead = false

instance (r : Run) (d : Disk) : Decidable (r.Saves d) :=
  inferInstanceAs (Decidable (_ ∧ _ ∧ _))

end Run

/-- The state a run saves is the one the offer left, with other hooks. -/
theorem Run.locals_state (d : Disk) :
    ∃ hooks, (r.locals d).st =
      { (pullAndApply r.env (r.recovered d)).st with hooks } := by
  obtain ⟨hooks, eq, -⟩ := activate_state r.env (r.recovered d).cur
    (pullAndApply r.env (r.recovered d))
  exact ⟨hooks, eq⟩

/-- The disk after a sequence of runs. -/
def Disk.after (d : Disk) : List Run → Disk
  | [] => d
  | r :: runs => (r.final d).after runs

/-- Every run of a sequence meets a condition on the disk it starts from. -/
def Disk.Along (C : Run → Disk → Prop) (d : Disk) : List Run → Prop
  | [] => True
  | r :: runs => C r d ∧ (r.final d).Along C runs

theorem Disk.along_append {C : Run → Disk → Prop} {first rest : List Run} :
    d.Along C (first ++ rest) ↔ d.Along C first ∧ (d.after first).Along C rest := by
  induction first generalizing d with
  | nil => simp [Disk.Along, Disk.after]
  | cons r first ih =>
    rw [cons_append, Disk.Along, Disk.Along, ih, Disk.after, and_assoc]

theorem Boot.write_alive {b : Boot} (alive : b.dead = false) (f : Disk → Disk) :
    (b.write f).disk = f b.disk := by
  simp [Boot.write, alive]

theorem readOnlyRun_disk (b : Boot) :
    ∃ b', b.KeepsPkgs b' ∧ (readOnlyRun env b).disk = b'.disk := by
  unfold readOnlyRun
  generalize (if pkgOk b.disk (currentSerial b.disk) then currentSerial b.disk else -1) = cur
  have kept : b.KeepsPkgs (if 0 ≤ cur then jobs cur (ascii "load") b else b) := by
    split
    · exact jobs_keeps ..
    · exact .refl b
  refine ⟨_, kept, ?_⟩
  dsimp only
  split
  · exact report_disk ..
  · rfl

/-- The state is written by a device that still runs, when the write works. -/
theorem saveState_state (sound : st.Sound) (b : Boot) :
    (saveState env st b).1.disk.state =
      if env.fails .saveState = false ∧ b.dead = false then some (stateText st)
      else b.disk.state := by
  have fits : ¬ 16384 ≤ (stateText st).length := not_le.mpr (length_stateText sound)
  unfold saveState
  cases works : env.fails .saveState with
  | true => simp
  | false =>
    cases alive : b.dead with
    | true => simp [fits, b.write_dead _ alive]
    | false => simp [fits, Boot.write_alive alive]

theorem Run.final_state (d : Disk) :
    (r.final d).state = if r.Saves d then some (stateText (r.locals d).st) else d.state := by
  unfold Run.final itBootRun
  by_cases readonly : r.env.readonly
  · obtain ⟨b, kept, eq⟩ := readOnlyRun_disk r.env (r.start d)
    have lost : ¬ r.Saves d := fun saves => by simp [saves.1] at readonly
    rw [if_pos readonly, if_neg lost, eq, kept.state]
    rfl
  · have writable : r.env.readonly = false := by simpa using readonly
    have later := (runLocals_later r.env (r.start d)).state
    rw [if_neg readonly, finish_disk, saveState_state r.env (runLocals_sound ..), later]
    by_cases saves : r.Saves d
    · rw [if_pos saves]
      exact if_pos saves.2
    · rw [if_neg saves]
      exact if_neg fun rest => saves ⟨writable, rest⟩

variable {r : Run}

theorem Run.final_state_saved (saves : r.Saves d) :
    (r.final d).state = some (stateText (r.locals d).st) := by
  rw [r.final_state, if_pos saves]

theorem Run.final_state_lost (lost : ¬ r.Saves d) : (r.final d).state = d.state := by
  rw [r.final_state, if_neg lost]

theorem recover_verdict (b : Boot) : (recover env b).verdict = false := by
  have outcome := recover_outcome env b
  generalize recover env b = l at outcome ⊢
  cases outcome <;> rfl

theorem Run.recovered_verdict (d : Disk) : (r.recovered d).verdict = false :=
  recover_verdict ..

theorem Run.recovered_outcome (d : Disk) :
    RecoverOutcome r.env (r.start d) (r.recovered d) :=
  recover_outcome ..

/-! ## The link follows the moves -/

/-- `current` is where the last move put it. -/
def Follows (start : Int) (l : Locals) : Prop :=
  currentSerial l.boot.disk = (l.moves.getLast?.map (·.serial)).getD start

theorem follows_flip {env : Env} {why : Flip} {s start : Int} {b : Boot} (moves : List Move)
    (works : env.fails (.flip why) = false) (serial : IsSerial s)
    (before : currentSerial b.disk = (moves.getLast?.map (·.serial)).getD start)
    (bad : Fifo Int maxSerials) (added : List Int) :
    currentSerial (flip env why s b).1.disk =
      ((moves ++ movesOf why s bad added b (flip env why s b).1).getLast?.map (·.serial)).getD
        start := by
  unfold movesOf
  cases alive : b.dead with
  | true =>
    have same : (flip env why s b).1 = b := by
      simp [flip, works, Boot.write_dead _ _ alive]
    rw [if_pos rfl, append_nil, same]
    exact before
  | false =>
    rw [if_neg Bool.false_ne_true, getLast?_concat]
    apply currentSerial_pkgs serial
    rw [flip_current works alive]

/-- A property of the boot, the current serial and the moves: only a flip changes the last two. -/
theorem closed_of_flips {env : Env} {Q : Boot → Int → List Move → Prop}
    (kept : ∀ {b b' cur moves}, b.Keeps b' → Q b cur moves → Q b' cur moves)
    (flips : ∀ {b cur moves why s} bad added, env.fails (.flip why) = false → IsSerial s →
      Q b cur moves →
        Q (flip env why s b).1 s (moves ++ movesOf why s bad added b (flip env why s b).1)) :
    Closed env fun l => Q l.boot l.cur l.moves where
  result _ _ holds := holds
  hostGood text o l offered holds := by
    unfold hostGood
    split <;> exact holds
  hostBad text o l offered holds := by
    rw [hostBad_eq]
    exact holds
  revert l l' outcome holds := by
    cases outcome with
    | kept _ => exact holds
    | stuck _ _ _ => exact holds
    | reverted back _ _ _ usable works =>
      exact flips _ _ works (pkgOk_isSerial (usable_iff.mp usable).2.2.2) holds
  take text o l l' offered outcome holds := by
    cases outcome with
    | idle _ => exact holds
    | refused _ => exact holds
    | wrongBuild _ _ _ _ => exact holds
    | failed b rc _ _ _ _ keeps _ _ => exact kept keeps holds
    | moved b fresh _ _ _ _ keeps isFresh _ installed works =>
      exact flips _ _ works (wanted_isSerial (parseOffer_checked offered.2) isFresh
        fun new => (installed new).1) (kept keeps holds)
  judgedGood text o l offered holds := by
    unfold judgedGood
    split <;> exact holds
  noVerdict l l' outcome holds := by
    cases outcome with
    | exempt _ => exact holds
    | counted _ _ => exact holds
    | stuck _ _ => exact holds
    | reverted back _ _ _ usable works =>
      exact flips _ _ works (pkgOk_isSerial (usable_iff.mp usable).2.2.2) holds

theorem follows_closed (start : Int) : Closed env (Follows start) :=
  closed_of_flips (Q := fun b _ moves => currentSerial b.disk =
    (moves.getLast?.map (·.serial)).getD start)
    (fun keeps follows => (currentSerial_congr keeps.current).trans follows)
    fun bad added works serial follows => follows_flip _ works serial follows bad added

theorem recover_follows (b : Boot) :
    Follows (currentSerial b.disk) (recover env b) := by
  have kept := currentSerial_congr (removeTorn_keeps env b).current
  have outcome := recover_outcome env b
  generalize recover env b = l at outcome ⊢
  cases outcome with
  | sound _ => exact kept
  | recovered seed _ _ ok works =>
    exact follows_flip [] works (pkgOk_isSerial ok) kept _ _
  | unusable _ => exact kept

theorem Run.moves_eq (d : Disk) :
    r.moves d = if r.env.readonly then [] else (r.locals d).moves := rfl

theorem Run.final_current (d : Disk) :
    currentSerial (r.final d) = ((r.moves d).getLast?.map (·.serial)).getD (currentSerial d) := by
  rw [r.moves_eq]
  unfold Run.final itBootRun
  by_cases readonly : r.env.readonly
  · obtain ⟨b, kept, eq⟩ := readOnlyRun_disk r.env (r.start d)
    rw [if_pos readonly, if_pos readonly, eq]
    exact currentSerial_congr kept.current
  · rw [if_neg readonly, if_neg readonly, currentSerial_congr (finish_current r.env _)]
    have follows := (follows_closed r.env _).pullAndApply (recover_follows r.env (r.start d))
    exact (currentSerial_congr (activate_keeps ..).current).trans follows

/-- What a run saved is what the next one loads, up to the hooks. -/
theorem Run.loads_saved (saves : r.Saves d) :
    ∃ hooks, loadState (r.final d).state = ({ (r.locals d).st with hooks }, true) := by
  rw [Run.final_state_saved saves]
  exact loadState_stateText (runLocals_sound ..)

end QemuIos.ItBoot

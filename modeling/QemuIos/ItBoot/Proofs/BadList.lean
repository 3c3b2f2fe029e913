import QemuIos.ItBoot.Proofs.Runs
import QemuIos.ItBoot.Proofs.Result

/-!
# The bad list over many runs

The list a run works with is the end of what the state file held and everything appended since
(`Logged`), and a flip looks at the list as it is at that moment. So a package that went on the
list is out of reach until sixteen others were appended behind it, and the seed never gets
there.
-/

namespace QemuIos.ItBoot
open CText List Fifo State

variable {l l' : Locals} {env : Env} {d : Disk}

/-- The locals against the state the run began with: what was appended to the bad list, and
where `current` moved. -/
structure Logged (base : State) (l : Locals) : Prop where
  seed : l.st.seed = base.seed
  bad : l.st.bad.items = (base.bad.items ++ l.added).rtake maxSerials
  notSeed : base.seed ∉ l.added
  recovery : ∀ m ∈ l.moves, m.why = .recover → m.serial = base.seed
  moves : ∀ m ∈ l.moves, m.why ≠ .recover →
    m.serial ∉ m.bad ∧ m.bad.items = (base.bad.items ++ m.added).rtake maxSerials

theorem rtake_self (q : Fifo Int maxSerials) : q.items.rtake maxSerials = q.items := by
  have zero : q.items.length - maxSerials = 0 := Nat.sub_eq_zero_of_le q.bound
  rw [rtake, zero, drop_zero]

theorem bootState_seed {file : Option Bytes} {cur : Int} (present : (loadState file).2) :
    bootState file cur = (loadState file).1 := by
  unfold bootState
  split
  · rename_i loaded
    rw [loaded]
  · rename_i loaded
    rw [loaded] at present
    cases present

theorem bootState_bad (file : Option Bytes) (cur : Int) :
    (bootState file cur).bad = (loadState file).1.bad := by
  unfold bootState
  split
  · rename_i loaded
    rw [loaded]
  · rename_i loaded
    rw [loaded]

/-- A recovered run goes on with the seed it recovered to. -/
theorem bootState_self {file : Option Bytes} {seed : Int}
    (isSeed : seed = (loadState file).1.seed) : (bootState file seed).seed = seed := by
  unfold bootState
  split
  · rename_i loaded
    rw [isSeed, loaded]
  · rfl

theorem recover_logged (env : Env) (b : Boot) : Logged (recover env b).st (recover env b) := by
  have outcome := recover_outcome env b
  generalize recover env b = l at outcome ⊢
  cases outcome with
  | sound _ => exact ⟨rfl, by simp [rtake_self], by simp, by simp, by simp⟩
  | recovered seed isSeed _ _ _ =>
    refine ⟨rfl, by simp [rtake_self], by simp, ?_, ?_⟩
    · intro m member _
      rw [(mem_movesOf member).2]
      exact (bootState_self isSeed).symm
    · intro m member other
      rw [(mem_movesOf member).2] at other
      exact absurd rfl other
  | unusable _ => exact ⟨rfl, by simp [rtake_self], by simp, by simp, by simp⟩

theorem Logged.congr {base : State} (logged : Logged base l) (seed : l'.st.seed = l.st.seed)
    (bad : l'.st.bad = l.st.bad) (added : l'.added = l.added) (moves : l'.moves = l.moves) :
    Logged base l' := by
  constructor
  · rw [seed]
    exact logged.seed
  · rw [bad, added]
    exact logged.bad
  · rw [added]
    exact logged.notSeed
  · rw [moves]
    exact logged.recovery
  · rw [moves]
    exact logged.moves

/-- A flip to a package that is not on the list keeps the log. -/
theorem Logged.move {base : State} (logged : Logged base l) {why : Flip} {s : Int}
    (other : why ≠ .recover) (free : s ∉ l.st.bad) (b b' : Boot) :
    (∀ m ∈ l.moves ++ movesOf why s l.st.bad l.added b b', m.why = .recover →
        m.serial = base.seed) ∧
      ∀ m ∈ l.moves ++ movesOf why s l.st.bad l.added b b', m.why ≠ .recover →
        m.serial ∉ m.bad ∧ m.bad.items = (base.bad.items ++ m.added).rtake maxSerials := by
  constructor
  · intro m member isRecovery
    rcases mem_append.mp member with old | new
    · exact logged.recovery m old isRecovery
    · rw [(mem_movesOf new).2] at isRecovery
      exact absurd isRecovery other
  · intro m member notRecovery
    rcases mem_append.mp member with old | new
    · exact logged.moves m old notRecovery
    · rw [(mem_movesOf new).2]
      exact ⟨free, logged.bad⟩

theorem logged_addAll {base q : Fifo Int maxSerials} {added : List Int}
    (log : q.items = (base.items ++ added).rtake maxSerials) (serials : List Int) :
    (q.addAll serials).items =
      (base.items ++ (added ++ q.appended serials)).rtake maxSerials := by
  rw [addAll_items, log, rtake_rtake_append, append_assoc]

theorem logged_add {base q : Fifo Int maxSerials} {added : List Int}
    (log : q.items = (base.items ++ added).rtake maxSerials) (s : Int) :
    (q.add s).items =
      (base.items ++ (if s ∈ q then added else added ++ [s])).rtake maxSerials := by
  have one := logged_addAll log [s]
  rw [addAll_cons, addAll_nil] at one
  rw [one]
  by_cases present : s ∈ q
  · simp [appended, present]
  · simp [appended, present]

theorem logged_closed (env : Env) (base : State) : Closed env (Logged base) where
  result l code logged := logged.congr rfl rfl rfl rfl
  hostGood text o l offered logged := by
    unfold hostGood
    split
    · exact logged.congr rfl rfl rfl rfl
    · exact logged
  hostBad text o l offered logged := by
    rw [hostBad_eq]
    refine ⟨logged.seed, logged_addAll logged.bad _, ?_, logged.recovery, logged.moves⟩
    intro member
    rcases mem_append.mp member with old | new
    · exact logged.notSeed old
    · have kept := (mem_filter.mp (mem_of_mem_appended new)).2
      simp [logged.seed] at kept
  revert l l' outcome logged := by
    cases outcome with
    | kept _ => exact logged
    | stuck _ _ _ => exact logged.congr rfl rfl rfl rfl
    | reverted back _ _ _ usable _ =>
      obtain ⟨recovery, moves⟩ := logged.move (show Flip.verdict ≠ .recover by decide)
        (usable_iff.mp usable).2.2.1 l.boot (flip env .verdict back l.boot).1
      exact ⟨logged.seed, logged.bad, logged.notSeed, recovery, moves⟩
  take text o l l' offered outcome logged := by
    cases outcome with
    | idle _ => exact logged
    | refused _ => exact logged.congr rfl rfl rfl rfl
    | wrongBuild _ _ _ _ => exact logged.congr rfl rfl rfl rfl
    | failed b rc _ _ _ _ _ _ _ => exact logged.congr rfl rfl rfl rfl
    | moved b fresh _ free _ _ _ _ _ _ _ =>
      obtain ⟨recovery, moves⟩ := logged.move (show Flip.switch ≠ .recover by decide) free b
        (flip env .switch (wanted o l.st) b).1
      exact ⟨logged.seed, logged.bad, logged.notSeed, recovery, moves⟩
  judgedGood text o l offered logged := by
    unfold judgedGood
    split
    · exact logged.congr rfl rfl rfl rfl
    · exact logged
  noVerdict l l' outcome logged := by
    cases outcome with
    | exempt _ => exact logged
    | counted _ _ => exact logged.congr rfl rfl rfl rfl
    | stuck _ _ => exact logged
    | reverted back isOpen _ _ usable _ =>
      obtain ⟨recovery, moves⟩ := logged.move (show Flip.tries ≠ .recover by decide)
        (usable_iff.mp usable).2.2.1 l.boot (flip env .tries back l.boot).1
      refine ⟨logged.seed, logged_add logged.bad l.cur, ?_, recovery, moves⟩
      have notSeed : l.cur ≠ base.seed := logged.seed ▸ isOpen.2.2.1
      dsimp only
      split
      · exact logged.notSeed
      rw [mem_append, mem_singleton]
      rintro (old | same)
      · exact logged.notSeed old
      · exact notSeed same.symm

/-! ## From run to run -/

theorem Run.logged (r : Run) (d : Disk) : Logged (r.recovered d).st (r.locals d) := by
  have logged := (logged_closed r.env _).pullAndApply (recover_logged r.env (r.start d))
  obtain ⟨hooks, eq⟩ := r.locals_state d
  refine logged.congr ?_ ?_ rfl rfl
  · rw [eq]
  · rw [eq]

theorem recover_bad (b : Boot) :
    (recover env b).st.bad = (loadState b.disk.state).1.bad := by
  have outcome := recover_outcome env b
  generalize recover env b = l at outcome ⊢
  cases outcome with
  | sound _ => exact bootState_bad ..
  | recovered seed _ _ _ _ => exact bootState_bad ..
  | unusable _ => exact bootState_bad ..

theorem recover_state {b : Boot} (present : (loadState b.disk.state).2) :
    (recover env b).st = (loadState b.disk.state).1 := by
  have outcome := recover_outcome env b
  generalize recover env b = l at outcome ⊢
  cases outcome with
  | sound _ => exact bootState_seed present
  | recovered seed _ _ _ _ => exact bootState_seed present
  | unusable _ => exact bootState_seed present

/-- What a run appended to the bad list, if it was saved. -/
def Run.badAdded (r : Run) (d : Disk) : List Int := if r.Saves d then (r.locals d).added else []

/-- Everything a sequence of runs appended to the saved bad list. -/
def Disk.badLog (d : Disk) : List Run → List Int
  | [] => []
  | r :: runs => r.badAdded d ++ (r.final d).badLog runs

/-- The seed is not on the saved bad list. -/
def Disk.SeedFree (d : Disk) : Prop :=
  (loadState d.state).1.seed ∉ (loadState d.state).1.bad

theorem Run.final_bad (r : Run) (d : Disk) :
    (loadState (r.final d).state).1.bad.items =
      ((loadState d.state).1.bad.items ++ r.badAdded d).rtake maxSerials := by
  unfold Run.badAdded
  by_cases saves : r.Saves d
  · obtain ⟨hooks, loaded⟩ := Run.loads_saved saves
    have start : (r.recovered d).st.bad = (loadState d.state).1.bad := recover_bad ..
    rw [if_pos saves, loaded, ← start]
    exact (r.logged d).bad
  · rw [if_neg saves, Run.final_state_lost saves, append_nil, rtake_self]

/-- The saved bad list is the end of everything appended. -/
theorem Disk.after_bad (runs : List Run) :
    (loadState (d.after runs).state).1.bad.items =
      ((loadState d.state).1.bad.items ++ d.badLog runs).rtake maxSerials := by
  induction runs generalizing d with
  | nil => simp [Disk.after, Disk.badLog, rtake_self]
  | cons r runs ih =>
    rw [Disk.after, ih, r.final_bad, rtake_rtake_append, Disk.badLog, append_assoc]

/-- Once there is a state file, its seed stays. -/
theorem Run.final_seed (r : Run) (present : (loadState d.state).2) :
    (loadState (r.final d).state).2 ∧
      (loadState (r.final d).state).1.seed = (loadState d.state).1.seed := by
  by_cases saves : r.Saves d
  · obtain ⟨hooks, loaded⟩ := Run.loads_saved saves
    have start : (r.recovered d).st = (loadState d.state).1 := recover_state present
    rw [loaded, ← start]
    exact ⟨rfl, (r.logged d).seed⟩
  · rw [Run.final_state_lost saves]
    exact ⟨present, rfl⟩

theorem Disk.after_seed (d : Disk) (runs : List Run) (present : (loadState d.state).2) :
    (loadState (d.after runs).state).2 ∧
      (loadState (d.after runs).state).1.seed = (loadState d.state).1.seed := by
  induction runs generalizing d with
  | nil => exact ⟨present, rfl⟩
  | cons r runs ih =>
    obtain ⟨present', seed⟩ := r.final_seed present
    rw [Disk.after, ← seed]
    exact ih (r.final d) present'

/-- Without a state file there is no bad list. -/
theorem recover_seedFree {b : Boot} (free : b.disk.SeedFree) :
    (recover env b).st.seed ∉ (recover env b).st.bad := by
  cases present : (loadState b.disk.state).2 with
  | true =>
    rw [recover_state present]
    exact free
  | false =>
    have none : b.disk.state = none := by
      cases file : b.disk.state with
      | none => rfl
      | some data =>
        rw [file] at present
        cases present
    rw [recover_bad, none]
    exact not_mem_empty _

theorem Run.final_seedFree (r : Run) (free : d.SeedFree) : (r.final d).SeedFree := by
  unfold Disk.SeedFree
  by_cases saves : r.Saves d
  · obtain ⟨hooks, loaded⟩ := Run.loads_saved saves
    have logged := r.logged d
    rw [loaded, logged.seed, mem_iff, logged.bad]
    intro member
    rcases mem_append.mp (mem_of_mem_rtake member) with old | new
    · exact recover_seedFree free old
    · exact logged.notSeed new
  · rw [Run.final_state_lost saves]
    exact free

theorem Disk.after_seedFree (free : d.SeedFree) (runs : List Run) : (d.after runs).SeedFree := by
  induction runs generalizing d with
  | nil => exact free
  | cons r runs ih => exact ih (r.final_seedFree free)

/-! ## Where a run that heard the host ends -/

theorem linked_closed (env : Env) : Closed env Locals.Linked :=
  closed_of_flips (Q := fun b cur _ => b.power = none ∧ (cur = -1 ∨ currentSerial b.disk = cur))
    (fun keeps linked => ⟨keeps.power linked.1, by
      rw [currentSerial_congr keeps.current]
      exact linked.2⟩)
    fun _ _ works serial linked => ⟨flip_power linked.1, .inr (flip_link linked.1 works serial)⟩

/-- The current package is not on the bad list, or there was no way off it. -/
def Settled (env : Env) (d : Disk) (l : Locals) : Prop :=
  0 ≤ l.cur ∧ (l.cur ∉ l.st.bad ∨
    l.verdict ∧ ((∀ s ∈ l.st.order, ¬ l.st.usable d l.cur s) ∨ env.fails (.flip .verdict)))

theorem RevertOutcome.settled (outcome : RevertOutcome env l l') (positive : 0 ≤ l.cur) :
    Settled env l.boot.disk l' := by
  cases outcome with
  | kept unlisted => exact ⟨positive, .inl fun listed => unlisted ⟨positive, listed⟩⟩
  | stuck _ _ noWay => exact ⟨positive, .inr ⟨rfl, noWay⟩⟩
  | reverted back _ _ _ usable _ =>
    obtain ⟨backPositive, -, free, -⟩ := usable_iff.mp usable
    exact ⟨backPositive, .inl free⟩

theorem TakeOutcome.settled {o : Offer} {text : Bytes} (outcome : TakeOutcome env o text l l')
    (settled : Settled env d l) : Settled env d l' := by
  cases outcome with
  | idle _ => exact settled
  | refused _ => exact settled
  | wrongBuild _ _ _ _ => exact settled
  | failed b rc _ _ _ _ _ _ _ => exact settled
  | moved b fresh _ free positive _ _ _ _ _ _ => exact ⟨positive, .inl free⟩

theorem judgedGood_settled (o : Offer) (settled : Settled env d l) :
    Settled env d (judgedGood o l) := by
  unfold judgedGood
  split
  · refine ⟨settled.1, settled.2.imp_right fun ⟨judged, noWay⟩ => ⟨judged, ?_⟩⟩
    refine noWay.imp_left fun none s member usable => ?_
    -- the package judged good is the current one, which no revert goes to
    have other : s ≠ l.cur := (usable_iff.mp usable).2.1
    simp only [order, mem_cons, not_mem_nil, or_false] at member
    rcases member with rfl | rfl | rfl
    · exact none _ (by simp [order]) usable
    · exact other rfl
    · exact none _ (by simp [order]) usable
  · exact settled

theorem NoVerdictOutcome.settled (outcome : NoVerdictOutcome env l l') (settled : Settled env d l) :
    Settled env d l' := by
  have free : unjudged l → l.cur ∉ l.st.bad := by
    intro isOpen
    rcases settled.2 with free | ⟨judged, -⟩
    · exact free
    · have := isOpen.1
      simp [judged] at this
  cases outcome with
  | exempt _ => exact settled
  | counted isOpen _ => exact ⟨settled.1, .inl (free isOpen)⟩
  | stuck _ _ => exact settled
  | reverted back _ _ _ usable _ =>
    obtain ⟨positive, other, free, -⟩ := usable_iff.mp usable
    refine ⟨positive, .inl fun listed => ?_⟩
    rcases mem_of_mem_add listed with old | same
    · exact free old
    · exact other same

theorem applyOffer_settled (env : Env) (o : Offer) (text : Bytes) (positive : 0 ≤ l.cur) :
    Settled env l.boot.disk (applyOffer env o text l) := by
  apply (noVerdict_outcome env _).settled
  apply judgedGood_settled
  apply (takeWanted_outcome env o text _).settled
  rw [← hostBad_boot o l]
  apply (revertBad_outcome env _).settled
  rw [hostBad_eq]
  unfold hostGood
  split <;> exact positive

/-- A run that heard a well-formed offer with a usable package ends on a bad one only when there
was no way off it. -/
theorem Run.ends_on_bad {r : Run} {text : Bytes} {o : Offer} (on : r.power = none)
    (writable : r.env.readonly = false) (offered : Offered r.env text o)
    (positive : 0 ≤ (r.recovered d).cur)
    (listed : currentSerial (r.final d) ∈ (r.locals d).st.bad) :
    (∀ s ∈ (r.locals d).st.order, ¬ (s ≠ currentSerial (r.final d) ∧ s ∉ (r.locals d).st.bad ∧
      pkgOk (r.recovered d).boot.disk s)) ∨ r.env.fails (.flip .verdict) := by
  have applied : pullAndApply r.env (r.recovered d) =
      applyOffer r.env o text (r.recovered d) := by
    simp [pullAndApply, offered.1, offered.2]
  have settled := applyOffer_settled r.env o text positive
  have linked := (linked_closed r.env).pullAndApply (recover_linked r.env (b := r.start d) on)
  rw [applied] at linked
  obtain ⟨hooks, eq⟩ := r.locals_state d
  obtain ⟨-, link⟩ := itBootRun_end (b := r.start d) writable
  have current : currentSerial (r.final d) =
      (applyOffer r.env o text (r.recovered d)).cur := by
    rcases linked.2 with none | same
    · have := settled.1
      omega
    · rw [Run.final, link, applied, same]
  rw [applied] at eq
  rw [current, eq] at listed ⊢
  rcases settled.2 with free | ⟨-, noWay⟩
  · exact absurd listed free
  · refine noWay.imp_left fun none s member usable => none s member ?_
    exact usable_iff.mpr ⟨(pkgOk_isSerial usable.2.2).1, usable⟩

/-- A package that a saved run appended to the bad list is not gone to again before sixteen
others were appended behind it. -/
theorem Run.moves_to_evicted {r : Run} {later : List Run} {last : Run} {older newer : List Int}
    {m : Move} (saves : r.Saves d) (added : (r.locals d).added = older ++ m.serial :: newer)
    (moved : m ∈ last.moves ((r.final d).after later)) :
    maxSerials ≤ (newer ++ (r.final d).badLog later ++ m.added).length := by
  have first := r.logged d
  have logged := last.logged ((r.final d).after later)
  obtain ⟨hooks, loaded⟩ := Run.loads_saved saves
  have present : (loadState (r.final d).state).2 := by rw [loaded]
  obtain ⟨present', sameSeed⟩ := (r.final d).after_seed later present
  have start : (recover last.env (last.start ((r.final d).after later))).st =
      (loadState ((r.final d).after later).state).1 := recover_state present'
  rw [start] at logged
  have moved : m ∈ (last.locals ((r.final d).after later)).moves := by
    unfold Run.moves runMoves at moved
    split at moved
    · cases moved
    · exact moved
  by_cases recovery : m.why = .recover
  · -- the recovery goes to the seed, which is never appended
    have isSeed : m.serial = (r.recovered d).st.seed := by
      rw [logged.recovery m moved recovery, sameSeed, loaded, ← first.seed]
    apply absurd first.notSeed
    rw [not_not, added, ← isSeed]
    simp
  · obtain ⟨free, bad⟩ := logged.moves m moved recovery
    by_contra few
    apply free
    rw [mem_iff, bad, Disk.after_bad, rtake_rtake_append, loaded]
    dsimp only
    rw [first.bad, append_assoc, rtake_rtake_append, added, append_assoc,
      append_assoc, cons_append, ← append_assoc]
    apply mem_rtake_of_recent
    rw [← append_assoc]
    omega

/-- What the bad list guarantees over any sequence of runs, cut off or not. The seed is never
saved as bad. A flip goes to a package that is not on the list, the recovery apart, which goes
to the seed. A run that heard a well-formed offer while its package was usable ends on a bad
package only when there was no way off it. And a package a saved run put on the list is not
gone to before sixteen others were appended behind it. -/
theorem bad_list_over_runs (d : Disk) (free : d.SeedFree) (runs : List Run) :
    let e := d.after runs
    e.SeedFree ∧
    (∀ r : Run, ∀ m ∈ r.moves e, m.serial ∉ m.bad ∨
      (m.why = .recover ∧ m.serial = (recover r.env (r.start e)).st.seed)) ∧
    (∀ (r : Run) (text : Bytes) (o : Offer), r.power = none → r.env.readonly = false →
      Offered r.env text o → 0 ≤ (recover r.env (r.start e)).cur →
      currentSerial (r.final e) ∈ (r.locals e).st.bad →
      (∀ s ∈ (r.locals e).st.order, ¬ (s ≠ currentSerial (r.final e) ∧ s ∉ (r.locals e).st.bad ∧
        pkgOk (recover r.env (r.start e)).boot.disk s)) ∨ r.env.fails (.flip .verdict)) ∧
    (∀ (r : Run) (later : List Run) (last : Run) (older newer : List Int) (s : Int),
      r.Saves e → (r.locals e).added = older ++ s :: newer →
      ∀ m ∈ last.moves ((r.final e).after later), m.serial = s →
        maxSerials ≤ (newer ++ (r.final e).badLog later ++ m.added).length) := by
  intro e
  refine ⟨Disk.after_seedFree free runs, ?_, ?_, ?_⟩
  · intro r m moved
    unfold Run.moves runMoves at moved
    split at moved
    · cases moved
    · by_cases recovery : m.why = .recover
      · exact .inr ⟨recovery, (r.logged e).recovery m moved recovery⟩
      · exact .inl ((r.logged e).moves m moved recovery).1
  · intro r text o on writable offered positive listed
    exact Run.ends_on_bad on writable offered positive listed
  · intro r later last older newer s saves added m moved same
    subst same
    exact Run.moves_to_evicted saves added moved

def twoPackages : Disk := bareDisk (ascii "seed 10\n") (ascii "pkgs/10") [5, 10]

/-- The host judges 5 bad, and in the next boot sixteen other packages, and offers 5. -/
def fiveBad : Run := ⟨offerEnv (ascii "ltpkg 1\nserial 10\nverdict bad 5\n") [], none⟩

def sixteenBad : Run :=
  ⟨offerEnv (ascii "ltpkg 1\nserial 5\n" ++
    (List.range 16).flatMap fun i => ascii "verdict bad " ++ natDecimal (20 + i) ++ [10]) [], none⟩

/-- The device goes back to 5, with as many appended before. -/
theorem twoPackages_over_runs :
    (twoPackages.after [fiveBad]).SeedFree ∧
      ∃ m ∈ sixteenBad.moves (fiveBad.final twoPackages), m.serial = 5 ∧
        maxSerials ≤ m.added.length := by
  have free : twoPackages.SeedFree := by
    unfold Disk.SeedFree
    decide +kernel
  have back : (sixteenBad.moves (fiveBad.final twoPackages)).any (·.serial = 5) = true := by
    decide +kernel
  obtain ⟨m, moved, same⟩ := any_eq_true.mp back
  replace same : m.serial = 5 := by simpa using same
  obtain ⟨-, -, -, evicted⟩ := bad_list_over_runs twoPackages free []
  have many := evicted fiveBad [] sixteenBad [] [] 5 (by decide +kernel) (by decide +kernel) m moved
    same
  exact ⟨(bad_list_over_runs twoPackages free [fiveBad]).1, m, moved, same, many⟩

/-- A device whose bad list holds its current package. -/
def listedDisk : Disk := bareDisk (ascii "seed 10\nbad 12\n") (ascii "pkgs/12") [10, 12]

/-- A boot without an offer. -/
def silentRun : Run := ⟨offerEnv [] [], none⟩

/-- A run without an offer leaves `current` on the bad list although the seed is there to go
to, and a package judged bad is gone to again once sixteen others were. -/
theorem bad_list_loses :
    (listedDisk.SeedFree ∧
      currentSerial (silentRun.final listedDisk) = 12 ∧ 12 ∈ (silentRun.locals listedDisk).st.bad ∧
      10 ∈ (silentRun.locals listedDisk).st.order ∧ 10 ∉ (silentRun.locals listedDisk).st.bad ∧
      pkgOk (recover silentRun.env (silentRun.start listedDisk)).boot.disk 10 ∧
      silentRun.env.fails (.flip .verdict) = false) ∧
    twoPackages.SeedFree ∧ (fiveBad.locals twoPackages).added = [5] ∧ fiveBad.Saves twoPackages ∧
      currentSerial (fiveBad.final twoPackages) = 10 ∧
      currentSerial (sixteenBad.final (fiveBad.final twoPackages)) = 5 := by
  unfold Disk.SeedFree
  decide +kernel

end QemuIos.ItBoot

import QemuIos.ItBoot.Proofs.Run

/-!
# What a negative result says about `current`

The header of `it_boot.c` has a negative report mean that an install failed and `current` is
unchanged. The runs where it does not are those that leave a bad package and try the offered
one with opposite success (`mixed`): the code of the second part overwrites the first, or the
first is kept although the second moved `current`.
-/

namespace QemuIos.ItBoot
open CText FileTree

variable {b : Boot} {env : Env} {why : Flip} {s : Int} {o : Offer} {l l' : Locals}

/-- The locals when `revert_target` is asked. -/
def judged (env : Env) (o : Offer) (b : Boot) : Locals := hostBad o (hostGood o (recover env b))

/-- The revert from a bad package finds a target and its flip works. -/
def revertWorks (env : Env) (l : Locals) : Prop :=
  0 ≤ revertTarget l.st l.boot.disk l.cur ∧ env.fails (.flip .verdict) = false

/-- The offered package is another than the current one and not refused. -/
def tried (o : Offer) (l : Locals) : Prop :=
  0 ≤ wanted o l.st ∧ wanted o l.st ≠ l.cur ∧ wanted o l.st ∉ l.st.bad

/-- The offered package is for this build, gets on disk and is flipped to. -/
def offerWorks (env : Env) (o : Offer) (text : Bytes) (l : Locals) : Prop :=
  ¬ wrongBuild env o ∧ moveWorks env o text l

/-- The current package is bad, the offered one is not refused, and of leaving the one and
taking the other exactly one works. -/
def mixed (env : Env) (o : Offer) (text : Bytes) (l : Locals) : Prop :=
  0 ≤ l.cur ∧ l.cur ∈ l.st.bad ∧ 0 ≤ wanted o l.st ∧ wanted o l.st ∉ l.st.bad ∧
    ((revertWorks env l ∧ wanted o l.st ≠ revertTarget l.st l.boot.disk l.cur ∧
        ¬ offerWorks env o text l) ∨
      (¬ revertWorks env l ∧ offerWorks env o text l))

/-- `current` names the package the run takes for current, if that is one. -/
def Locals.Linked (l : Locals) : Prop :=
  l.boot.power = none ∧ (l.cur = -1 ∨ currentSerial l.boot.disk = l.cur)

theorem Boot.dead_of_power (on : b.power = none) : b.dead = false := by
  simp [Boot.dead, on]

theorem flip_link (on : b.power = none) (works : env.fails (.flip why) = false)
    (serial : IsSerial s) : currentSerial (flip env why s b).1.disk = s := by
  apply currentSerial_pkgs serial
  rw [flip_current works (Boot.dead_of_power on)]

theorem recover_linked (env : Env) (on : b.power = none) : (recover env b).Linked := by
  have kept := removeTorn_keeps env b
  have outcome := recover_outcome env b
  generalize recover env b = l at outcome ⊢
  cases outcome with
  | sound ok => exact ⟨kept.power on, .inr (currentSerial_congr kept.current)⟩
  | recovered seed isSeed unusable ok works =>
    exact ⟨flip_power (kept.power on), .inr (flip_link (kept.power on) works (pkgOk_isSerial ok))⟩
  | unusable _ => exact ⟨kept.power on, .inl rfl⟩

theorem judged_eq :
    (judged env o b).boot = (recover env b).boot ∧ (judged env o b).cur = (recover env b).cur ∧
      (judged env o b).result = rUnchanged := by
  have result : (recover env b).result = rUnchanged := by
    have outcome := recover_outcome env b
    generalize recover env b = l at outcome ⊢
    cases outcome <;> rfl
  unfold judged
  rw [hostBad_eq]
  unfold hostGood
  split <;> exact ⟨rfl, rfl, result⟩

theorem takeWanted_result {text : Bytes} (outcome : TakeOutcome env o text l l')
    (on : l.boot.power = none) (checked : o.Checked) :
    (¬ tried o l ∧ l'.boot = l.boot ∧ l'.verdict = l.verdict ∧
        (0 ≤ l.result → 0 ≤ l'.result) ∧ (l.result < 0 → l'.result = l.result)) ∨
      (tried o l ∧ ¬ offerWorks env o text l ∧ l'.result < 0 ∧ l'.verdict = l.verdict ∧
        currentSerial l'.boot.disk = currentSerial l.boot.disk) ∨
      (tried o l ∧ offerWorks env o text l ∧ l'.verdict = true ∧
        (0 ≤ l.result → 0 ≤ l'.result) ∧
        (l.result < 0 → l'.result = l.result) ∧ currentSerial l'.boot.disk = wanted o l.st) := by
  cases outcome with
  | idle nothing =>
    refine .inl ⟨?_, rfl, rfl, id, fun _ => rfl⟩
    rintro ⟨positive, other, -⟩
    rcases nothing with negative | same
    · omega
    · exact other same
  | refused isBad =>
    refine .inl ⟨fun ⟨_, _, notBad⟩ => notBad isBad, rfl, rfl, ?_, ?_⟩
    · intro positive
      dsimp only
      split
      · decide
      · exact positive
    · intro negative
      exact if_neg (by unfold rUnchanged; omega)
  | wrongBuild other notBad positive wrong =>
    exact .inr (.inl ⟨⟨positive, other, notBad⟩, fun ⟨right, _⟩ => right wrong,
      show enoexec < 0 by decide, rfl, rfl⟩)
  | failed b rc other notBad positive fails kept code _ =>
    exact .inr (.inl ⟨⟨positive, other, notBad⟩, fun ⟨_, works⟩ => fails works, code, rfl,
      currentSerial_congr kept.current⟩)
  | moved b fresh other notBad positive right kept isFresh present installed works =>
    have serial := wanted_isSerial checked isFresh fun isNew => (installed isNew).1
    have available : moveWorks env o text l := by
      refine ⟨?_, works⟩
      cases ok : pkgOk l.boot.disk (wanted o l.st) with
      | true => exact .inl rfl
      | false =>
        obtain ⟨notSafe, done⟩ := installed (by rw [isFresh, ok]; rfl)
        exact .inr ⟨notSafe, by rw [done]⟩
    refine .inr (.inr ⟨⟨positive, other, notBad⟩, ⟨right, available⟩, rfl, ?_, ?_,
      flip_link (kept.power on) works serial⟩)
    · intro positive
      dsimp only
      split
      · split <;> decide
      · exact positive
    · intro negative
      exact if_neg (by unfold rUnchanged; omega)

/-- The no-verdict limit changes the result and `current` together. -/
theorem noVerdict_result (outcome : NoVerdictOutcome env l l') :
    (l'.boot = l.boot ∧ l'.result = l.result) ∨
      (l.verdict = false ∧ l'.result = rRevertedTries) := by
  cases outcome with
  | exempt _ => exact .inl ⟨rfl, rfl⟩
  | counted _ _ => exact .inl ⟨rfl, rfl⟩
  | stuck _ _ => exact .inl ⟨rfl, rfl⟩
  | reverted back isOpen _ _ _ _ => exact .inr ⟨by simpa using isOpen.1, rfl⟩

theorem judgedGood_eq (o : Offer) (l : Locals) :
    (judgedGood o l).boot = l.boot ∧ (judgedGood o l).result = l.result ∧
      (judgedGood o l).verdict = l.verdict ∧ (judgedGood o l).cur = l.cur := by
  unfold judgedGood
  split <;> exact ⟨rfl, rfl, rfl, rfl⟩

/-- A negative result means that `current` did not move. -/
def Honest (l l' : Locals) : Prop :=
  l'.result < 0 → currentSerial l'.boot.disk = currentSerial l.boot.disk

/-- What follows the offered package does not make a run dishonest. -/
theorem Honest.tail {l₀ : Locals} (honest : Honest l₀ l) :
    Honest l₀ (noVerdict env (judgedGood o l)) := by
  obtain ⟨boot, result, -, -⟩ := judgedGood_eq o l
  rcases noVerdict_result (noVerdict_outcome env (judgedGood o l)) with ⟨sameBoot, sameResult⟩ |
    ⟨-, reverted⟩
  · rwa [Honest, sameBoot, sameResult, boot, result]
  · intro negative
    rw [reverted] at negative
    exact absurd negative (by decide)

/-- After a verdict nothing follows. -/
theorem honest_tail_iff {l₀ : Locals} (verdict : l.verdict = true) :
    Honest l₀ (noVerdict env (judgedGood o l)) ↔ Honest l₀ l := by
  obtain ⟨boot, result, sameVerdict, -⟩ := judgedGood_eq o l
  rcases noVerdict_result (noVerdict_outcome env (judgedGood o l)) with ⟨sameBoot, sameResult⟩ |
    ⟨noVerdict, -⟩
  · simp only [Honest, sameBoot, sameResult, boot, result]
  · rw [sameVerdict, verdict] at noVerdict
    cases noVerdict

/-- A flip moves `current` and nothing else. -/
theorem flip_eq_pointed (on : b.power = none) (works : env.fails (.flip why) = false) :
    (flip env why s b).1 = b.pointed (some (ascii "pkgs/" ++ decimal s)) := by
  simp [flip, works, b.write_power _ on, Boot.pointed]

/-- Whether the offered package can be had does not depend on what is current. -/
theorem offerWorks_flip {text : Bytes} (on : l.boot.power = none)
    (works : env.fails (.flip why) = false) (boot : l'.boot = (flip env why s l.boot).1)
    (seed : l'.st.seed = l.st.seed) : offerWorks env o text l' ↔ offerWorks env o text l := by
  have want : wanted o l'.st = wanted o l.st := by rw [wanted, seed, wanted]
  have ok : pkgOk (l.boot.pointed (some (ascii "pkgs/" ++ decimal s))).disk (wanted o l.st) =
      pkgOk l.boot.disk (wanted o l.st) := pkgOk_congr rfl rfl _
  rw [offerWorks, moveWorks, want, boot, flip_eq_pointed on works, install_pointed, ok,
    offerWorks, moveWorks]

theorem not_revertWorks
    (stuck : (∀ s ∈ l.st.order, ¬ l.st.usable l.boot.disk l.cur s) ∨ env.fails (.flip .verdict)) :
    ¬ revertWorks env l := by
  rintro ⟨found, works⟩
  rcases stuck with unusable | fault
  · rcases revertTarget_cases l.st l.boot.disk l.cur with ⟨inOrder, usable⟩ | ⟨none, -⟩
    · exact unusable _ inOrder usable
    · omega
  · rw [works] at fault
    cases fault

/-- Applying an offer is honest unless the two parts that move `current` disagree. -/
theorem applyOffer_honest_iff (env : Env) (text : Bytes) (on : b.power = none)
    (checked : o.Checked) :
    Honest (recover env b) (applyOffer env o text (recover env b)) ↔
      ¬ mixed env o text (judged env o b) := by
  obtain ⟨running, linked⟩ := recover_linked env on
  obtain ⟨boot, cur, result⟩ := judged_eq
  have link : 0 ≤ (judged env o b).cur →
      currentSerial (recover env b).boot.disk = (judged env o b).cur := by
    intro positive
    rw [cur] at positive ⊢
    rcases linked with none | same
    · omega
    · exact same
  unfold applyOffer hostVerdicts
  rw [show hostBad o (hostGood o (recover env b)) = judged env o b from rfl]
  generalize judged env o b = l₁ at *
  have outcome := revertBad_outcome env l₁
  generalize revertBad env l₁ = l₂ at outcome ⊢
  have take := takeWanted_outcome env o text l₂
  generalize takeWanted env o text l₂ = l₃ at take ⊢
  rw [← boot] at running link
  cases outcome with
  | kept unlisted =>
    refine iff_of_true (Honest.tail ?_) fun ⟨positive, isBad, _⟩ => unlisted ⟨positive, isBad⟩
    intro negative
    have zero : 0 ≤ l₁.result := by rw [result]; decide
    rcases takeWanted_result take running checked with
      ⟨-, -, -, kept, -⟩ | ⟨-, -, -, -, same⟩ | ⟨-, -, -, kept, -, -⟩
    · exact absurd negative (not_lt.mpr (kept zero))
    · rw [same, boot]
    · exact absurd negative (not_lt.mpr (kept zero))
  | stuck positive isBad stuck =>
    have noRevert := not_revertWorks stuck
    rcases takeWanted_result take running checked with
      ⟨idle, sameBoot, verdict, -, -⟩ | ⟨-, noOffer, -, verdict, same⟩ |
      ⟨isTried, works, verdict, -, kept, moved⟩
    · rw [honest_tail_iff verdict]
      refine iff_of_true (fun _ => ?_) ?_
      · rw [sameBoot, boot]
      · rintro ⟨-, -, wants, notBad, -⟩
        exact idle ⟨wants, fun same => notBad (same ▸ isBad), notBad⟩
    · rw [honest_tail_iff verdict]
      refine iff_of_true (fun _ => ?_) ?_
      · rw [same, boot]
      · rintro ⟨-, -, -, -, ⟨revert, -⟩ | ⟨-, works⟩⟩
        · exact noRevert revert
        · exact noOffer works
    · rw [honest_tail_iff verdict]
      refine iff_of_false (fun honest => ?_) ?_
      · -- the result of the failed revert stays although `current` moved
        have same := honest (by rw [kept enoent_neg]; exact enoent_neg)
        rw [moved, ← boot, link positive] at same
        exact isTried.2.1 same
      · exact not_not.mpr ⟨positive, isBad, isTried.1, isTried.2.2, .inr ⟨noRevert, works⟩⟩
  | reverted back positive isBad isBack usable flips =>
    have revert : revertWorks env l₁ := ⟨isBack ▸ (State.usable_iff.mp usable).1, flips⟩
    have code : (0 : Int) ≤ rRevertedBad := by decide
    obtain ⟨-, other, -, ok⟩ := State.usable_iff.mp usable
    rcases takeWanted_result take (flip_power running) checked with
      ⟨idle, -, verdict, kept, -⟩ | ⟨isTried, noOffer, negative, verdict, same⟩ |
      ⟨-, works, verdict, kept, -, -⟩
    · rw [honest_tail_iff verdict]
      refine iff_of_true (fun negative => ?_) ?_
      · exact absurd negative (not_lt.mpr (kept code))
      · rintro ⟨-, -, wants, notBad, ⟨-, notBack, -⟩ | ⟨noRevert, -⟩⟩
        · exact idle ⟨wants, isBack ▸ notBack, notBad⟩
        · exact noRevert revert
    · rw [honest_tail_iff verdict]
      have noOffer : ¬ offerWorks env o text l₁ := by
        intro works
        apply noOffer
        refine (offerWorks_flip (s := back) running flips ?_ ?_).mpr works <;> rfl
      refine iff_of_false (fun honest => ?_) ?_
      · -- the failure of the offered package hides the revert
        have unmoved := honest negative
        rw [same, flip_link running flips (pkgOk_isSerial ok), ← boot, link positive] at unmoved
        exact other unmoved
      · exact not_not.mpr ⟨positive, isBad, isTried.1, isTried.2.2,
          .inl ⟨revert, isBack ▸ isTried.2.1, noOffer⟩⟩
    · rw [honest_tail_iff verdict]
      have works : offerWorks env o text l₁ := by
        refine (offerWorks_flip (s := back) running flips ?_ ?_).mp works <;> rfl
      refine iff_of_true (fun negative => ?_) ?_
      · exact absurd negative (not_lt.mpr (kept code))
      · rintro ⟨-, -, -, -, ⟨-, -, noOffer⟩ | ⟨noRevert, -⟩⟩
        · exact noOffer works
        · exact noRevert revert

theorem activate_result (start : Int) :
    (activate env start l).result = l.result := by
  unfold activate
  split
  rfl

/-- The result of a run on a writable root, and where `current` is at its end. -/
theorem itBootRun_end (writable : env.readonly = false) :
    (itBootRun env b).2 = (pullAndApply env (recover env b)).result ∧
      currentSerial (itBootRun env b).1.disk =
        currentSerial (pullAndApply env (recover env b)).boot.disk := by
  simp only [itBootRun, writable, Bool.false_eq_true, if_false]
  refine ⟨activate_result .., ?_⟩
  rw [currentSerial_congr (finish_current env _)]
  exact currentSerial_congr (activate_keeps ..).current

theorem report_result {cur result : Int} {line : Bytes} (silent : b.reports = []) :
    ∀ r ∈ (report cur result line b).reports, r.result = result := by
  unfold report
  split
  · simp [silent]
  · simp [silent]

theorem reports_result (d : Disk) :
    ∀ r ∈ (itBootRun env { disk := d }).1.reports, r.result = (itBootRun env { disk := d }).2 := by
  have silent : (saveState env (runLocals env { disk := d }).st
      (runLocals env { disk := d }).boot).1.reports = [] := by
    rw [saveState_reports]
    exact (runLocals_later env { disk := d }).reports
  cases readonly : env.readonly with
  | true =>
    have loaded : ∀ cur : Int, (if 0 ≤ cur then jobs cur (ascii "load") { disk := d }
        else ({ disk := d } : Boot)).reports = [] := by
      intro cur
      split
      · exact (jobs_keeps ..).reports
      · rfl
    simp only [itBootRun, readonly, if_true, readOnlyRun]
    cases pullOffer env.host with
    | ok text => exact report_result (loaded _)
    | error _ => simp [loaded]
  | false =>
    simp only [itBootRun, readonly, Bool.false_eq_true, if_false, finish]
    split
    · exact report_result silent
    · simp [silent]

/-- The code a run reports is the one it returns, and a negative one means that `current` is
where it was when the offer was pulled, except in the runs where leaving a bad package and
taking the offered one go different ways. -/
theorem negative_result_keeps_current_iff (env : Env) (d : Disk) :
    (∀ r ∈ (itBootRun env { disk := d }).1.reports, r.result = (itBootRun env { disk := d }).2) ∧
    (((itBootRun env { disk := d }).2 < 0 →
        currentSerial (itBootRun env { disk := d }).1.disk =
          currentSerial (recover env { disk := d }).boot.disk) ↔
      ¬ ∃ text o, env.readonly = false ∧ pullOffer env.host = .ok text ∧
        parseOffer text = some o ∧ mixed env o text (judged env o { disk := d })) := by
  refine ⟨reports_result d, ?_⟩
  cases readonly : env.readonly with
  | true =>
    refine iff_of_true (fun negative => ?_) (by simp)
    have result : (itBootRun env { disk := d }).2 = rReadOnly := by simp [itBootRun, readonly]
    rw [result] at negative
    exact absurd negative (by decide)
  | false =>
    obtain ⟨result, link⟩ := itBootRun_end (b := { disk := d }) readonly
    rw [result, link]
    cases pulled : pullOffer env.host with
    | error _ => simp [pullAndApply, pulled]
    | ok text =>
      cases parsed : parseOffer text with
      | none => simp [pullAndApply, pulled, parsed]
      | some o =>
        have honest := applyOffer_honest_iff env text (b := { disk := d }) rfl
          (parseOffer_checked parsed)
        simpa [pullAndApply, pulled, parsed, Honest] using honest

/-- A volume without stock files, and packages that are only their record. -/
def bareDisk (state current : Bytes) (serials : List Nat) : Disk where
  state := some state
  current := some current
  pkgs := fun l =>
    match l with
    | [name] => if name ∈ serials.map natDecimal then some .dir else none
    | [name, file] =>
      if name ∈ serials.map natDecimal ∧ file = ascii "offer" then
        some (.file (ascii "ltpkg 1\nserial " ++ name ++ [10]) 0o644)
      else none
    | _ => none
  sys := fun _ => none
  dirSize := fun _ _ => 0

/-- A run without faults on a device of build 7E18. -/
def offerEnv (text : Bytes) (payloads : List Bytes) : Env where
  host := .serving text payloads
  readonly := false
  build := ascii "7E18"
  sha256 := none
  expired := fun _ _ => false
  fails := fun _ => false
  survives := fun _ _ => false

/-- Package 11 is judged bad, and the package offered in its place is for another build. -/
def badAndWrongBuild : Env :=
  offerEnv (ascii "ltpkg 1\nbuild 8A1\nserial 12\nverdict bad 11\n") []

/-- Package 11 is left for the seed, then the offer turns out to be for another build: the run
reports `-ENOEXEC` although `current` moved from 11 to 10. -/
theorem negative_result_after_revert :
    (itBootRun badAndWrongBuild
        { disk := bareDisk (ascii "seed 10\n") (ascii "pkgs/11") [10, 11] }).2 = enoexec ∧
      currentSerial (recover badAndWrongBuild
        { disk := bareDisk (ascii "seed 10\n") (ascii "pkgs/11") [10, 11] }).boot.disk = 11 ∧
      currentSerial (itBootRun badAndWrongBuild
        { disk := bareDisk (ascii "seed 10\n") (ascii "pkgs/11") [10, 11] }).1.disk = 10 := by
  decide +kernel

end QemuIos.ItBoot

import QemuIos.ItBoot.Proofs.Offer
import QemuIos.ItBoot.Proofs.Boot

/-!
# What each part of a run can do

One inductive relation for each part of `it_boot_run` that chooses: every way it can go, with
what was tested on the way. The theorems about runs are case analyses over these relations.
-/

namespace QemuIos.ItBoot
open CText FileTree Option

variable {d d' : Disk} {s : Int} {o : Offer} {env : Env} {l l' : Locals}

/-! ## Packages and `current` -/

theorem loadPkg_eq_some :
    loadPkg d s = some o ↔ 0 ≤ s ∧ ∃ data,
      (readFile d.pkgs (pkgPath s (ascii "offer"))).toOption = some data ∧
        data.take (offerMax - 1) ≠ [] ∧ parseOffer (data.take (offerMax - 1)) = some o ∧
        o.serial = s ∧ ∀ e ∈ o.entries, sizeOf d (pkgPath s e.path) = some e.size := by
  simp only [loadPkg, bind_eq_bind, bind_eq_some_iff, guard_eq_some',
    pure_def, some.injEq, exists_const]
  constructor
  · rintro ⟨positive, data, isData, nonempty, o', parsed, ⟨serial, sizes⟩, rfl⟩
    exact ⟨positive, data, isData, nonempty, parsed, serial, sizes⟩
  · rintro ⟨positive, data, isData, nonempty, parsed, serial, sizes⟩
    exact ⟨positive, data, isData, nonempty, o, parsed, ⟨serial, sizes⟩, rfl⟩

theorem loadPkg_isSerial (loads : loadPkg d s = some o) :
    IsSerial s ∧ o.serial = s ∧ o.Checked := by
  obtain ⟨-, data, -, -, parsed, same, -⟩ := loadPkg_eq_some.mp loads
  have checked := parseOffer_checked parsed
  exact ⟨same ▸ checked.serial, same, checked⟩

theorem pkgOk_isSerial (ok : pkgOk d s) : IsSerial s := by
  obtain ⟨o, loads⟩ := isSome_iff_exists.mp ok
  exact (loadPkg_isSerial loads).1

/-- Whether a package loads is a matter of the package tree. -/
theorem loadPkg_congr (pkgs : d'.pkgs = d.pkgs) (dirSize : d'.dirSize = d.dirSize) :
    loadPkg d' s = loadPkg d s := by
  have size : ∀ path, sizeOf d' path = sizeOf d path := by
    intro path
    simp only [sizeOf, pkgs, dirSize]
  apply ext
  intro o
  rw [loadPkg_eq_some, loadPkg_eq_some]
  simp only [pkgs, size]

theorem pkgOk_congr (pkgs : d'.pkgs = d.pkgs) (dirSize : d'.dirSize = d.dirSize) (s : Int) :
    pkgOk d' s = pkgOk d s := by
  rw [pkgOk, loadPkg_congr pkgs dirSize, pkgOk]

/-- The link `flip` makes is read back. -/
theorem currentSerial_pkgs (serial : IsSerial s)
    (points : d.current = some (ascii "pkgs/" ++ decimal s)) : currentSerial d = s := by
  have short : (decimal s).length ≤ 11 := by
    obtain ⟨low, high⟩ := serial
    apply length_decimal_le
    · omega
    · have : (longMax : Int) = 2 ^ 31 - 1 := by simp [longMax]
      omega
  have nonempty : decimal s ≠ [] := by
    intro empty
    have read := parseLong_decimal serial
    simp [empty, parseLong] at read
  have whole : (ascii "pkgs/" ++ decimal s).take 511 = ascii "pkgs/" ++ decimal s := by
    apply List.take_of_length_le
    have : (ascii "pkgs/").length = 5 := by decide
    rw [List.length_append]
    omega
  have five : (ascii "pkgs/").length = 5 := by decide
  have long : ¬ (ascii "pkgs/" ++ decimal s).length ≤ 5 := by
    rw [List.length_append, five]
    have := List.length_pos_iff.mpr nonempty
    omega
  simp only [currentSerial, points, whole, long, if_false]
  rw [List.take_left' five, List.drop_left' five, if_pos rfl, parseLong_decimal serial]
  simp only [map_some, getD_some]
  exact Int.toNat_of_nonneg serial.1

/-! ## Flips -/

section Flip
variable {env : Env} {why : Flip} {s : Int} {b : Boot}

theorem flip_failed (fails : env.fails (.flip why)) : flip env why s b = (b, eio) := if_pos fails

theorem flip_works (works : env.fails (.flip why) = false) : (flip env why s b).2 = 0 := by
  rw [flip, if_neg (by simp [works])]

theorem flip_disk : (flip env why s b).1.disk = b.disk ∨
    (flip env why s b).1.disk = { b.disk with current := some (ascii "pkgs/" ++ decimal s) } := by
  unfold flip
  split
  · exact .inl rfl
  · exact b.write_disk _

theorem flip_dead (dead : b.dead) : (flip env why s b).1 = b := by
  unfold flip
  split
  · rfl
  · dsimp only
    rw [b.write_dead _ dead]

theorem flip_power (on : b.power = none) : (flip env why s b).1.power = none := by
  unfold flip
  split
  · exact on
  · simp [Boot.write_power _ _ on, on]

theorem flip_later : b.Later (flip env why s b).1 where
  state := by rcases flip_disk with eq | eq <;> rw [eq]
  dirSize := by rcases flip_disk with eq | eq <;> rw [eq]
  reports := by
    unfold flip
    split
    · rfl
    · exact b.write_reports _
  dead dead := by rwa [flip_dead dead]
  power := flip_power

/-- A device that runs follows a flip that works. -/
theorem flip_current (works : env.fails (.flip why) = false) (alive : b.dead = false) :
    (flip env why s b).1.disk = { b.disk with current := some (ascii "pkgs/" ++ decimal s) } := by
  simp [flip, works, alive, Boot.write]

end Flip

/-! ## Where a revert goes -/

theorem revertTarget_cases (st : State) (d : Disk) (cur : Int) :
    (revertTarget st d cur ∈ st.order ∧ st.usable d cur (revertTarget st d cur)) ∨
      (revertTarget st d cur = -1 ∧ ∀ s ∈ st.order, ¬ st.usable d cur s) := by
  unfold revertTarget
  cases found : st.order.find? (st.usable d cur) with
  | none =>
    right
    refine ⟨rfl, ?_⟩
    simpa using found
  | some s =>
    left
    exact ⟨List.mem_of_find?_eq_some found, List.find?_some found⟩

theorem State.usable_iff {st : State} {cur : Int} :
    st.usable d cur s ↔ 0 ≤ s ∧ s ≠ cur ∧ s ∉ st.bad ∧ pkgOk d s := by
  simp [State.usable, and_assoc]

/-! ## Return codes -/

theorem pullWindows_error {read : Nat → Nat → Int × Bytes} {check : Nat → Int} {total fuel : Nat}
    {got : Bytes} {rc : Int} (failed : pullWindows read check total fuel got = .error rc) :
    rc = eio ∨ ∃ off, rc = check off ∧ check off ≠ 0 := by
  induction fuel generalizing got with
  | zero => simp [pullWindows] at failed
  | succ fuel ih =>
    simp only [pullWindows] at failed
    split at failed
    · split at failed
      · cases failed
        exact .inl rfl
      split at failed
      · rename_i wrong
        cases failed
        exact .inr ⟨_, rfl, wrong⟩
      · exact ih failed
    · cases failed

theorem eio_neg : eio < 0 := by decide

theorem enoent_neg : enoent < 0 := by decide

theorem fetch_rc (i : Nat) (e : Entry) (dst : Bytes) (b : Boot) :
    (fetch env i e dst b).2 ≤ 0 := by
  have badmsg : ebadmsg ≤ 0 := by decide
  have timedout : etimedout ≤ 0 := by decide
  unfold fetch
  split
  · exact badmsg
  · split
    · exact eio_neg.le
    · split
      · exact eio_neg.le
      · dsimp only
        split
        · rename_i rc failed
          rcases pullWindows_error failed with rfl | ⟨off, rfl, -⟩
          · exact eio_neg.le
          · dsimp only
            split
            · exact timedout
            · split
              · exact eio_neg.le
              · exact le_refl 0
        · split
          · exact eio_neg.le
          · split
            · exact eio_neg.le
            · split
              · split
                · exact le_refl 0
                · exact badmsg
              · exact le_refl 0

theorem fetchAll_rc (tmp : Bytes) (i : Nat) (es : List Entry) (b : Boot) :
    (fetchAll env tmp i es b).2 ≤ 0 := by
  induction es generalizing i b with
  | nil => exact le_refl 0
  | cons e es ih =>
    unfold fetchAll
    dsimp only
    split
    · exact ih _ _
    · exact fetch_rc ..

theorem writeRecord_rc (path text : Bytes) (b : Boot) :
    (writeRecord env path text b).2 ≤ 0 := by
  unfold writeRecord
  split
  · exact eio_neg.le
  · split
    · exact eio_neg.le
    · exact le_refl 0

theorem stage_rc (text : Bytes) (b : Boot) :
    (stage env o text b).2 ≤ 0 := by
  unfold stage
  dsimp only
  split
  · exact writeRecord_rc ..
  · exact fetchAll_rc ..

/-- `install` returns 0 or a negative code. -/
theorem install_rc (env : Env) (o : Offer) (text : Bytes) (b : Boot) :
    (install env o text b).2 ≤ 0 := by
  unfold install
  dsimp only
  split
  · exact eio_neg.le
  · split
    · exact eio_neg.le
    · split
      · exact stage_rc ..
      · split
        · exact eio_neg.le
        · exact le_refl 0

/-! ## The parts of a run -/

theorem mem_movesOf {why : Flip} {bad : Fifo Int maxSerials} {added : List Int} {b b' : Boot}
    {m : Move} (member : m ∈ movesOf why s bad added b b') :
    b.dead = false ∧ m = ⟨why, s, bad, added, b'.disk⟩ := by
  unfold movesOf at member
  split at member
  · cases member
  · rename_i alive
    exact ⟨by simpa using alive, List.mem_singleton.mp member⟩

theorem removeTorn_keeps (env : Env) (b : Boot) : b.Keeps (removeTorn env b) :=
  b.write_keeps rfl rfl rfl

/-- How a run can begin. -/
inductive RecoverOutcome (env : Env) (b : Boot) : Locals → Prop
  | sound : pkgOk (removeTorn env b).disk (currentSerial b.disk) →
      RecoverOutcome env b
        { boot := removeTorn env b, st := bootState b.disk.state (currentSerial b.disk),
          cur := currentSerial b.disk }
  | recovered (seed : Int) : seed = (loadState b.disk.state).1.seed →
      pkgOk (removeTorn env b).disk (currentSerial b.disk) = false →
      pkgOk (removeTorn env b).disk seed → env.fails (.flip .recover) = false →
      RecoverOutcome env b
        { boot := (flip env .recover seed (removeTorn env b)).1,
          st := bootState b.disk.state seed, cur := seed,
          moves := movesOf .recover seed (loadState b.disk.state).1.bad [] (removeTorn env b)
            (flip env .recover seed (removeTorn env b)).1 }
  | unusable : pkgOk (removeTorn env b).disk (currentSerial b.disk) = false →
      RecoverOutcome env b
        { boot := removeTorn env b, st := bootState b.disk.state (-1), cur := -1 }

theorem recover_outcome (env : Env) (b : Boot) : RecoverOutcome env b (recover env b) := by
  have kept := removeTorn_keeps env b
  have link : currentSerial (removeTorn env b).disk = currentSerial b.disk := by
    simp only [currentSerial, kept.current]
  unfold recover
  dsimp only
  rw [link, kept.state]
  cases ok : pkgOk (removeTorn env b).disk (currentSerial b.disk) with
  | true => exact .sound ok
  | false =>
    rw [if_neg (by simp)]
    split
    · rename_i seedOk
      have seedOk : pkgOk (removeTorn env b).disk (loadState b.disk.state).1.seed := by
        rw [Bool.and_eq_true] at seedOk
        exact seedOk.1
      cases fault : env.fails (.flip .recover) with
      | true =>
        rw [flip_failed fault, if_neg (show ¬ eio = 0 by decide)]
        exact .unusable ok
      | false =>
        rw [if_pos (flip_works fault)]
        exact .recovered _ rfl ok seedOk fault
    · exact .unusable ok

theorem hostBad_eq (o : Offer) (l : Locals) :
    hostBad o l =
      { l with
        st := { l.st with bad := l.st.bad.addAll (o.bad.filter (· ≠ l.st.seed)) }
        added := l.added ++ l.st.bad.appended (o.bad.filter (· ≠ l.st.seed)) } := by
  unfold hostBad
  generalize o.bad = serials
  induction serials generalizing l with
  | nil => simp [Fifo.appended]
  | cons s serials ih =>
    rw [List.foldl_cons, ih]
    by_cases isSeed : s = l.st.seed
    · simp [isSeed]
    · by_cases present : s ∈ l.st.bad
      · simp [isSeed, present, Locals.markBad, addBad, Fifo.appended, Fifo.add_of_mem present]
      · simp [isSeed, present, Locals.markBad, addBad, Fifo.appended]

/-- What the verdicts can lead to. -/
inductive RevertOutcome (env : Env) (l : Locals) : Locals → Prop
  | kept : ¬ (0 ≤ l.cur ∧ l.cur ∈ l.st.bad) → RevertOutcome env l l
  | stuck : 0 ≤ l.cur → l.cur ∈ l.st.bad →
      (∀ s ∈ l.st.order, ¬ l.st.usable l.boot.disk l.cur s) ∨ env.fails (.flip .verdict) →
      RevertOutcome env l { l with result := enoent, verdict := true }
  | reverted (back : Int) : 0 ≤ l.cur → l.cur ∈ l.st.bad →
      back = revertTarget l.st l.boot.disk l.cur →
      l.st.usable l.boot.disk l.cur back → env.fails (.flip .verdict) = false →
      RevertOutcome env l
        { l with boot := (flip env .verdict back l.boot).1, cur := back,
                 st := { l.st with tries := 0 }, result := rRevertedBad, verdict := true,
                 moves := l.moves ++ movesOf .verdict back l.st.bad l.added l.boot
                   (flip env .verdict back l.boot).1 }

theorem revertBad_outcome (env : Env) (l : Locals) : RevertOutcome env l (revertBad env l) := by
  unfold revertBad
  split
  · rename_i listed
    rcases revertTarget_cases l.st l.boot.disk l.cur with ⟨-, usable⟩ | ⟨none, unusable⟩
    · have found := (State.usable_iff.mp usable).1
      dsimp only
      rw [if_pos found]
      cases fault : env.fails (.flip .verdict) with
      | true =>
        rw [flip_failed fault, if_neg (show ¬ eio = 0 by decide)]
        exact .stuck listed.1 listed.2 (.inr fault)
      | false =>
        rw [if_pos (flip_works fault)]
        exact .reverted _ listed.1 listed.2 rfl usable fault
    · dsimp only
      rw [if_neg (by omega)]
      exact .stuck listed.1 listed.2 (.inl unusable)
  · rename_i unlisted
    exact .kept unlisted

/-- The offer is for another build. -/
def wrongBuild (env : Env) (o : Offer) : Prop :=
  o.serial ≠ 0 ∧ o.build ≠ [] ∧ env.build ≠ o.build

/-- The wanted package is on disk or gets there, and the flip to it works. -/
def moveWorks (env : Env) (o : Offer) (text : Bytes) (l : Locals) : Prop :=
  (pkgOk l.boot.disk (wanted o l.st) ∨ (o.serial ≠ 0 ∧ (install env o text l.boot).2 = 0)) ∧
    env.fails (.flip .switch) = false

/-- What the offered package can lead to. -/
inductive TakeOutcome (env : Env) (o : Offer) (text : Bytes) (l : Locals) : Locals → Prop
  | idle : wanted o l.st < 0 ∨ wanted o l.st = l.cur → TakeOutcome env o text l l
  | refused : wanted o l.st ∈ l.st.bad →
      TakeOutcome env o text l
        { l with result := if l.result = rUnchanged then rRefused else l.result }
  | wrongBuild : wanted o l.st ≠ l.cur → wanted o l.st ∉ l.st.bad → 0 ≤ wanted o l.st →
      wrongBuild env o → TakeOutcome env o text l { l with result := enoexec }
  | failed (b : Boot) (rc : Int) : wanted o l.st ≠ l.cur → wanted o l.st ∉ l.st.bad →
      0 ≤ wanted o l.st → ¬ moveWorks env o text l → l.boot.Keeps b → rc < 0 →
      b = l.boot ∨ install env o text l.boot = (b, rc) ∨ env.fails (.flip .switch) →
      TakeOutcome env o text l { l with boot := b, result := rc }
  | moved (b : Boot) (fresh : Bool) : wanted o l.st ≠ l.cur → wanted o l.st ∉ l.st.bad →
      0 ≤ wanted o l.st → ¬ wrongBuild env o → l.boot.Keeps b →
      fresh = !pkgOk l.boot.disk (wanted o l.st) →
      (fresh = false → b = l.boot) → (fresh → o.serial ≠ 0 ∧ install env o text l.boot = (b, 0)) →
      env.fails (.flip .switch) = false →
      TakeOutcome env o text l
        { l with
          boot := (flip env .switch (wanted o l.st) b).1
          st := { l.st with
            previous := if 0 ≤ l.cur ∧ l.cur ∉ l.st.bad then l.cur else l.st.previous
            tries := if wanted o l.st = l.st.seed ∨ wanted o l.st = l.st.good then 0 else 1 }
          cur := wanted o l.st
          verdict := true
          result :=
            if l.result = rUnchanged then (if fresh then rInstalled else rSwitched)
            else l.result
          moves := l.moves ++ movesOf .switch (wanted o l.st) l.st.bad l.added b
            (flip env .switch (wanted o l.st) b).1 }

theorem moveTo_outcome {text : Bytes} (other : wanted o l.st ≠ l.cur)
    (notBad : wanted o l.st ∉ l.st.bad) (positive : 0 ≤ wanted o l.st)
    (right : ¬ wrongBuild env o) :
    TakeOutcome env o text l (moveTo env o text (wanted o l.st) l) := by
  have failedFlip : ¬ eio = 0 := by decide
  unfold moveTo
  dsimp only
  cases ok : pkgOk l.boot.disk (wanted o l.st) with
  | true =>
    simp only [Bool.not_true, Bool.false_eq_true, if_false, if_true]
    cases fault : env.fails (.flip .switch) with
    | true =>
      rw [flip_failed fault, if_pos failedFlip]
      refine .failed _ _ other notBad positive ?_ (.refl _) eio_neg (.inl rfl)
      rintro ⟨-, works⟩
      rw [fault] at works
      cases works
    | false =>
      rw [if_neg (not_not.mpr (flip_works fault))]
      exact .moved l.boot false other notBad positive right (.refl _) (by simp [ok])
        (fun _ => rfl) (by simp) fault
  | false =>
    simp only [Bool.not_false, if_true]
    by_cases safeMode : o.serial = 0
    · simp only [if_pos safeMode]
      rw [if_neg (show ¬ enoent = 0 by decide), if_pos (show enoent ≠ 0 by decide)]
      refine .failed _ _ other notBad positive ?_ (.refl _) enoent_neg (.inl rfl)
      rintro ⟨present | ⟨notSafe, -⟩, -⟩
      · rw [ok] at present
        cases present
      · exact notSafe safeMode
    · simp only [if_neg safeMode]
      have kept := install_keeps env o text l.boot
      have code := install_rc env o text l.boot
      rcases installed : install env o text l.boot with ⟨b, rc⟩
      rw [installed] at kept code
      by_cases done : rc = 0
      · subst done
        simp only [if_true]
        cases fault : env.fails (.flip .switch) with
        | true =>
          rw [flip_failed fault, if_pos failedFlip]
          refine .failed _ _ other notBad positive ?_ kept eio_neg (.inr (.inr fault))
          rintro ⟨-, works⟩
          rw [fault] at works
          cases works
        | false =>
          rw [if_neg (not_not.mpr (flip_works fault))]
          exact .moved b true other notBad positive right kept (by simp [ok]) (by simp)
            (fun _ => ⟨safeMode, installed⟩) fault
      · simp only [if_neg done, if_pos done]
        refine .failed b rc other notBad positive ?_ kept (lt_of_le_of_ne code done)
          (.inr (.inl installed))
        rintro ⟨present | ⟨-, works⟩, -⟩
        · rw [ok] at present
          cases present
        · rw [installed] at works
          exact done works

theorem takeWanted_outcome (env : Env) (o : Offer) (text : Bytes) (l : Locals) :
    TakeOutcome env o text l (takeWanted env o text l) := by
  unfold takeWanted
  dsimp only
  split
  · rename_i nothing
    exact .idle nothing
  rename_i something
  obtain ⟨positive, other⟩ : 0 ≤ wanted o l.st ∧ wanted o l.st ≠ l.cur := by
    push Not at something
    exact something
  split
  · rename_i isBad
    have refused : TakeOutcome env o text l _ := .refused isBad
    split
    · rename_i unchanged
      rwa [if_pos unchanged] at refused
    · rename_i changed
      rwa [if_neg changed] at refused
  · rename_i notBad
    split
    · rename_i wrong
      exact .wrongBuild other notBad positive wrong
    · rename_i right
      exact moveTo_outcome other notBad positive right

theorem wanted_isSerial {fresh : Bool} (checked : o.Checked)
    (isFresh : fresh = !pkgOk l.boot.disk (wanted o l.st)) (offered : fresh → o.serial ≠ 0) :
    IsSerial (wanted o l.st) := by
  by_cases safeMode : o.serial = 0
  · apply pkgOk_isSerial (d := l.boot.disk)
    cases ok : pkgOk l.boot.disk (wanted o l.st) with
    | true => rfl
    | false => exact absurd safeMode (offered (by rw [isFresh, ok]; rfl))
  · rw [wanted, if_neg safeMode]
    exact checked.serial

/-- The no-verdict limit looks at a package only when this run has not judged it. -/
def unjudged (l : Locals) : Prop :=
  !l.verdict ∧ 0 ≤ l.cur ∧ l.cur ≠ l.st.seed ∧ l.cur ≠ l.st.good

/-- What the no-verdict limit can lead to. -/
inductive NoVerdictOutcome (env : Env) (l : Locals) : Locals → Prop
  | exempt : ¬ unjudged l → NoVerdictOutcome env l l
  | counted : unjudged l → l.st.tries < maxTries →
      NoVerdictOutcome env l { l with st := { l.st with tries := l.st.tries + 1 } }
  | stuck : unjudged l → maxTries ≤ l.st.tries → NoVerdictOutcome env l l
  | reverted (back : Int) : unjudged l → maxTries ≤ l.st.tries →
      back = revertTarget l.st l.boot.disk l.cur →
      l.st.usable l.boot.disk l.cur back → env.fails (.flip .tries) = false →
      NoVerdictOutcome env l
        { l with
          boot := (flip env .tries back l.boot).1
          st := { addBad l.st l.cur with tries := 0 }
          cur := back
          result := rRevertedTries
          added := if l.cur ∈ l.st.bad then l.added else l.added ++ [l.cur]
          moves := l.moves ++ movesOf .tries back l.st.bad l.added l.boot
            (flip env .tries back l.boot).1 }

theorem noVerdict_outcome (env : Env) (l : Locals) :
    NoVerdictOutcome env l (noVerdict env l) := by
  unfold noVerdict
  split
  · rename_i isOpen
    split
    · rename_i tired
      rcases revertTarget_cases l.st l.boot.disk l.cur with ⟨-, usable⟩ | ⟨none, -⟩
      · dsimp only
        rw [if_pos (State.usable_iff.mp usable).1]
        cases fault : env.fails (.flip .tries) with
        | true =>
          rw [flip_failed fault, if_neg (show ¬ eio = 0 by decide)]
          exact .stuck isOpen tired
        | false =>
          rw [if_pos (flip_works fault)]
          exact .reverted _ isOpen tired rfl usable fault
      · dsimp only
        rw [if_neg (by omega)]
        exact .stuck isOpen tired
    · rename_i fewer
      exact .counted isOpen (by omega)
  · rename_i closed
    exact .exempt closed

theorem RevertOutcome.later (outcome : RevertOutcome env l l') : l.boot.Later l'.boot := by
  cases outcome with
  | kept _ => exact .refl _
  | stuck _ _ _ => exact .refl _
  | reverted back _ _ _ _ _ => exact flip_later

theorem TakeOutcome.later {text : Bytes} (outcome : TakeOutcome env o text l l') :
    l.boot.Later l'.boot := by
  cases outcome with
  | idle _ => exact .refl _
  | refused _ => exact .refl _
  | wrongBuild _ _ _ _ => exact .refl _
  | failed b rc _ _ _ _ kept _ _ => exact kept.toLater
  | moved b fresh _ _ _ _ kept _ _ _ _ => exact kept.toLater.trans flip_later

theorem NoVerdictOutcome.later (outcome : NoVerdictOutcome env l l') : l.boot.Later l'.boot := by
  cases outcome with
  | exempt _ => exact .refl _
  | counted _ _ => exact .refl _
  | stuck _ _ => exact .refl _
  | reverted back _ _ _ _ _ => exact flip_later

theorem hostBad_boot (o : Offer) (l : Locals) : (hostBad o (hostGood o l)).boot = l.boot := by
  rw [hostBad_eq]
  unfold hostGood
  split <;> rfl

theorem judgedGood_boot : (judgedGood o l).boot = l.boot := by
  unfold judgedGood
  split <;> rfl

theorem hostVerdicts_later :
    l.boot.Later (hostVerdicts env o l).boot := by
  have later := (revertBad_outcome env (hostBad o (hostGood o l))).later
  rwa [hostBad_boot] at later

theorem applyOffer_later (text : Bytes) :
    l.boot.Later (applyOffer env o text l).boot := by
  have taken := hostVerdicts_later.trans
    (takeWanted_outcome env o text (hostVerdicts env o l)).later
  have limit := (noVerdict_outcome env
    (judgedGood o (takeWanted env o text (hostVerdicts env o l)))).later
  rw [judgedGood_boot] at limit
  exact taken.trans limit

/-- What a run does about the host's offer. -/
inductive PullOutcome (env : Env) (l : Locals) : Locals → Prop
  | silent (code : Int) : pullOffer env.host = .error code → PullOutcome env l l
  | malformed (text : Bytes) : pullOffer env.host = .ok text → parseOffer text = none →
      PullOutcome env l { l with result := einval }
  | offered (text : Bytes) (o : Offer) : pullOffer env.host = .ok text →
      parseOffer text = some o → PullOutcome env l (applyOffer env o text l)

theorem pullAndApply_outcome (env : Env) (l : Locals) :
    PullOutcome env l (pullAndApply env l) := by
  unfold pullAndApply
  split
  · rename_i pulled
    exact .silent _ pulled
  rename_i text pulled
  split
  · rename_i parsed
    exact .malformed text pulled parsed
  · rename_i o parsed
    exact .offered text o pulled parsed

theorem pullAndApply_later (env : Env) (l : Locals) :
    l.boot.Later (pullAndApply env l).boot := by
  have outcome := pullAndApply_outcome env l
  generalize pullAndApply env l = l' at outcome ⊢
  cases outcome with
  | silent _ _ => exact .refl _
  | malformed _ _ _ => exact .refl _
  | offered text o _ _ => exact applyOffer_later ..

theorem recover_later (b : Boot) : b.Later (recover env b).boot := by
  have kept := (removeTorn_keeps env b).toLater
  have outcome := recover_outcome env b
  generalize recover env b = l at outcome ⊢
  cases outcome with
  | sound _ => exact kept
  | recovered _ _ _ _ _ => exact kept.trans flip_later
  | unusable _ => exact kept

theorem runLocals_later (env : Env) (b : Boot) : b.Later (runLocals env b).boot :=
  ((recover_later b).trans (pullAndApply_later env _)).trans (activate_keeps ..).toLater

/-! ## The end of a run -/

theorem saveState_disk (st : State) (b : Boot) :
    (saveState env st b).1.disk = b.disk ∨
      (saveState env st b).1.disk = { b.disk with state := some (stateText st) } := by
  unfold saveState
  split
  · exact .inl rfl
  · exact b.write_disk _

theorem report_disk (cur result : Int) (line : Bytes) (b : Boot) :
    (report cur result line b).disk = b.disk := by
  unfold report
  split <;> rfl

theorem saveState_reports (env : Env) (st : State) (b : Boot) :
    (saveState env st b).1.reports = b.reports := by
  unfold saveState
  split
  · rfl
  · exact b.write_reports _

theorem finish_disk (env : Env) (l : Locals) :
    (finish env l).disk = (saveState env l.st l.boot).1.disk := by
  unfold finish
  dsimp only
  split
  · exact report_disk ..
  · rfl

theorem finish_current (env : Env) (l : Locals) :
    (finish env l).disk.current = l.boot.disk.current := by
  rw [finish_disk]
  rcases saveState_disk l.st l.boot with eq | eq <;> rw [eq]

theorem currentSerial_congr (same : d'.current = d.current) :
    currentSerial d' = currentSerial d := by
  simp only [currentSerial, same]

end QemuIos.ItBoot

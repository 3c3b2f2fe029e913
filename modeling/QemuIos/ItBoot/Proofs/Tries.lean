import QemuIos.ItBoot.Proofs.BadList

/-!
# The no-verdict limit over many boots

A package the host never judged gets `MAX_TRIES` boots. The counter is in the state file, and
`current` is flipped before the file is written, so a run cut off in between leaves the counter
of one package to another.
-/

namespace QemuIos.ItBoot
open CText List

variable {l l' : Locals} {b b' : Boot} {why : Flip} {s p : Int} {added : List Int} {env : Env}
  {o : Offer} {m : Move} {text : Bytes} {r : Run} {d : Disk} {k : Nat}

/-! ## What an offer does before the limit is looked at -/

/-- The bad list once the verdicts of an offer are in. -/
def badAfter (o : Offer) (st : State) : Fifo Int maxSerials :=
  st.bad.addAll (o.bad.filter (· ≠ st.seed))

/-- Where an offer can move `current`: off the bad list, to the offered package or to one a
revert considers. -/
def Allowed (o : Offer) (l : Locals) (s : Int) : Prop :=
  s ∉ badAfter o l.st ∧ s ∈ wanted o l.st :: l.st.order ∧ s ≠ l.cur

/-- What the part of a run before the no-verdict limit can come to: the host said nothing about
the current package, it judged it and nothing moved, or `current` moved. -/
inductive Course (o : Offer) (l : Locals) : Locals → Prop
  | unjudged {l' : Locals} : l'.verdict = false → l.cur ∉ o.good →
      ¬ (0 ≤ l.cur ∧ l.cur ∈ badAfter o l.st) → l'.cur = l.cur → l'.moves = l.moves →
      l'.st = { l.st with bad := badAfter o l.st } → Course o l l'
  | judged {l' : Locals} : l'.verdict = true → l'.cur = l.cur → l'.moves = l.moves →
      l'.st = { l.st with bad := badAfter o l.st } ∧ l.cur ∉ o.good ∨
        l'.st = { l.st with bad := badAfter o l.st, good := l.cur, tries := 0 } ∧ l.cur ∈ o.good →
      Course o l l'
  | moved {l' : Locals} : l'.verdict = true → l'.st.seed = l.st.seed →
      l'.st.bad = badAfter o l.st → l'.st.tries ≤ 1 → 0 ≤ l'.cur → Allowed o l l'.cur →
      (∀ m ∈ l'.moves, m ∈ l.moves ∨ m.why ≠ .tries ∧ Allowed o l m.serial) →
      (l'.boot.dead = false → ∃ m, l'.moves.getLast? = some m ∧ m.serial = l'.cur) → Course o l l'

theorem hostBad_course (fresh : l.verdict = false) :
    (hostBad o (hostGood o l)).cur = l.cur ∧ (hostBad o (hostGood o l)).moves = l.moves ∧
      (((hostBad o (hostGood o l)).verdict = false ∧ l.cur ∉ o.good ∧
          (hostBad o (hostGood o l)).st = { l.st with bad := badAfter o l.st }) ∨
        ((hostBad o (hostGood o l)).verdict = true ∧ l.cur ∈ o.good ∧
          (hostBad o (hostGood o l)).st =
            { l.st with bad := badAfter o l.st, good := l.cur, tries := 0 })) := by
  rw [hostBad_eq]
  unfold hostGood
  by_cases good : l.cur ∈ o.good
  · rw [if_pos good]
    exact ⟨rfl, rfl, .inr ⟨rfl, good, rfl⟩⟩
  · rw [if_neg good]
    exact ⟨rfl, rfl, .inl ⟨fresh, good, rfl⟩⟩

theorem alive_of_later (later : b.Later b') (alive : b'.dead = false) : b.dead = false := by
  cases dead : b.dead with
  | false => rfl
  | true =>
    rw [later.dead dead] at alive
    cases alive

theorem movesOf_alive {bad : Fifo Int maxSerials} (alive : b.dead = false) :
    movesOf why s bad added b b' = [⟨why, s, bad, added, b'.disk⟩] :=
  if_neg (by simp [alive])

theorem last_move {bad : Fifo Int maxSerials} (moves : List Move)
    (alive : (flip env why s b).1.dead = false) :
    ∃ m, (moves ++ movesOf why s bad added b (flip env why s b).1).getLast? = some m ∧
      m.serial = s := by
  rw [movesOf_alive (alive_of_later flip_later alive), getLast?_concat]
  exact ⟨_, rfl, rfl⟩

theorem mem_moves_flip {bad : Fifo Int maxSerials} {moves : List Move}
    (member : m ∈ moves ++ movesOf why s bad added b b')
    (old : m ∈ moves → m ∈ l.moves ∨ m.why ≠ .tries ∧ Allowed o l m.serial) (other : why ≠ .tries)
    (allowed : Allowed o l s) : m ∈ l.moves ∨ m.why ≠ .tries ∧ Allowed o l m.serial := by
  rcases mem_append.mp member with inOld | new
  · exact old inOld
  · rw [(mem_movesOf new).2]
    exact .inr ⟨other, allowed⟩

/-- The verdicts: a move leaves a package that is on the list. -/
theorem hostVerdicts_course (fresh : l.verdict = false) :
    Course o l (hostVerdicts env o l) ∧
      ((hostVerdicts env o l).cur ≠ l.cur → l.cur ∈ badAfter o l.st) := by
  obtain ⟨cur, moves, kinds⟩ := hostBad_course fresh
  have outcome := revertBad_outcome env (hostBad o (hostGood o l))
  have bad : (hostBad o (hostGood o l)).st.bad = badAfter o l.st := by
    rcases kinds with ⟨-, -, st⟩ | ⟨-, -, st⟩ <;> rw [st]
  have seed : (hostBad o (hostGood o l)).st.seed = l.st.seed := by
    rcases kinds with ⟨-, -, st⟩ | ⟨-, -, st⟩ <;> rw [st]
  have order : ∀ s ∈ (hostBad o (hostGood o l)).st.order, s ≠ l.cur → s ∈ l.st.order := by
    intro s member other
    rcases kinds with ⟨-, -, st⟩ | ⟨-, -, st⟩
    · rw [st] at member
      exact member
    rw [st] at member
    simp only [State.order, mem_cons, not_mem_nil, or_false] at member ⊢
    rcases member with same | same | same
    · exact .inl same
    · exact absurd same other
    · exact .inr (.inr same)
  unfold hostVerdicts
  generalize hostBad o (hostGood o l) = l₁ at cur moves kinds outcome bad seed order ⊢
  generalize revertBad env l₁ = l₂ at outcome ⊢
  cases outcome with
  | kept unlisted =>
    rw [cur, bad] at unlisted
    refine ⟨?_, fun other => absurd cur other⟩
    rcases kinds with ⟨verdict, good, st⟩ | ⟨verdict, good, st⟩
    · exact .unjudged verdict good unlisted cur moves st
    · exact .judged verdict cur moves (.inr ⟨st, good⟩)
  | stuck _ _ _ =>
    refine ⟨?_, fun other => absurd cur other⟩
    rcases kinds with ⟨-, good, st⟩ | ⟨-, good, st⟩
    · exact .judged rfl cur moves (.inl ⟨st, good⟩)
    · exact .judged rfl cur moves (.inr ⟨st, good⟩)
  | reverted back _ listed isBack usable _ =>
    rw [cur, bad] at listed
    refine ⟨?_, fun _ => listed⟩
    obtain ⟨positive, other, free, -⟩ := State.usable_iff.mp usable
    rw [cur] at other
    rw [bad] at free
    have target : back ∈ l₁.st.order := by
      rcases revertTarget_cases l₁.st l₁.boot.disk l₁.cur with ⟨member, -⟩ | ⟨none, -⟩
      · rw [isBack]
        exact member
      · omega
    have allowed : Allowed o l back :=
      ⟨free, mem_cons_of_mem _ (order back target other), other⟩
    refine .moved rfl seed bad (by dsimp only; omega) positive allowed ?_ (last_move _)
    intro m member
    exact mem_moves_flip member (fun old => .inl (moves ▸ old)) (by decide) allowed

theorem Course.congr {l₁ l₂ : Locals} (course : Course o l l₁) (later : l₁.boot.Later l₂.boot)
    (st : l₂.st = l₁.st) (cur : l₂.cur = l₁.cur) (verdict : l₂.verdict = l₁.verdict)
    (moves : l₂.moves = l₁.moves) : Course o l l₂ := by
  cases course with
  | unjudged verdict' good unlisted cur' moves' st' =>
    exact .unjudged (verdict.trans verdict') good unlisted (cur.trans cur') (moves.trans moves')
      (st.trans st')
  | judged verdict' cur' moves' st' =>
    refine .judged (verdict.trans verdict') (cur.trans cur') (moves.trans moves') ?_
    rw [st]
    exact st'
  | moved verdict' seed bad tries positive allowed kinds last =>
    rw [← st] at seed bad tries
    rw [← cur] at positive allowed
    refine .moved (verdict.trans verdict') seed bad tries positive allowed ?_ ?_
    · rw [moves]
      exact kinds
    · intro alive
      rw [moves, cur]
      exact last (alive_of_later later alive)

theorem Course.seed (course : Course o l l') : l'.st.seed = l.st.seed := by
  cases course with
  | unjudged _ _ _ _ _ st => rw [st]
  | judged _ _ _ st => rcases st with ⟨st, -⟩ | ⟨st, -⟩ <;> rw [st]
  | moved _ seed _ _ _ _ _ _ => exact seed

theorem Course.bad (course : Course o l l') : l'.st.bad = badAfter o l.st := by
  cases course with
  | unjudged _ _ _ _ _ st => rw [st]
  | judged _ _ _ st => rcases st with ⟨st, -⟩ | ⟨st, -⟩ <;> rw [st]
  | moved _ _ bad _ _ _ _ _ => exact bad

theorem Course.kinds (course : Course o l l') :
    ∀ m ∈ l'.moves, m ∈ l.moves ∨ m.why ≠ .tries ∧ Allowed o l m.serial := by
  cases course with
  | unjudged _ _ _ _ moves _ =>
    rw [moves]
    exact fun m member => .inl member
  | judged _ _ moves _ =>
    rw [moves]
    exact fun m member => .inl member
  | moved _ _ _ _ _ _ kinds _ => exact kinds

theorem takeWanted_course (env : Env) (o : Offer) (text : Bytes) (fresh : l.verdict = false) :
    Course o l (takeWanted env o text (hostVerdicts env o l)) := by
  obtain ⟨course, leaves⟩ := hostVerdicts_course fresh
  have outcome := takeWanted_outcome env o text (hostVerdicts env o l)
  generalize hostVerdicts env o l = l₁ at course leaves outcome ⊢
  generalize takeWanted env o text l₁ = l₂ at outcome ⊢
  cases outcome with
  | idle _ => exact course
  | refused _ => exact course.congr (.refl _) rfl rfl rfl rfl
  | wrongBuild _ _ _ _ => exact course.congr (.refl _) rfl rfl rfl rfl
  | failed b rc _ _ _ _ kept _ _ => exact course.congr kept.toLater rfl rfl rfl rfl
  | moved b new otherNow free positive _ _ _ _ _ _ =>
    have same : wanted o l₁.st = wanted o l.st := by
      unfold wanted
      rw [course.seed]
    rw [course.bad] at free
    have other : wanted o l₁.st ≠ l.cur := by
      intro eq
      by_cases stayed : l₁.cur = l.cur
      · exact otherNow (eq.trans stayed.symm)
      · exact free (eq ▸ leaves stayed)
    have allowed : Allowed o l (wanted o l₁.st) := by
      refine ⟨free, ?_, other⟩
      rw [same]
      exact mem_cons_self
    refine .moved rfl course.seed course.bad ?_ positive allowed ?_ (last_move _)
    · dsimp only
      split <;> omega
    · intro m member
      exact mem_moves_flip member (course.kinds m) (by decide) allowed

/-- The offer up to the limit: a package moved to and judged good is remembered as good. -/
theorem judgedGood_course (env : Env) (o : Offer) (text : Bytes) (fresh : l.verdict = false) :
    let l' := judgedGood o (takeWanted env o text (hostVerdicts env o l))
    Course o l l' ∧ (l'.cur ≠ l.cur → l'.cur ∈ o.good → l'.st.good = l'.cur) := by
  have course := takeWanted_course env o text fresh
  generalize takeWanted env o text (hostVerdicts env o l) = l₁ at course ⊢
  unfold judgedGood
  by_cases good : l₁.cur ∈ o.good ∧ 0 ≤ l₁.cur
  · rw [if_pos good]
    refine ⟨?_, fun _ _ => rfl⟩
    cases course with
    | unjudged _ notGood _ cur _ _ => exact absurd (cur ▸ good.1) notGood
    | judged verdict cur moves st =>
      refine .judged verdict cur moves (.inr ⟨?_, cur ▸ good.1⟩)
      rcases st with ⟨st, -⟩ | ⟨st, -⟩ <;> rw [st, cur]
    | moved verdict seed bad _ positive allowed kinds last =>
      exact .moved verdict seed bad (by dsimp only; omega) positive allowed kinds last
  · rw [if_neg good]
    refine ⟨course, fun other isGood => ?_⟩
    cases course with
    | unjudged _ _ _ cur _ _ => exact absurd cur other
    | judged _ cur _ _ => exact absurd cur other
    | moved _ _ _ _ positive _ _ _ => exact absurd ⟨isGood, positive⟩ good

/-! ## What the whole offer does -/

/-- What an offer comes to: nothing moves, the host's words move `current`, or a package is given up
for lack of a verdict. -/
inductive Settles (o : Offer) (l : Locals) : Locals → Prop
  | quiet {l' : Locals} : l'.moves = l.moves → l'.st.seed = l.st.seed →
      (l.cur ∈ o.good ∧ l'.st.good = l.cur ∨ l.cur ∉ o.good ∧ l'.st.good = l.st.good ∧
        (l'.st.tries = l.st.tries ∨
          l'.st.tries = l.st.tries + 1 ∧ 0 ≤ l.cur ∧ l.cur ∉ badAfter o l.st)) → Settles o l l'
  | moved {l' : Locals} : l'.st.tries ≤ 1 → (l'.cur ∈ o.good → l'.st.good = l'.cur) →
      (∀ m ∈ l'.moves, m ∈ l.moves ∨ m.why ≠ .tries ∧ Allowed o l m.serial) →
      (l'.boot.dead = false → ∃ m, l'.moves.getLast? = some m ∧ m.serial = l'.cur) → Settles o l l'
  | givenUp {l' : Locals} : 0 ≤ l.cur → l.cur ∉ o.good → l.cur ∉ badAfter o l.st →
      l.cur ≠ l.st.seed → l.cur ≠ l.st.good → maxTries ≤ l.st.tries → l'.st.tries = 0 →
      (∀ m ∈ l'.moves, m ∈ l.moves ∨ Allowed o l m.serial) →
      (l'.boot.dead = false → l'.moves ≠ []) → Settles o l l'

theorem applyOffer_settles (fresh : l.verdict = false) :
    Settles o l (applyOffer env o text l) := by
  obtain ⟨course, marked⟩ := judgedGood_course env o text fresh
  unfold applyOffer
  have outcome := noVerdict_outcome env
    (judgedGood o (takeWanted env o text (hostVerdicts env o l)))
  generalize judgedGood o (takeWanted env o text (hostVerdicts env o l)) = l₁
    at course marked outcome ⊢
  generalize noVerdict env l₁ = l₂ at outcome ⊢
  have free := course.bad
  cases course with
  | judged verdict cur moves st =>
    have same : l₂ = l₁ := by cases outcome <;> simp_all [unjudged]
    rw [same]
    refine .quiet moves (by rcases st with ⟨st, -⟩ | ⟨st, -⟩ <;> rw [st]) ?_
    rcases st with ⟨st, good⟩ | ⟨st, good⟩
    · exact .inr ⟨good, by rw [st], .inl (by rw [st])⟩
    · exact .inl ⟨good, by rw [st]⟩
  | moved verdict _ _ tries _ allowed kinds last =>
    have same : l₂ = l₁ := by cases outcome <;> simp_all [unjudged]
    rw [same]
    exact .moved tries (marked allowed.2.2) kinds last
  | unjudged _ good unlisted cur moves st =>
    have rest {l' : Locals} (same : l'.st = l₁.st) (moves' : l'.moves = l₁.moves) :
        Settles o l l' :=
      .quiet (moves'.trans moves) (by rw [same, st]) (.inr ⟨good, by rw [same, st],
        .inl (by rw [same, st])⟩)
    cases outcome with
    | exempt _ => exact rest rfl rfl
    | stuck _ _ => exact rest rfl rfl
    | counted isOpen _ =>
      have positive := cur ▸ isOpen.2.1
      refine .quiet moves (by rw [st]) (.inr ⟨good, by rw [st], .inr ⟨by rw [st], positive, ?_⟩⟩)
      exact fun listed => unlisted ⟨positive, listed⟩
    | reverted back isOpen tired isBack usable _ =>
      obtain ⟨-, positive, notSeed, notGood⟩ := isOpen
      obtain ⟨_, other, unlisted', -⟩ := State.usable_iff.mp usable
      have target : back ∈ l₁.st.order := by
        rcases revertTarget_cases l₁.st l₁.boot.disk l₁.cur with ⟨member, -⟩ | ⟨none, -⟩
        · exact isBack ▸ member
        · omega
      rw [free] at unlisted'
      rw [st] at notSeed notGood tired target
      rw [cur] at positive notSeed notGood other
      refine .givenUp positive good (fun listed => unlisted ⟨positive, listed⟩) notSeed
        notGood tired rfl ?_ ?_
      · intro m member
        rcases mem_append.mp member with old | new
        · exact .inl (moves ▸ old)
        · rw [(mem_movesOf new).2]
          exact .inr ⟨unlisted', mem_cons_of_mem _ target, other⟩
      · intro alive
        dsimp only
        rw [movesOf_alive (alive_of_later flip_later alive)]
        simp

section

variable (fresh : l.verdict = false)
include fresh

/-- A package given up for lack of a verdict was not judged, and its tries were used up. -/
theorem applyOffer_limit (old : ∀ m ∈ l.moves, m.why ≠ .tries)
    (moved : m ∈ (applyOffer env o text l).moves) (limit : m.why = .tries) :
    0 ≤ l.cur ∧ l.cur ∉ o.good ∧ l.cur ∉ badAfter o l.st ∧ l.cur ≠ l.st.seed ∧
      l.cur ≠ l.st.good ∧ maxTries ≤ l.st.tries := by
  cases applyOffer_settles fresh with
  | quiet moves => exact absurd limit (old m (moves ▸ moved))
  | moved _ _ kinds =>
    rcases kinds m moved with earlier | ⟨other, -⟩
    · exact absurd limit (old m earlier)
    · exact absurd limit other
  | givenUp positive good unlisted notSeed notGood tired =>
    exact ⟨positive, good, unlisted, notSeed, notGood, tired⟩

theorem applyOffer_allowed (moved : m ∈ (applyOffer env o text l).moves) :
    m ∈ l.moves ∨ Allowed o l m.serial := by
  cases applyOffer_settles fresh with
  | quiet moves => exact .inl (moves ▸ moved)
  | moved _ _ kinds => exact (kinds m moved).imp_right And.right
  | givenUp _ _ _ _ _ _ _ kinds => exact kinds m moved

/-- A run that got to its end and moved to a package at last counts at most one try for it,
and none if it was judged good. -/
theorem applyOffer_moved (alive : (applyOffer env o text l).boot.dead = false)
    (last : (applyOffer env o text l).moves.getLast? = some m) (new : m ∉ l.moves) :
    (applyOffer env o text l).st.tries ≤ 1 ∧
      (m.serial ∈ o.good → (applyOffer env o text l).st.good = m.serial ∨
        (applyOffer env o text l).st.tries ≤ 0) := by
  cases applyOffer_settles fresh with
  | quiet moves => exact absurd (moves ▸ mem_of_getLast? last) new
  | moved tries marked _ isLast =>
    obtain ⟨m', last', serial⟩ := isLast alive
    rw [last, Option.some.injEq] at last'
    subst last'
    rw [serial]
    exact ⟨tries, fun good => .inl (marked good)⟩
  | givenUp _ _ _ _ _ _ tries => exact ⟨by omega, fun _ => .inr tries.le⟩

/-- A run that got to its end without a move: the counter goes up by one at most, and only for
a package the offer says nothing about. -/
theorem applyOffer_quiet (alive : (applyOffer env o text l).boot.dead = false)
    (still : (applyOffer env o text l).moves = []) :
    (applyOffer env o text l).st.seed = l.st.seed ∧
      (l.cur ∈ o.good ∧ (applyOffer env o text l).st.good = l.cur ∨
        l.cur ∉ o.good ∧ (applyOffer env o text l).st.good = l.st.good ∧
          ((applyOffer env o text l).st.tries = l.st.tries ∨
            (applyOffer env o text l).st.tries = l.st.tries + 1 ∧ 0 ≤ l.cur ∧
              l.cur ∉ badAfter o l.st)) := by
  cases applyOffer_settles fresh with
  | quiet _ seed state => exact ⟨seed, state⟩
  | moved _ _ _ isLast =>
    obtain ⟨m, last, -⟩ := isLast alive
    rw [still] at last
    cases last
  | givenUp _ _ _ _ _ _ _ _ spent => exact absurd still (spent alive)
end

/-! ## Over many boots -/

namespace Run

/-- The offer a run reads, if it is well formed. -/
def offer (r : Run) : Option Offer :=
  match pullOffer r.env.host with
  | .ok text => parseOffer text
  | .error _ => none

/-- The host has a verdict on a package. -/
def judges (r : Run) (p : Int) : Bool := r.offer.any fun o => p ∈ o.good || p ∈ o.bad

/-- A run started with a package and left it for lack of a verdict. -/
def GivesUp (r : Run) (d : Disk) (p : Int) : Prop :=
  currentSerial d = p ∧ ∃ m ∈ r.moves d, m.why = .tries

/-- When the offer judges a package good that the run may move to, the power stays on and the
state is saved; and no bad verdict of the offer is pushed off the list by its later ones. -/
def Steady (r : Run) (d : Disk) : Prop :=
  ∀ o ∈ r.offer,
    (∀ s ∈ o.good, s ∈ wanted o (recover r.env (r.start d)).st ::
        (recover r.env (r.start d)).st.order → s ≠ (recover r.env (r.start d)).cur →
      r.power = none ∧ r.env.fails .saveState = false) ∧
    ∀ s ∈ o.bad, s ≠ (recover r.env (r.start d)).st.seed →
      s ∈ badAfter o (recover r.env (r.start d)).st

end Run

/-- What a run does to its locals: nothing without a well-formed offer. -/
theorem pullAndApply_cases :
    (r.offer = none ∧ ∃ code, pullAndApply r.env l = { l with result := code }) ∨
      ∃ text o, r.offer = some o ∧ pullAndApply r.env l = applyOffer r.env o text l := by
  unfold Run.offer pullAndApply
  cases pulled : pullOffer r.env.host with
  | error code => exact .inl ⟨rfl, l.result, rfl⟩
  | ok text =>
    dsimp only
    cases parsed : parseOffer text with
    | none => exact .inl ⟨rfl, _, rfl⟩
    | some o => exact .inr ⟨text, o, rfl, rfl⟩

theorem offer_checked (offered : r.offer = some o) : o.Checked := by
  unfold Run.offer at offered
  split at offered
  · exact parseOffer_checked offered
  · cases offered

theorem judges_of_offer (offered : r.offer = some o) :
    r.judges p = true ↔ p ∈ o.good ∨ p ∈ o.bad := by
  simp [Run.judges, offered]

/-- A package on neither list of verdicts is not judged, when no verdict is pushed off. -/
theorem Run.Steady.not_judges (steady : r.Steady d) (offered : r.offer = some o)
    (notGood : p ∉ o.good) (notSeed : p ≠ (r.recovered d).st.seed)
    (free : p ∉ badAfter o (r.recovered d).st) : r.judges p = false := by
  cases judged : r.judges p with
  | false => rfl
  | true =>
    rcases (judges_of_offer offered).mp judged with good | bad
    · exact absurd good notGood
    · exact absurd ((steady o offered).2 p bad notSeed) free

theorem recover_moves_why :
    ∀ m ∈ (recover env b).moves, m.why = .recover := by
  have outcome := recover_outcome env b
  generalize recover env b = l at outcome ⊢
  cases outcome with
  | sound _ => simp
  | recovered seed _ _ _ _ =>
    intro m member
    rw [(mem_movesOf member).2]
  | unusable _ => simp

/-- Giving up: the run began with the package, whose tries were used up, and the offer is
silent about it. -/
theorem Run.GivesUp.spec (givesUp : r.GivesUp d p) :
    ∃ o, r.offer = some o ∧ 0 ≤ p ∧ p ∉ o.good ∧
      (r.recovered d).st = bootState d.state p ∧
      p ∉ badAfter o (bootState d.state p) ∧ p ≠ (bootState d.state p).seed ∧
      p ≠ (bootState d.state p).good ∧ maxTries ≤ (bootState d.state p).tries := by
  obtain ⟨current, m, moved, limit⟩ := givesUp
  rw [r.moves_eq] at moved
  split at moved
  · cases moved
  · have moved : m ∈ (pullAndApply r.env (r.recovered d)).moves := moved
    have before : ∀ m ∈ (r.recovered d).moves, m.why ≠ .tries := by
      intro m member
      rw [recover_moves_why m member]
      decide
    rcases pullAndApply_cases with ⟨-, code, eq⟩ | ⟨text, o, offered, eq⟩
    · rw [eq] at moved
      exact absurd limit (before m moved)
    · rw [eq] at moved
      obtain ⟨positive, good, free, notSeed, notGood, tired⟩ :=
        applyOffer_limit (r.recovered_verdict d) before moved limit
      obtain ⟨cur, st⟩ : (r.recovered d).cur = p ∧
          (r.recovered d).st = bootState d.state p := by
        have outcome := r.recovered_outcome d
        generalize r.recovered d = l at positive notSeed outcome ⊢
        cases outcome with
        | sound _ =>
          refine ⟨current, ?_⟩
          have same : currentSerial (r.start d).disk = p := current
          rw [same]
          rfl
        | recovered seed isSeed _ _ _ => exact absurd (bootState_self isSeed).symm notSeed
        | unusable _ =>
          dsimp only at positive
          omega
      rw [cur] at positive good free notSeed notGood
      rw [st] at free notSeed notGood tired
      exact ⟨o, offered, positive, good, st, free, notSeed, notGood, tired⟩

/-- The state file spares a package that had `k` boots without a verdict. -/
def Spared (d : Disk) (p : Int) (k : Nat) : Prop :=
  (bootState d.state p).seed = p ∨ (bootState d.state p).good = p ∨ (bootState d.state p).tries ≤ k

theorem Spared.mono {k' : Nat} (spared : Spared d p k) (more : k ≤ k') : Spared d p k' := by
  rcases spared with seed | good | tries
  · exact .inl seed
  · exact .inr (.inl good)
  · exact .inr (.inr (by omega))

/-- What the next run loads after a run that was saved. -/
theorem spared_saved (saves : r.Saves d)
    (spared : (r.locals d).st.seed = p ∨ (r.locals d).st.good = p ∨ (r.locals d).st.tries ≤ k) :
    Spared (r.final d) p k := by
  obtain ⟨hooks, loaded⟩ := Run.loads_saved saves
  have present : (loadState (r.final d).state).2 := by rw [loaded]
  unfold Spared
  rw [bootState_seed present, loaded]
  exact spared

theorem spared_lost (lost : ¬ r.Saves d) (spared : Spared d p k) : Spared (r.final d) p k := by
  unfold Spared
  rw [Run.final_state_lost lost]
  exact spared

theorem moves_closed : Closed env (fun l => m ∈ l.moves) :=
  closed_of_flips (Q := fun _ _ moves => m ∈ moves) (fun _ member => member)
    fun _ _ _ _ member => mem_append_left _ member

/-- How a run that saved without a move began: with the package `current` names, or with none. -/
theorem recover_quiet (alive : (r.locals d).boot.dead = false) (still : (r.locals d).moves = []) :
    ((r.recovered d).cur = currentSerial d ∧
        (r.recovered d).st = bootState d.state (currentSerial d)) ∨
      ((r.recovered d).cur = -1 ∧
        (r.recovered d).st = bootState d.state (-1)) := by
  have none : ∀ m, m ∉ (r.recovered d).moves := by
    intro m member
    have kept : m ∈ (r.locals d).moves := moves_closed.pullAndApply member
    rw [still] at kept
    cases kept
  have later := ((pullAndApply_later r.env (r.recovered d)).trans
    (activate_keeps r.env (r.recovered d).cur _).toLater)
  have alive := alive_of_later later alive
  have outcome := r.recovered_outcome d
  generalize r.recovered d = l at none alive outcome ⊢
  cases outcome with
  | sound _ => exact .inl ⟨rfl, rfl⟩
  | recovered seed _ _ _ _ =>
    rw [movesOf_alive (alive_of_later flip_later alive)] at none
    exact absurd mem_cons_self (none _)
  | unusable _ => exact .inr ⟨rfl, rfl⟩

/-- A boot with a package that does not move spares it for one more boot, or for as many as
before when the host judged it. -/
theorem Run.spared_quiet (current : currentSerial d = p) (still : r.moves d = [])
    (steady : r.Steady d) (spared : Spared d p k) :
    Spared (r.final d) p (k + if r.judges p then 0 else 1) := by
  by_cases saves : r.Saves d
  · obtain ⟨writable, -, alive⟩ := id saves
    rw [r.moves_eq, if_neg (by simp [writable])] at still
    have start := recover_quiet alive still
    rw [current] at start
    obtain ⟨hooks, eq⟩ := r.locals_state d
    have alive : (pullAndApply r.env (r.recovered d)).boot.dead = false :=
      alive_of_later (activate_keeps ..).toLater alive
    have still : (pullAndApply r.env (r.recovered d)).moves = [] := still
    apply spared_saved saves
    rw [eq]
    -- without a file the counter is at 0
    have old : (r.recovered d).st.seed = p ∨ (r.recovered d).st.good = p ∨
        (r.recovered d).st.tries ≤ k := by
      rcases start with ⟨-, st⟩ | ⟨-, st⟩
      · rw [st]
        exact spared
      · rw [st]
        cases file : d.state with
        | none => exact .inr (.inr (by simp [bootState, loadState]))
        | some data =>
          have same : bootState (some data) (-1) = bootState (some data) p := rfl
          rw [same, ← file]
          exact spared
    have more : (r.recovered d).st.tries ≤ k →
        (r.recovered d).st.tries ≤ ((k + if r.judges p then 0 else 1 : Nat) : Int) := by
      omega
    rcases pullAndApply_cases with ⟨-, code, run⟩ | ⟨text, o, offered, run⟩
    · rw [run]
      exact old.imp_right (Or.imp_right more)
    · rw [run] at alive still ⊢
      obtain ⟨seed, state⟩ := applyOffer_quiet (r.recovered_verdict d) alive still
      by_cases isSeed : (r.recovered d).st.seed = p
      · exact .inl (seed.trans isSeed)
      · rcases state with ⟨judged, good⟩ | ⟨notGood, good, tries⟩
        · rcases start with ⟨cur, -⟩ | ⟨none, -⟩
          · exact .inr (.inl (good.trans cur))
          · have serial := (offer_checked offered).good _ judged
            rw [none] at serial
            exact absurd serial.1 (by omega)
        · rcases old with same | isGood | few
          · exact absurd same isSeed
          · exact .inr (.inl (good.trans isGood))
          · refine .inr (.inr ?_)
            dsimp only
            rcases tries with same | ⟨counted, positive, free⟩
            · rw [same]
              exact more few
            · rcases start with ⟨cur, -⟩ | ⟨none, -⟩
              · rw [cur] at notGood free
                rw [steady.not_judges offered notGood (Ne.symm isSeed) free, counted]
                simp only [Bool.false_eq_true, if_false]
                omega
              · omega
  · exact spared_lost saves (spared.mono (by omega))

section

variable (became : (r.moves d).getLast?.map (·.serial) = some p)
include became

/-- A saved run that ends up with a package spares it for its first boot. -/
theorem Run.spared_moved (steady : r.Steady d) (saves : r.Saves d) :
    Spared (r.final d) p (if r.judges p then 0 else 1) := by
  obtain ⟨m, last, serial⟩ := Option.map_eq_some_iff.mp became
  subst serial
  obtain ⟨writable, -, alive⟩ := id saves
  rw [r.moves_eq, if_neg (by simp [writable])] at last
  have logged := r.logged d
  apply spared_saved saves
  by_cases isSeed : m.serial = (r.recovered d).st.seed
  · exact .inl (logged.seed.trans isSeed.symm)
  · obtain ⟨hooks, eq⟩ := r.locals_state d
    have alive : (pullAndApply r.env (r.recovered d)).boot.dead = false :=
      alive_of_later (activate_keeps ..).toLater alive
    have last : (pullAndApply r.env (r.recovered d)).moves.getLast? = some m := last
    have new : m ∉ (r.recovered d).moves := by
      intro member
      apply isSeed
      exact (recover_logged r.env (r.start d)).recovery m member (recover_moves_why m member)
    rw [eq]
    rcases pullAndApply_cases with ⟨-, code, run⟩ | ⟨text, o, offered, run⟩
    · rw [run] at last
      exact absurd (mem_of_getLast? last) new
    · rw [run] at alive last ⊢
      have fresh := r.recovered_verdict d
      obtain ⟨tries, marked⟩ := applyOffer_moved fresh alive last new
      rcases applyOffer_allowed fresh (mem_of_getLast? last) with old | ⟨free, -⟩
      · exact absurd old new
      · refine .inr ?_
        by_cases good : m.serial ∈ o.good
        · rw [(judges_of_offer offered).mpr (.inl good)]
          exact marked good
        · rw [steady.not_judges offered good isSeed free]
          exact .inr tries

/-- The package a run ends up with is the seed it recovered to, or one the offer may move to. -/
theorem Run.became_cases :
    r.env.readonly = false ∧
      ((r.recovered d).moves ≠ [] ∧ p = (r.recovered d).st.seed ∨
        ∃ o, r.offer = some o ∧ Allowed o (r.recovered d) p) := by
  obtain ⟨m, last, serial⟩ := Option.map_eq_some_iff.mp became
  subst serial
  rw [r.moves_eq] at last
  by_cases readonly : r.env.readonly
  · rw [if_pos readonly] at last
    cases last
  · rw [if_neg readonly] at last
    refine ⟨by simpa using readonly, ?_⟩
    have moved : m ∈ (pullAndApply r.env (r.recovered d)).moves :=
      mem_of_getLast? last
    have old : m ∈ (r.recovered d).moves → (r.recovered d).moves ≠ [] ∧
        m.serial = (r.recovered d).st.seed := fun member =>
      ⟨ne_nil_of_mem member, (recover_logged r.env (r.start d)).recovery m member
        (recover_moves_why m member)⟩
    rcases pullAndApply_cases with ⟨-, code, run⟩ | ⟨text, o, offered, run⟩
    · rw [run] at moved
      exact .inl (old moved)
    · rw [run] at moved
      rcases applyOffer_allowed (r.recovered_verdict d) moved with member | allowed
      · exact .inl (old member)
      · exact .inr ⟨o, offered, allowed⟩

/-- A run that was cut off or could not save, and judged the package it ends up with, moved to
the seed. -/
theorem Run.judged_lost (steady : r.Steady d) (lost : ¬ r.Saves d) (judged : r.judges p) :
    p = (r.recovered d).st.seed := by
  by_contra notSeed
  obtain ⟨writable, ⟨-, isSeed⟩ | ⟨o, offered, free, target, other⟩⟩ := Run.became_cases became
  · exact notSeed isSeed
  have good : p ∈ o.good := by
    by_contra notGood
    rw [steady.not_judges offered notGood notSeed free] at judged
    cases judged
  obtain ⟨on, works⟩ := (steady o offered).1 p good target other
  have running : (r.locals d).boot.power = none := (runLocals_later r.env (r.start d)).power on
  exact lost ⟨writable, works, Boot.dead_of_power running⟩

theorem Run.seed_present (positive : 0 ≤ p) (isSeed : p = (r.recovered d).st.seed) :
    (loadState d.state).2 := by
  cases file : d.state with
  | some data => rfl
  | none =>
    have minus : (loadState (r.start d).disk.state).1.seed = -1 := by
      have same : (r.start d).disk.state = none := file
      rw [same]
      rfl
    obtain ⟨-, cases'⟩ := Run.became_cases became
    have outcome := r.recovered_outcome d
    generalize r.recovered d = l at isSeed cases' outcome
    cases outcome with
    | sound _ =>
      have own : p = currentSerial (r.start d).disk := by
        have same : (r.start d).disk.state = none := file
        rw [isSeed, same]
        rfl
      rcases cases' with ⟨some, -⟩ | ⟨o, -, -, -, other⟩
      · exact absurd rfl some
      · exact absurd own other
    | recovered seed isLoaded _ ok _ =>
      have serial := (pkgOk_isSerial ok).1
      omega
    | unusable _ =>
      have same : (r.start d).disk.state = none := file
      rw [same] at isSeed
      have : p = -1 := isSeed
      omega
end

/-- A package that is left and never moved to does not come back. -/
theorem Disk.after_ne {runs : List Run} (other : currentSerial d ≠ p)
    (never : d.Along (fun r e => ∀ m ∈ r.moves e, m.serial ≠ p) runs) :
    currentSerial (d.after runs) ≠ p := by
  induction runs generalizing d with
  | nil => exact other
  | cons r runs ih =>
    obtain ⟨first, rest⟩ := never
    refine ih ?_ rest
    rw [r.final_current]
    cases last : (r.moves d).getLast? with
    | none => exact other
    | some m => exact first m (mem_of_getLast? last)

theorem Disk.spared_after {runs : List Run} (current : currentSerial d = p)
    (still : currentSerial (d.after runs) = p)
    (never : d.Along (fun r e => ∀ m ∈ r.moves e, m.serial ≠ p) runs)
    (steady : d.Along Run.Steady runs) (spared : Spared d p k) :
    Spared (d.after runs) p (k + runs.countP fun r => !r.judges p) := by
  induction runs generalizing d k with
  | nil => exact spared
  | cons r runs ih =>
    obtain ⟨first, rest⟩ := never
    have still : currentSerial ((r.final d).after runs) = p := still
    have moves : r.moves d = [] := by
      cases last : (r.moves d).getLast? with
      | none => exact getLast?_eq_none_iff.mp last
      | some m =>
        have away : currentSerial (r.final d) ≠ p := by
          rw [r.final_current, last]
          exact first m (mem_of_getLast? last)
        exact absurd still (Disk.after_ne away rest)
    have current' : currentSerial (r.final d) = p := by
      rw [r.final_current, moves]
      exact current
    have next := ih current' still rest steady.2 (r.spared_quiet current moves steady.1 spared)
    refine next.mono ?_
    rw [countP_cons]
    cases r.judges p with
    | true => simp
    | false => simp; omega

/-- A package is given up for lack of a verdict only after two boots without one, counted from
the run that made it current to the one that leaves it, as long as every run is steady. When
the run that made it current was saved, there were two before the run that leaves it. -/
theorem given_up_after_two_boots (d : Disk) (first : Run) (between : List Run) (last : Run)
    (p : Int) (became : (first.moves d).getLast?.map (·.serial) = some p)
    (never : (first.final d).Along (fun r e => ∀ m ∈ r.moves e, m.serial ≠ p) between)
    (givesUp : last.GivesUp ((first.final d).after between) p)
    (steady : d.Along Run.Steady (first :: between ++ [last])) :
    maxTries ≤ (first :: between ++ [last]).countP (fun r => !r.judges p) ∧
      (first.Saves d → maxTries ≤ (first :: between).countP fun r => !r.judges p) := by
  obtain ⟨steadyFirst, steadyRest⟩ := steady
  obtain ⟨steadyBetween, steadyLast, -⟩ := Disk.along_append.mp steadyRest
  obtain ⟨o, offered, positive, notGood, start, free, notSeed, notGood', tired⟩ := givesUp.spec
  have lastSilent : last.judges p = false := by
    rw [← start] at notSeed free
    exact steadyLast.not_judges offered notGood notSeed free
  have current : currentSerial (first.final d) = p := by
    rw [first.final_current, became]
    rfl
  have saved : first.Saves d → maxTries ≤ (first :: between).countP fun r => !r.judges p := by
    intro saves
    have spared := Disk.spared_after current givesUp.1 never steadyBetween
      (first.spared_moved became steadyFirst saves)
    rcases spared with seed | good | tries
    · exact absurd seed.symm notSeed
    · exact absurd good.symm notGood'
    rw [countP_cons]
    cases judged : first.judges p with
    | true =>
      simp only [judged, if_true] at tries
      simp only [Bool.not_true, Bool.false_eq_true, if_false]
      omega
    | false =>
      simp only [judged, Bool.false_eq_true, if_false] at tries
      simp only [Bool.not_false, if_true]
      omega
  refine ⟨?_, saved⟩
  rw [countP_append, countP_singleton, lastSilent]
  by_cases saves : first.Saves d
  · have two := saved saves
    simp only [Bool.not_false, if_true]
    omega
  -- a run that was cut off after moving to the package did not judge it
  have firstSilent : first.judges p = false := by
    cases judged : first.judges p with
    | false => rfl
    | true =>
      have isSeed := first.judged_lost became steadyFirst saves judged
      have present := first.seed_present became positive isSeed
      have loaded : (recover first.env (first.start d)).st = (loadState d.state).1 :=
        recover_state present
      rw [← Run.final_state_lost saves] at present
      obtain ⟨present', seed⟩ := (first.final d).after_seed between present
      rw [bootState_seed present', seed, Run.final_state_lost saves, ← loaded] at notSeed
      exact absurd isSeed notSeed
  rw [countP_cons, firstSilent]
  simp only [Bool.not_false, if_true]
  have two : maxTries = 2 := rfl
  omega

/-- Package 11 is offered again and again and never judged. -/
def elevenOffered : Run := ⟨offerEnv (ascii "ltpkg 1\nserial 11\n") [], none⟩

def seedOnly : Disk := bareDisk (ascii "seed 10\n") (ascii "pkgs/10") [10, 11]

theorem eleven_given_up :
    maxTries ≤ [elevenOffered, elevenOffered, elevenOffered].countP (fun r => !r.judges 11) ∧
      (elevenOffered.Saves seedOnly →
        maxTries ≤ [elevenOffered, elevenOffered].countP fun r => !r.judges 11) := by
  apply given_up_after_two_boots seedOnly elevenOffered [elevenOffered] elevenOffered 11
  · decide +kernel
  · unfold Disk.Along Disk.Along
    decide +kernel
  · unfold Run.GivesUp
    decide +kernel
  · have silent : ∀ d, elevenOffered.Steady d := by
      intro d o offered
      have good : ∀ o ∈ elevenOffered.offer, o.good = [] ∧ o.bad = [] := by decide +kernel
      simp [good o offered]
    exact ⟨silent _, silent _, silent _, trivial⟩

/-- The tries of 13 are used up when 14 is offered and judged good. -/
def tiredDisk : Disk :=
  bareDisk (ascii "seed 10\ntries 2\n") (ascii "pkgs/13") [10, 13, 14]

/-- The power is cut right after the flip to 14. -/
def judgedAndCut : Run :=
  ⟨offerEnv (ascii "ltpkg 1\nserial 14\nverdict good 14\n") [], some 2⟩

def fourteenOffered : Run := ⟨offerEnv (ascii "ltpkg 1\nserial 14\n") [], none⟩

/-- The counter of 13 is applied to 14, which the host judged good when it was installed: it is
given up and put on the bad list in its first boot without a verdict. -/
theorem given_up_after_one_boot :
    (judgedAndCut.moves tiredDisk).getLast?.map (·.serial) = some 14 ∧
      fourteenOffered.GivesUp (judgedAndCut.final tiredDisk) 14 ∧
      (fourteenOffered.locals (judgedAndCut.final tiredDisk)).added = [14] ∧
      [judgedAndCut, fourteenOffered].countP (fun r => !r.judges 14) = 1 := by
  unfold Run.GivesUp
  decide +kernel

end QemuIos.ItBoot

import QemuIos.Baseband.Proofs.Steps
import QemuIos.Lib.Trace

/-!
# Calls

Calls have ids of their own until the 32-bit counter comes round to the id of a call that is still
there. At most one is active until one is answered while another is: only `+CHLD=2` puts the others
on hold first; `ATA`, the remote party's answer and the answers of a tick do not.
-/

namespace QemuIos.Baseband
open CText List Function Option Call

variable {m m' : Modem} {i : Nat} {number arg : Bytes} {stat : CallStat} {c : Call}
  {s : Modem × Bool}

/-! ## One slot at a time -/

def Call.progressed (c : Call) (stat : CallStat) : Call :=
  { c with stat, next := .none, dueMs := 0 }

def Call.isActive (c : Call) : Bool := c.used && c.stat = .active

def Call.isHeld (c : Call) : Bool := c.used && c.stat = .held

/-- A loop over the slots whose turns change their own slot only, as long as something holds that
the turns keep. -/
theorem forEach_calls {f : Nat → Modem → Out} {g : Nat → Call → Call} {p : Modem → Prop}
    (each : ∀ i m, p m → p (f i m).1 ∧
      (f i m).1.calls = update m.calls i (g i (m.calls i))) (n : Nat) (first : p m) :
    p (forEach (range n) f m).1 ∧ ∀ i, (forEach (range n) f m).1.calls i =
      if i < n then g i (m.calls i) else m.calls i := by
  induction n with
  | zero => exact ⟨first, fun i => rfl⟩
  | succ n ih =>
    obtain ⟨kept, calls⟩ := ih
    have last : forEach (range (n + 1)) f m =
        (forEach (range n) f m).andThen (f n) := by
      simp only [forEach, range_succ, foldl_append, foldl_cons, foldl_nil]
    obtain ⟨kept', turn⟩ := each n _ kept
    rw [last]
    refine ⟨kept', fun i => ?_⟩
    show (f n (forEach (range n) f m).1).1.calls i = _
    rw [turn]
    by_cases same : i = n
    · subst same
      rw [update_self, calls, if_neg (lt_irrefl i), if_pos (Nat.lt_succ_self i)]
    · rw [update_of_ne same, calls]
      have bound : i < n + 1 ↔ i < n := by omega
      simp only [bound]

/-- The same over all the slots, with no new id. -/
theorem forEach_slots {f : Nat → Modem → Out} {g : Nat → Call → Call}
    (each : ∀ i m, (f i m).1.nextCallId = m.nextCallId ∧
      (f i m).1.calls = update m.calls i (g i (m.calls i))) (m : Modem) :
    (forEach (range maxCalls) f m).1.nextCallId = m.nextCallId ∧
      ∀ i < maxCalls, (forEach (range maxCalls) f m).1.calls i = g i (m.calls i) := by
  obtain ⟨next, calls⟩ := forEach_calls (p := fun m' => m'.nextCallId = m.nextCallId)
    (fun i m' same => ⟨(each i m').1.trans same, (each i m').2⟩) maxCalls rfl
  exact ⟨next, fun i inside => (calls i).trans (if_pos inside)⟩

/-- A turn that changes its slot or does nothing. -/
theorem calls_ite {c : Prop} [Decidable c] {a b : Out} {calls : Nat → Call} {x y : Call}
    (yes : c → a.1.calls = update calls i x)
    (no : ¬ c → b.1.calls = update calls i y) :
    (if c then a else b).1.calls = update calls i (if c then x else y) := by
  split
  · next holds => exact yes holds
  · next fails => exact no fails

/-! ## What may happen to the calls -/

/-- Every call goes on as it is or is released. -/
structure Frees (m m' : Modem) : Prop where
  nextCallId : m'.nextCallId = m.nextCallId
  calls : ∀ i < maxCalls, m'.calls i = m.calls i ∨ (m'.calls i).used = false

/-- A call that is not active yet takes a free slot and the next id. -/
structure Adds (m m' : Modem) : Prop where
  nextCallId : m'.nextCallId = m.nextCallId + 1
  slot : ∃ i < maxCalls, (m.calls i).used = false ∧
    ((m'.calls i).used = true ∧ (m'.calls i).id = m.nextCallId) ∧
    (m'.calls i).stat ≠ .active ∧ ∀ j, j ≠ i → m'.calls j = m.calls j

namespace Frees

variable {m m' : Modem}

theorem of_same (calls : m'.calls = m.calls) (nextCallId : m'.nextCallId = m.nextCallId) :
    Frees m m' :=
  ⟨nextCallId, fun i _ => .inl (congrFun calls i)⟩

theorem refl (m : Modem) : Frees m m := of_same rfl rfl

theorem trans {m₁ m₂ m₃ : Modem} (first : Frees m₁ m₂) (second : Frees m₂ m₃) : Frees m₁ m₃ where
  nextCallId := second.nextCallId.trans first.nextCallId
  calls i inside := by
    rcases second.calls i inside with same | gone
    · rw [same]
      exact first.calls i inside
    · exact .inr gone

end Frees

theorem frees_callRelease (i : Nat) (m : Modem) : Frees m (callRelease i m).1 where
  nextCallId := rfl
  calls j _ := by
    show update m.calls i _ j = _ ∨ (update m.calls i _ j).used = false
    by_cases same : j = i
    · rw [same, update_self]
      exact .inr rfl
    · rw [update_of_ne same]
      exact .inl rfl

theorem frees_learnChannel (m : Modem) (ch : Nat) (cmd : Bytes) :
    Frees m (learnChannel m ch cmd) := by
  unfold learnChannel
  repeat' split
  all_goals exact .of_same rfl rfl

variable (ch : Nat)

theorem Frees.walk : FullWalk ch Frees where
  refl := .refl
  trans := .trans
  rest _ := .of_same
  chan _ _ _ _ _ := .of_same rfl rfl
  release := frees_callRelease
  temperature _ _ := .of_same rfl rfl
  zone _ _ := .of_same rfl rfl
  reg _ _ _ _ _ := .of_same rfl rfl
  startMux _ := .of_same rfl rfl
  sim _ _ _ := .of_same rfl rfl
  learn m cmd := frees_learnChannel m ch cmd
  gps _ _ _ := .of_same rfl rfl

theorem frees_releaseAll (p : Call → Bool) (m : Modem) : Frees m (releaseAll p m).1 :=
  (Frees.walk 0).releaseAll m p

variable (host : Host)

theorem frees_plusCommand (mode : Mode) (m : Modem) (ch : Nat) {cmd : Bytes}
    (other : argAfter cmd (ascii "chld") = none) : Frees m (plusCommand host mode m ch cmd).1 := by
  refine (Frees.walk ch).plusCommand m mode (fun _ _ _ => .of_same rfl rfl) fun m arg isArg => ?_
  rw [other] at isArg
  cases isArg

theorem callNew_some {mt : Bool} (made : callNew m mt number stat = some (m', i)) :
    i < maxCalls ∧ (m.calls i).used = false ∧ m' = { m with
      nextCallId := m.nextCallId + 1
      calls := update m.calls i
        { used := true, mt, id := m.nextCallId, stat, number := number.take 31 } } := by
  unfold callNew at made
  split at made
  · cases made
  · next free =>
    obtain ⟨rfl, rfl⟩ := Prod.mk.inj (some.inj made)
    have inside := mem_of_find?_eq_some free
    have unused := find?_some free
    exact ⟨mem_range.mp inside, by simpa using unused, rfl⟩

theorem adds_callNew {mt : Bool} (made : callNew m mt number stat = some (m', i)) {m'' : Modem}
    (next : m''.nextCallId = m'.nextCallId) (calls : m''.calls = update m'.calls i c)
    (kept : c.used = (m'.calls i).used ∧ c.id = (m'.calls i).id ∧ c.stat = (m'.calls i).stat)
    (inactive : stat ≠ .active) : Adds m m'' := by
  obtain ⟨inside, free, rfl⟩ := callNew_some made
  obtain ⟨used, id, sameStat⟩ := kept
  simp only [update_self] at used id sameStat
  refine ⟨next, i, inside, free, ?_, ?_, ?_⟩
  · rw [calls, update_self, used, id]
    exact ⟨rfl, rfl⟩
  · rw [calls, update_self, sameStat]
    exact inactive
  · intro j other
    rw [calls, update_of_ne other]
    exact update_of_ne other _ _

theorem adds_incomingCall {o : Out} (accepted : incomingCall m number = some o) : Adds m o.1 := by
  obtain ⟨number', m', i, made, rfl⟩ := incomingCall_some accepted
  exact adds_callNew made rfl rfl ⟨rfl, rfl, rfl⟩ (by decide)

theorem dialCommand_calls (num : Bytes) :
    Frees m (dialCommand m ch num).1 ∨ Adds m (dialCommand m ch num).1 := by
  unfold dialCommand
  dsimp only
  generalize (if isEmergencyNumber (dialNumber num []) = true then radioOk m else serviceOk m) =
    healthy
  split
  · exact .inl (.refl m)
  · split
    · exact .inl (.refl m)
    · next made => exact .inr (adds_callNew made rfl rfl ⟨rfl, rfl, rfl⟩ (by decide))

/-- `+CHLD` is found behind the commands in front of it. -/
theorem plusCommand_chld (mode : Mode) (ch : Nat) :
    plusCommand host mode m ch (ascii "chld" ++ arg) =
      chldCommand (learnChannel m ch (ascii "chld" ++ arg)) ch
        (if arg.head? = some 61 then some (arg.drop 1) else none) := by
  rfl

/-! ## The turn of a call in a tick -/

/-- What `ios_bb_tick` makes of a call. -/
def Call.ticked (m : Modem) (c : Call) : Call :=
  if !c.used then c
  else if c.next = .ring ∧ c.dueMs ≤ m.nowMs then
    if 0 < m.s0 ∧ m.s0 ≤ c.rings + 1 then { c with rings := c.rings + 1 }.progressed .active
    else { c with rings := c.rings + 1, dueMs := m.nowMs + 3000 }
  else if c.dueMs ≤ m.nowMs then
    match c.next with
    | .stat .alerting =>
      if 0 ≤ m.answerDelayMs then
        { c with
          stat := .alerting, next := .stat .active
          dueMs := m.nowMs + if m.answerDelayMs ≠ 0 then m.answerDelayMs else 100 }
      else { c with stat := .alerting, next := .none }
    | .stat .active => c.progressed .active
    | .stat _ => { c with next := .none }
    | _ => c
  else c

theorem callTick_fst (i : Nat) (m : Modem) :
    (callTick i m).1 = { m with calls := update m.calls i ((m.calls i).ticked m) } := by
  have still : m = { m with calls := update m.calls i (m.calls i) } := by
    rw [update_eq_self]
  have rung : (m.setCall i { m.calls i with rings := (m.calls i).rings + 1 }).calls i =
      { m.calls i with rings := (m.calls i).rings + 1 } := update_self ..
  unfold callTick ticked
  dsimp only
  by_cases used : (!(m.calls i).used) = true
  · simp only [if_pos used]
    exact still
  simp only [if_neg used]
  by_cases rings : (m.calls i).next = .ring ∧ (m.calls i).dueMs ≤ m.nowMs
  · -- rung again, and answered by the host's own setting or left ringing
    have setting : ∀ c, (m.setCall i c).s0 = m.s0 := fun _ => rfl
    simp only [if_pos rings, Out.andThen, rung, setting]
    by_cases answered : 0 < m.s0 ∧ m.s0 ≤ (m.calls i).rings + 1
    · simp only [if_pos answered, callProgress, rung]
      simp only [Modem.setCall, update_idem, progressed]
    · simp only [if_neg answered]
      simp only [Modem.setCall, update_idem]
  · simp only [if_neg rings]
    by_cases isDue : (m.calls i).dueMs ≤ m.nowMs
    · simp only [if_pos isDue]
      cases next : (m.calls i).next with
      | none => exact still
      | ring => exact still
      | stat stat =>
        cases stat with
        | alerting =>
          dsimp only
          split
          · rfl
          · rfl
        | active => rfl
        | held | dialing | incoming | waiting | released => rfl
    · simp only [if_neg isDue]
      exact still

/-- An answer is due: the remote party's, or the modem's own after so many rings. -/
def Call.answerDue (m : Modem) (c : Call) : Bool :=
  c.dueMs ≤ m.nowMs &&
    (c.next = .stat .active || (c.next = .ring && 0 < m.s0 && m.s0 ≤ c.rings + 1))

/-- A call after a change that gives nothing a new id and leaves nothing to an active call. -/
structure Call.Goes (c c' : Call) : Prop where
  used : c'.used = true → c.used = true ∧ c'.id = c.id
  settled : (c.isActive = true → c.next = .none) → c'.isActive = true → c'.next = .none

namespace Call.Goes

theorem refl (c : Call) : c.Goes c := ⟨fun used => ⟨used, rfl⟩, fun settled => settled⟩

/-- The call waits for nothing any more. -/
theorem of_next {c' : Call} (used : c'.used = c.used) (id : c'.id = c.id) (next : c'.next = .none) :
    c.Goes c' :=
  ⟨fun now => ⟨used ▸ now, id⟩, fun _ _ => next⟩

theorem progressed (c : Call) (stat : CallStat) : c.Goes (c.progressed stat) := of_next rfl rfl rfl

theorem freed {c c' : Call} (freed : c' = c ∨ c'.used = false) : c.Goes c' := by
  rcases freed with rfl | gone
  · exact refl _
  · exact ⟨fun used => absurd (gone.symm.trans used) nofun, fun _ active => by
      simp [isActive, gone] at active⟩

theorem ite {p : Prop} [Decidable p] {c a b : Call} (yes : c.Goes a) (no : c.Goes b) :
    c.Goes (if p then a else b) := by
  split
  · exact yes
  · exact no

theorem ticked (m : Modem) (c : Call) : c.Goes (c.ticked m) := by
  unfold Call.ticked
  split
  · exact refl c
  · split
    · next rings =>
      refine ite (of_next rfl rfl rfl) ⟨fun used => ⟨used, rfl⟩, fun settled active => ?_⟩
      exact absurd (rings.1.symm.trans (settled active)) nofun
    · refine ite ?_ (refl c)
      split
      · refine ite ⟨fun used => ⟨used, rfl⟩, fun _ active => ?_⟩ (of_next rfl rfl rfl)
        simp [isActive] at active
      · exact progressed c .active
      · exact of_next rfl rfl rfl
      · exact refl c

end Call.Goes

/-- A call is active after its turn if it was or its answer is due. -/
theorem isActive_ticked (settled : c.isActive = true → c.next = .none) :
    (c.ticked m).isActive = (c.isActive || (c.used && c.answerDue m)) := by
  unfold ticked
  cases used : c.used with
  | false => simp [isActive, used]
  | true =>
    rw [if_neg (by simp), Bool.true_and]
    by_cases isDue : c.dueMs ≤ m.nowMs
    · match next : c.next with
      | .none =>
        rw [if_neg (by simp), if_pos isDue]
        simp [answerDue, next]
      | .ring =>
        rw [if_pos ⟨rfl, isDue⟩]
        by_cases answered : 0 < m.s0 ∧ m.s0 ≤ c.rings + 1
        · rw [if_pos answered]
          simp [answerDue, progressed, isActive, used, next, isDue, answered]
        rw [if_neg answered]
        have no : c.answerDue m = false := by
          simpa [answerDue, next, isDue] using answered
        rw [no]
        simp [isActive, used]
      | .stat stat =>
        rw [if_neg (by simp), if_pos isDue]
        -- a call that waits for a state is not active
        have inactive : c.isActive = false := by
          by_contra active
          have done := settled (by simpa using active)
          rw [next] at done
          cases done
        have sameStat : ¬ c.stat = .active := by simpa [isActive, used] using inactive
        rw [inactive, Bool.false_or]
        cases stat with
        | alerting =>
          dsimp only
          split
          · simp [isActive, answerDue, next]
          · simp [isActive, answerDue, next]
        | active => simp [isActive, progressed, answerDue, used, next, isDue]
        | _ => simp [isActive, answerDue, next, sameStat]
    · rw [if_neg fun rings => isDue rings.2, if_neg isDue]
      simp [answerDue, isDue]

/-! ## Ids -/

/-- No call gets a new id, and every call goes on. -/
structure Turns (m m' : Modem) : Prop where
  nextCallId : m'.nextCallId = m.nextCallId
  calls : ∀ i < maxCalls, (m.calls i).Goes (m'.calls i)

theorem Frees.turns (frees : Frees m m') : Turns m m' :=
  ⟨frees.nextCallId, fun i inside => .freed (frees.calls i inside)⟩

/-- Calls have ids of their own. -/
def Modem.distinctIds (m : Modem) : Prop :=
  ∀ i < maxCalls, ∀ j < maxCalls, (m.calls i).used = true → (m.calls j).used = true →
    (m.calls i).id = (m.calls j).id → i = j

/-- And an active call waits for nothing. -/
structure CallsOk (m : Modem) : Prop where
  distinct : m.distinctIds
  settled : ∀ i < maxCalls, (m.calls i).isActive = true → (m.calls i).next = .none

theorem CallsOk.turns (ok : CallsOk m) (turns : Turns m m') : CallsOk m' where
  distinct i first j second usedI usedJ same := by
    obtain ⟨wasI, idI⟩ := (turns.calls i first).used usedI
    obtain ⟨wasJ, idJ⟩ := (turns.calls j second).used usedJ
    rw [idI, idJ] at same
    exact ok.distinct i first j second wasI wasJ same
  settled i inside active := (turns.calls i inside).settled (ok.settled i inside) active

/-! ## Commands about calls -/

def Call.isRinging (c : Call) : Bool := c.used && ringing c

def Modem.anyCall (m : Modem) (p : Call → Bool) : Prop := ∃ i < maxCalls, p (m.calls i) = true

/-- The id that the next call gets is a call's. -/
def Modem.idTaken (m : Modem) : Prop := m.anyCall fun c => c.used && c.id = m.nextCallId

/-- At most one call is of a kind. -/
def Modem.oneCall (m : Modem) (p : Call → Bool) : Prop :=
  ∀ i < maxCalls, ∀ j < maxCalls, p (m.calls i) = true → p (m.calls j) = true → i = j

instance (m : Modem) (p : Call → Bool) : Decidable (m.anyCall p) :=
  inferInstanceAs (Decidable (∃ i < maxCalls, _))

instance (m : Modem) : Decidable m.idTaken := inferInstanceAs (Decidable (m.anyCall _))

instance (m : Modem) (p : Call → Bool) : Decidable (m.oneCall p) :=
  inferInstanceAs (Decidable (∀ i < maxCalls, _))

section
variable {m m' : Modem}

/-- A new call gets an id of its own exactly if no call has it. -/
theorem Adds.distinctIds (adds : Adds m m') (distinct : m.distinctIds) :
    m'.distinctIds ↔ ¬ m.idTaken := by
  obtain ⟨-, slot, inside, free, ⟨used, id⟩, -, others⟩ := adds
  constructor
  · rintro distinct' ⟨i, bound, has⟩
    simp only [Bool.and_eq_true, decide_eq_true_eq] at has
    have other : i ≠ slot := by
      rintro rfl
      exact absurd (free.symm.trans has.1) nofun
    refine other (distinct' i bound slot inside ?_ used ?_)
    · rw [others i other]
      exact has.1
    · rw [others i other, has.2, id]
  · intro fresh i first j second usedI usedJ same
    have old : ∀ k < maxCalls, k ≠ slot → (m'.calls k).used = true →
        (m'.calls k).id ≠ (m'.calls slot).id := by
      intro k bound other usedK has
      rw [others k other] at usedK has
      exact fresh ⟨k, bound, by simp [usedK, has, id]⟩
    by_cases newI : i = slot
    · by_contra apart
      exact old j second (fun newJ => apart (newI.trans newJ.symm)) usedJ (newI ▸ same.symm)
    · by_cases newJ : j = slot
      · exact absurd (newJ ▸ same) (old i first newI usedI)
      · rw [others i newI] at usedI same
        rw [others j newJ] at usedJ same
        exact distinct i first j second usedI usedJ same

theorem CallsOk.adds (ok : CallsOk m) (adds : Adds m m') (fresh : ¬ m.idTaken) : CallsOk m' where
  distinct := (adds.distinctIds ok.distinct).mpr fresh
  settled i bound active := by
    obtain ⟨-, slot, -, -, -, inactive, others⟩ := adds
    by_cases isNew : i = slot
    · simp [isNew, isActive, inactive] at active
    · rw [others i isNew] at active ⊢
      exact ok.settled i bound active

theorem Modem.oneCall.mono {p q : Call → Bool} (one : m.oneCall p)
    (each : ∀ i < maxCalls, q (m'.calls i) = true → p (m.calls i) = true) : m'.oneCall q :=
  fun i first j second yes yes' => one i first j second (each i first yes) (each j second yes')

theorem Modem.oneCall_iff {p q : Call → Bool}
    (each : ∀ i < maxCalls, q (m'.calls i) = p (m.calls i)) : m'.oneCall q ↔ m.oneCall p :=
  ⟨fun one => one.mono fun i inside yes => (each i inside).trans yes,
    fun one => one.mono fun i inside yes => (each i inside).symm.trans yes⟩

theorem Modem.oneCall_of_only {p : Call → Bool} {i : Nat}
    (only : ∀ j < maxCalls, p (m.calls j) = true → j = i) : m.oneCall p :=
  fun j first k second yes yes' => (only j first yes).trans (only k second yes').symm

/-- The first call of a kind becomes active, or there is none of the kind. -/
def Answers (p : Call → Bool) (m m' : Modem) : Prop :=
  (∃ i < maxCalls, p (m.calls i) = true ∧ m'.nextCallId = m.nextCallId ∧
    m'.calls = Function.update m.calls i ((m.calls i).progressed .active)) ∨
  (¬ m.anyCall p ∧ m' = m)

theorem first_some {p : Call → Bool}
    (found : (range maxCalls).find? (fun i => p (m.calls i)) = some i) :
    i < maxCalls ∧ p (m.calls i) = true := by
  have ofKind := find?_some found
  exact ⟨mem_range.mp (mem_of_find?_eq_some found), ofKind⟩

theorem first_none {p : Call → Bool}
    (missing : (range maxCalls).find? (fun i => p (m.calls i)) = none) : ¬ m.anyCall p := by
  rintro ⟨i, inside, ofKind⟩
  exact find?_eq_none.mp missing i (mem_range.mpr inside) ofKind

theorem answers_find (p : Call → Bool) : Answers p m
    (((range maxCalls).find? fun i => p (m.calls i)).elim m fun i =>
      (callProgress i .active m).1) := by
  cases found : (range maxCalls).find? fun i => p (m.calls i) with
  | some i => exact .inl ⟨i, (first_some found).1, (first_some found).2, rfl, rfl⟩
  | none => exact .inr ⟨first_none found, rfl⟩

/-- A call of a kind that is not active becomes active: that is well if no other is. -/
theorem oneCall_answered {p : Call → Bool}
    (waits : ∀ c, p c = true → c.used = true ∧ c.isActive = false) (answers : Answers p m m')
    (one : m.oneCall isActive) :
    m'.oneCall isActive ↔ (!(decide (m.anyCall p) && decide (m.anyCall isActive))) = true := by
  rcases answers with ⟨i, inside, ofKind, -, calls⟩ | ⟨missing, rfl⟩
  swap
  · simp [missing, one]
  obtain ⟨used, inactive⟩ := waits _ ofKind
  have now : (m'.calls i).isActive = true := by
    rw [calls, update_self]
    simp [isActive, progressed, used]
  have others : ∀ j, j ≠ i → m'.calls j = m.calls j := by
    intro j other
    rw [calls, update_of_ne other]
  have present : m.anyCall p := ⟨i, inside, ofKind⟩
  simp only [present, decide_true, Bool.true_and, Bool.not_eq_true', decide_eq_false_iff_not]
  constructor
  · rintro one ⟨j, bound, active⟩
    have other : j ≠ i := by
      rintro rfl
      rw [inactive] at active
      cases active
    exact other (one j bound i inside (by rw [others j other]; exact active) now)
  · intro noActive
    apply Modem.oneCall_of_only
    intro j bound active
    by_contra other
    rw [others j other] at active
    exact noActive ⟨j, bound, active⟩

theorem Frees.oneCall (frees : Frees m m') (one : m.oneCall isActive) :
    m'.oneCall isActive := by
  refine one.mono fun i inside active => ?_
  rcases frees.calls i inside with same | gone
  · rwa [same] at active
  · simp [isActive, gone] at active

theorem Adds.oneCall (adds : Adds m m') (one : m.oneCall isActive) :
    m'.oneCall isActive := by
  obtain ⟨-, slot, -, -, -, inactive, others⟩ := adds
  refine one.mono fun i _ active => ?_
  by_cases isNew : i = slot
  · simp [isNew, isActive, inactive] at active
  · rwa [others i isNew] at active

theorem oneCall_change (change : Frees m m' ∨ Adds m m') (one : m.oneCall isActive) :
    m'.oneCall isActive :=
  change.elim (·.oneCall one) (·.oneCall one)

end

theorem inactive_of {a b : CallStat} (waits : a ≠ .active ∧ b ≠ .active) (c : Call)
    (ofKind : (c.used && (c.stat = a || c.stat = b)) = true) :
    c.used = true ∧ c.isActive = false := by
  simp only [Bool.and_eq_true, Bool.or_eq_true, decide_eq_true_eq] at ofKind
  refine ⟨ofKind.1, ?_⟩
  rcases ofKind.2 with stat | stat
  · simp [isActive, stat, waits.1]
  · simp [isActive, stat, waits.2]

theorem answerCommand_calls :
    Answers isRinging m (answerCommand m ch).1 := by
  have first : (answerCommand m ch).1 = (ringingCall m).elim m fun i =>
      (callProgress i .active m).1 := by
    unfold answerCommand
    cases ringingCall m <;> rfl
  rw [first]
  exact answers_find isRinging

/-- A turn of a loop of `+CHLD`. -/
theorem progress_turn {c : Prop} [Decidable c] :
    (if c then callProgress i stat m else (m, [])).1.nextCallId = m.nextCallId ∧
      (if c then callProgress i stat m else (m, [])).1.calls =
        update m.calls i (if c then (m.calls i).progressed stat else m.calls i) := by
  constructor
  · split
    · rfl
    · rfl
  · exact calls_ite (fun _ => rfl) fun _ => (update_eq_self i m.calls).symm

/-- `+CHLD=2` with a call that rings: the others are held and it is active. -/
theorem chld_answer (two : arg.head? = some 50)
    (found : ringingCall m = some i) :
    (chldCommand m ch (some arg)).1.nextCallId = m.nextCallId ∧
      ∀ j < maxCalls, (chldCommand m ch (some arg)).1.calls j =
        if j = i then (m.calls i).progressed .active
        else if (m.calls j).isActive then (m.calls j).progressed .held
        else m.calls j := by
  let hold (j : Nat) (m : Modem) : Out :=
    if (m.calls j).used && j ≠ i && (m.calls j).stat = .active then callProgress j .held m
    else (m, [])
  obtain ⟨next, held⟩ := forEach_slots (f := hold)
    (g := fun j c => if c.used && j ≠ i && c.stat = .active then c.progressed .held else c)
    (fun _ _ => progress_turn) m
  have unfolded : (chldCommand m ch (some arg)).1 =
      (callProgress i .active (forEach (range maxCalls) hold m).1).1 := by
    simp only [chldCommand, getD_some, head?_take, two, found, Out.andThen]
    rfl
  rw [unfolded]
  refine ⟨next, fun j bound => ?_⟩
  show update _ i _ j = _
  by_cases same : j = i
  · subst same
    have self := held j bound
    rw [if_neg (by simp)] at self
    rw [update_self, if_pos rfl, self]
    rfl
  · rw [update_of_ne same, if_neg same, held j bound]
    simp [isActive, same]

/-- Without one the active calls are held and the held ones active. -/
theorem chld_swap (m : Modem) (ch : Nat) (two : arg.head? = some 50)
    (quiet : ringingCall m = none) :
    (chldCommand m ch (some arg)).1.nextCallId = m.nextCallId ∧
      ∀ j < maxCalls, (chldCommand m ch (some arg)).1.calls j =
        if (m.calls j).isActive then (m.calls j).progressed .held
        else if (m.calls j).isHeld then (m.calls j).progressed .active
        else m.calls j := by
  have unfolded : (chldCommand m ch (some arg)).1 = (forEach (range maxCalls) (fun i m =>
      if (m.calls i).used && (m.calls i).stat = .active then callProgress i .held m
      else if (m.calls i).used && (m.calls i).stat = .held then callProgress i .active m
      else (m, [])) m).1 := by
    simp only [chldCommand, getD_some, head?_take, two, quiet, Out.andThen]
    rfl
  rw [unfolded]
  apply forEach_slots (g := fun _ c => if c.isActive then c.progressed .held
    else if c.isHeld then c.progressed .active else c)
  intro i m
  refine ⟨?_, calls_ite (fun _ => rfl) fun _ => progress_turn.2⟩
  split
  · rfl
  · exact progress_turn.1

theorem chld_join (three : arg.head? = some 51) :
    (chldCommand m ch (some arg)).1.nextCallId = m.nextCallId ∧
      ∀ j < maxCalls, (chldCommand m ch (some arg)).1.calls j =
        if (m.calls j).isHeld then (m.calls j).progressed .active else m.calls j := by
  have unfolded : (chldCommand m ch (some arg)).1 = (forEach (range maxCalls) (fun i m =>
      if (m.calls i).used && (m.calls i).stat = .held then callProgress i .active m
      else (m, [])) m).1 := by
    simp only [chldCommand, getD_some, head?_take, three, Out.andThen]
    rfl
  rw [unfolded]
  exact forEach_slots (g := fun _ c => if c.isHeld then c.progressed .active else c)
    (fun _ _ => progress_turn) m

theorem frees_chldCommand (m : Modem) (ch : Nat) {arg : Option Bytes}
    (notTwo : ∀ text, arg = some text → text.head? ≠ some 50)
    (notThree : ∀ text, arg = some text → text.head? ≠ some 51) :
    Frees m (chldCommand m ch arg).1 := by
  have head : ∀ c, ((arg.getD []).take 7).head? = some c → ∃ text, arg = some text ∧
      text.head? = some c := by
    intro c first
    cases arg with
    | none => cases first
    | some text => exact ⟨text, rfl, by simpa [head?_take] using first⟩
  unfold chldCommand
  dsimp only
  apply (Frees.walk ch).andThen (.refl m)
  intro m
  split
  · exact frees_releaseAll _ m
  · split
    · exact frees_releaseAll _ m
    · split
      · exact frees_callRelease _ m
      · exact .refl m
  · next two =>
    obtain ⟨text, isText, first⟩ := head 50 two
    exact absurd first (notTwo text isText)
  · next three =>
    obtain ⟨text, isText, first⟩ := head 51 three
    exact absurd first (notThree text isText)
  · exact .refl m

/-! ## Lines -/

theorem learnChannel_chld :
    learnChannel m ch (ascii "chld" ++ arg) = m := by
  unfold learnChannel
  split
  · rfl
  · rfl

/-- A line is `ATA`, a `+CHLD`, or something that at most adds a call. -/
theorem atCommandLine_calls (mode : Mode) (m : Modem) (ch : Nat) (line : Bytes) :
    (commandOf line = ascii "a" ∧ atCommandLine host mode m ch line = answerCommand m ch) ∨
    (∃ arg, commandOf line = ascii "+chld" ++ arg ∧ atCommandLine host mode m ch line =
      chldCommand m ch (if arg.head? = some 61 then some (arg.drop 1) else none)) ∨
    ((Frees m (atCommandLine host mode m ch line).1 ∨
        Adds m (atCommandLine host mode m ch line).1) ∧
      commandOf line ≠ ascii "a" ∧ startsWith (commandOf line) "+chld" = false) := by
  unfold atCommandLine
  dsimp only
  generalize commandOf line = cmd
  split
  · next arg isArg =>
    obtain rfl := argAfter_eq_some isArg
    exact .inr (.inr ⟨.inl (.refl m), by simp [ascii], rfl⟩)
  · split
    · exact .inr (.inr ⟨.inl (.refl m), by decide, rfl⟩)
    · exact .inr (.inr ⟨dialCommand_calls ch _, by simp [ascii], rfl⟩)
    · next plus _ =>
      cases isArg : argAfter plus (ascii "chld") with
      | some arg =>
        obtain rfl := argAfter_eq_some isArg
        refine .inr (.inl ⟨arg, rfl, ?_⟩)
        rw [plusCommand_chld, learnChannel_chld]
      | none =>
        refine .inr (.inr ⟨.inl (frees_plusCommand host mode m ch isArg), by simp [ascii], ?_⟩)
        exact startsWith_of_none isArg
    · next _ _ notPlus =>
      have other : startsWith cmd "+chld" = false := by
        by_contra starts
        have begins : ascii "+chld" <+: cmd := by simpa [startsWith] using starts
        obtain ⟨rest, rfl⟩ := begins
        exact notPlus _ rfl
      by_cases answer : cmd = ascii "a"
      · exact .inl ⟨answer, if_pos answer⟩
      · refine .inr (.inr ⟨.inl ?_, answer, other⟩)
        rw [if_neg answer]
        repeat' split
        · exact (Frees.walk ch).andThen (.refl m) (frees_releaseAll _)
        · exact .of_same rfl rfl
        · exact .refl m

/-- The start of a conference. -/
def isConference (line : Bytes) : Bool := startsWith (commandOf line) "+chld=3"

/-- A line that makes a call active puts the others on hold or finds none active: `ATA` does not
look at the others, and a `+CHLD=2` without a call that rings makes every held call active. -/
def lineAnswersOk (m : Modem) (line : Bytes) : Bool :=
  if commandOf line = ascii "a" then
    !(decide (m.anyCall Call.isRinging) && decide (m.anyCall Call.isActive))
  else if startsWith (commandOf line) "+chld=2" then
    decide (m.anyCall Call.isRinging) || decide (m.oneCall Call.isHeld)
  else true

theorem Answers.turns {p : Call → Bool} (answers : Answers p m m') : Turns m m' := by
  rcases answers with ⟨i, -, -, next, calls⟩ | ⟨-, rfl⟩
  · refine ⟨next, fun j _ => ?_⟩
    rw [calls]
    by_cases same : j = i
    · rw [same, update_self]
      exact .progressed _ _
    · rw [update_of_ne same]
      exact .refl _
  · exact (Frees.refl _).turns

theorem turns_chldCommand (m : Modem) (ch : Nat) (arg : Option Bytes) :
    Turns m (chldCommand m ch arg).1 := by
  by_cases two : ∃ text, arg = some text ∧ text.head? = some 50
  · obtain ⟨text, rfl, isTwo⟩ := two
    cases found : ringingCall m with
    | some i =>
      obtain ⟨next, calls⟩ := chld_answer ch isTwo found
      refine ⟨next, fun j inside => ?_⟩
      rw [calls j inside]
      by_cases same : j = i
      · rw [if_pos same, same]
        exact .progressed _ _
      · rw [if_neg same]
        exact .ite (.progressed _ _) (.refl _)
    | none =>
      obtain ⟨next, calls⟩ := chld_swap m ch isTwo found
      refine ⟨next, fun j inside => ?_⟩
      rw [calls j inside]
      exact .ite (.progressed _ _) (.ite (.progressed _ _) (.refl _))
  · by_cases three : ∃ text, arg = some text ∧ text.head? = some 51
    · obtain ⟨text, rfl, isThree⟩ := three
      obtain ⟨next, calls⟩ := chld_join ch isThree
      refine ⟨next, fun j inside => ?_⟩
      rw [calls j inside]
      exact .ite (.progressed _ _) (.refl _)
    · exact (frees_chldCommand m ch (fun text isText first => two ⟨text, isText, first⟩)
        fun text isText first => three ⟨text, isText, first⟩).turns

/-- After an answer with `+CHLD=2` only the answered call is active. -/
theorem oneCall_chld_answer (two : arg.head? = some 50)
    (found : ringingCall m = some i) : (chldCommand m ch (some arg)).1.oneCall isActive := by
  obtain ⟨-, calls⟩ := chld_answer ch two found
  apply Modem.oneCall_of_only (i := i)
  intro j inside active
  by_contra other
  rw [calls j inside, if_neg other] at active
  split at active
  · simp [isActive, progressed] at active
  · next inactive => exact inactive active

theorem oneCall_chld_swap (two : arg.head? = some 50) (quiet : ringingCall m = none) :
    (chldCommand m ch (some arg)).1.oneCall isActive ↔ m.oneCall isHeld := by
  obtain ⟨-, calls⟩ := chld_swap m ch two quiet
  have swapped : ∀ j < maxCalls, ((chldCommand m ch (some arg)).1.calls j).isActive =
      (m.calls j).isHeld := by
    intro j inside
    rw [calls j inside]
    split
    · next active =>
      simp only [isActive, Bool.and_eq_true, decide_eq_true_eq] at active
      simp [isActive, isHeld, progressed, active]
    · next inactive =>
      split
      · next held =>
        rw [held]
        simp only [isHeld, Bool.and_eq_true, decide_eq_true_eq] at held
        simp [isActive, progressed, held]
      · next notHeld => rw [Bool.eq_false_iff.mpr inactive, Bool.eq_false_iff.mpr notHeld]
  exact Modem.oneCall_iff swapped

theorem chld_choice (b : UInt8) (arg : Bytes) :
    [61, b].isPrefixOf arg = true ↔ arg.head? = some 61 ∧ (arg.drop 1).head? = some b := by
  match arg with
  | [] => simp
  | [a] => simp
  | a :: a' :: rest =>
    simp only [ isPrefixOf_iff_prefix, cons_prefix_cons, nil_prefix, and_true,
      head?_cons, drop_succ_cons, drop_zero, some.injEq]
    constructor
    · rintro ⟨rfl, rfl⟩
      exact ⟨rfl, rfl⟩
    · rintro ⟨rfl, rfl⟩
      exact ⟨rfl, rfl⟩

theorem oneCall_chldCommand (one : m.oneCall isActive) (ch : Nat)
    (alone : (ascii "=3").isPrefixOf arg = false) :
    (chldCommand m ch (if arg.head? = some 61 then some (arg.drop 1) else none)).1.oneCall
        isActive ↔
      ((ascii "=2").isPrefixOf arg = true → m.anyCall isRinging ∨ m.oneCall isHeld) := by
  have choice₂ := chld_choice 50 arg
  have choice₃ := chld_choice 51 arg
  rw [show ([61, 50] : Bytes) = ascii "=2" from rfl] at choice₂
  rw [show ([61, 51] : Bytes) = ascii "=3" from rfl, alone] at choice₃
  by_cases two : (ascii "=2").isPrefixOf arg = true
  · obtain ⟨equals, isTwo⟩ := choice₂.mp two
    rw [if_pos equals]
    cases found : ringingCall m with
    | some i =>
      exact iff_of_true (oneCall_chld_answer ch isTwo found)
        fun _ => .inl ⟨i, first_some (p := isRinging) found⟩
    | none =>
      rw [oneCall_chld_swap ch isTwo found]
      have quiet := first_none (p := isRinging) found
      exact ⟨fun held _ => .inr held, fun fine => (fine two).resolve_left quiet⟩
  · refine iff_of_true ?_ fun isTwo => absurd isTwo two
    refine (frees_chldCommand m ch ?_ ?_).oneCall one
    · intro text isText first
      obtain ⟨equals, given⟩ := ite_none_right_eq_some.mp isText
      exact two (choice₂.mpr ⟨equals, by rw [some.inj given]; exact first⟩)
    · intro text isText first
      obtain ⟨equals, given⟩ := ite_none_right_eq_some.mp isText
      have isThree := choice₃.mpr ⟨equals, by rw [some.inj given]; exact first⟩
      cases isThree

/-! ## Runs -/

/-- What happens to the calls: a line on a channel, a call from the network, the remote party, a
tick; controls and channels that the host opens and closes. -/
inductive CallEvent where
  | line (mode : Mode) (ch : Nat) (text : Bytes)
  | incoming (number : Bytes)
  | remoteAnswer
  | remoteHangup
  | tick (now : Int)
  | control (change : Control)
  | opened (ch : Nat)
  | closed (ch : Nat)
  deriving DecidableEq, Repr

variable (host : Host)

def Modem.onCall (m : Modem) : CallEvent → Modem
  | .line mode ch text => (atCommand host mode m ch text).1
  | .incoming number => ((incomingCall m number).getD (m, [])).1
  | .remoteAnswer => (Baseband.remoteAnswer m).1
  | .remoteHangup => (Baseband.remoteHangup m).1
  | .tick now => (modemTick host { m with nowMs := now }).1
  | .control change => ((m.control change).getD (m, [])).1
  | .opened ch => m.setChan ch { m.chans ch with isOpen := true }
  | .closed ch => m.setChan ch { line := (m.chans ch).line.clear }

def Call.isOutgoing (c : Call) : Bool := c.used && (c.stat = .dialing || c.stat = .alerting)

/-- A call that an event makes gets an id that no call has. -/
def Modem.newIdOk (m : Modem) (e : CallEvent) : Bool :=
  decide ((m.onCall host e).nextCallId = m.nextCallId) || !decide m.idTaken

/-- The condition on an answer in a state: it finds no other call active, and no other is answered
at the same time. -/
def Modem.answersOk (m : Modem) : CallEvent → Bool
  | .line _ _ text => lineAnswersOk m text
  | .remoteAnswer => !(decide (m.anyCall Call.isOutgoing) && decide (m.anyCall Call.isActive))
  | .tick now => decide (m.oneCall fun c =>
    c.isActive || (c.used && c.answerDue { m with nowMs := now }))
  | _ => true

def CallEvent.conference : CallEvent → Bool
  | .line _ _ text => isConference text
  | _ => false

/-! ## Steps -/

theorem campUpdate_calls :
    (campUpdate m).calls = m.calls ∧ (campUpdate m).nextCallId = m.nextCallId := by
  unfold campUpdate
  dsimp only
  repeat' split
  all_goals exact ⟨rfl, rfl⟩

/-- What `atCommand` does behind a line does not matter for the calls. -/
theorem oneCall_congr (calls : m'.calls = m.calls) (p : Call → Bool) :
    m'.oneCall p ↔ m.oneCall p := by
  unfold Modem.oneCall
  rw [calls]

theorem calls_line (m : Modem) (host : Host) (mode : Mode) (ch : Nat) (text : Bytes) :
    Turns m (atCommand host mode m ch text).1 ∨ Adds m (atCommand host mode m ch text).1 := by
  obtain ⟨calls, next⟩ := campUpdate_calls (m := (atCommandLine host mode m ch text).1)
  have turns : Turns m (atCommandLine host mode m ch text).1 →
      Turns m (campUpdate (atCommandLine host mode m ch text).1) :=
    fun turns => ⟨next.trans turns.nextCallId, by rw [calls]; exact turns.calls⟩
  rcases atCommandLine_calls host mode m ch text with ⟨-, answer⟩ | ⟨arg, -, chld⟩ | ⟨change, -⟩
  · exact .inl (turns (answer ▸ (answerCommand_calls ch).turns))
  · exact .inl (turns (chld ▸ turns_chldCommand m ch _))
  · rcases change with frees | adds
    · exact .inl (turns frees.turns)
    · refine .inr ⟨next.trans adds.nextCallId, ?_⟩
      rw [show (atCommand host mode m ch text).1.calls = _ from calls]
      exact adds.slot

theorem oneCall_line (one : m.oneCall isActive) (host : Host) (mode : Mode) (ch : Nat)
    {text : Bytes} (alone : isConference text = false) :
    (atCommand host mode m ch text).1.oneCall isActive ↔ lineAnswersOk m text = true := by
  have kept : (atCommand host mode m ch text).1.calls =
      (atCommandLine host mode m ch text).1.calls := campUpdate_calls.1
  rw [oneCall_congr kept]
  unfold isConference at alone
  unfold lineAnswersOk
  rcases atCommandLine_calls host mode m ch text with
    ⟨isA, answer⟩ | ⟨arg, isChld, chld⟩ | ⟨change, notA, notChld⟩
  · rw [answer, if_pos isA]
    exact oneCall_answered (inactive_of ⟨nofun, nofun⟩) (answerCommand_calls ch) one
  · rw [isChld] at alone ⊢
    have noThree : (ascii "=3").isPrefixOf arg = false := alone
    rw [chld, oneCall_chldCommand one ch noThree, if_neg (by simp [ascii])]
    rw [show startsWith (ascii "+chld" ++ arg) "+chld=2" = (ascii "=2").isPrefixOf arg from rfl]
    split
    · next two => simp [two]
    · next notTwo => simp [notTwo]
  · have other : startsWith (commandOf text) "+chld=2" = false := by
      by_contra starts
      have begins : ascii "+chld=2" <+: commandOf text := by simpa [startsWith] using starts
      have shorter : ascii "+chld" <+: commandOf text :=
        List.IsPrefix.trans ⟨ascii "=2", rfl⟩ begins
      rw [startsWith, isPrefixOf_iff_prefix.mpr shorter] at notChld
      cases notChld
    rw [if_neg notA, other]
    exact iff_of_true (oneCall_change change one) rfl

theorem remoteAnswer_calls (m : Modem) : Answers isOutgoing m (remoteAnswer m).1 := by
  have first : (remoteAnswer m).1 = ((range maxCalls).find? fun i =>
      (m.calls i).isOutgoing).elim m fun i => (callProgress i .active m).1 := by
    unfold remoteAnswer isOutgoing
    cases (range maxCalls).find? _ <;> rfl
  rw [first]
  exact answers_find isOutgoing

theorem frees_remoteHangup (m : Modem) : Frees m (remoteHangup m).1 := by
  unfold remoteHangup
  split
  · have noted : Frees m { m with ceerCause := 16 } := .of_same rfl rfl
    exact noted.trans (frees_callRelease _ _)
  · exact .refl m

/-! ## Ticks -/

/-- The calls, and what their turns look at. -/
def turnView (m : Modem) : (Nat → Call) × Int32 × Int × Int × Int :=
  (m.calls, m.nextCallId, m.nowMs, m.s0, m.answerDelayMs)

abbrev SameTurn (m m' : Modem) : Prop := turnView m = turnView m'

theorem SameTurn.chains : Chains SameTurn := ⟨fun _ => rfl, Eq.trans⟩

/-- The parts of a tick before the calls'. -/
theorem sameTurn_before (m : Modem) :
    SameTurn m (xsimTurn (tempTurn (regTurn host (campUpdate m)).1).1).1 := by
  have camp : SameTurn m (campUpdate m) := by
    unfold campUpdate
    dsimp only
    repeat' split
    all_goals rfl
  have notice : ∀ m : Modem, SameTurn m (regNotice m) := by
    intro m
    unfold regNotice regSchedule
    repeat' split
    all_goals rfl
  have reports : ∀ m : Modem, SameTurn m (emitXciev m).1 := by
    intro m
    unfold emitXciev
    split
    all_goals rfl
  have burst : ∀ m : Modem, SameTurn m (regTick host m).1 := by
    intro m
    have set : ∀ (m : Modem) (reg : Reg), SameTurn m { m with reg } := fun _ _ => rfl
    unfold regTick
    dsimp only
    split
    · exact set m _
    split
    · split
      all_goals exact set m _
    · exact SameTurn.chains.when (((set m _).trans (reports _)).trans (set _ _))
  have temp : ∀ m : Modem, SameTurn m (tempTurn m).1 :=
    fun m => SameTurn.chains.when rfl
  have xsim : ∀ m : Modem, SameTurn m (xsimTurn m).1 := by
    intro m
    unfold xsimTurn
    dsimp only
    repeat' split
    all_goals rfl
  refine (camp.trans ((notice _).trans ?_)).trans ((temp _).trans (xsim _))
  exact SameTurn.chains.when (burst _)

theorem ticked_congr (same : (turnView m).2 = (turnView m').2) (c : Call) :
    c.ticked m' = c.ticked m := by
  simp only [turnView, Prod.mk.injEq] at same
  unfold ticked
  rw [same.2.1, same.2.2.1, same.2.2.2]

theorem modemTick_calls (m : Modem) :
    (modemTick host m).1.nextCallId = m.nextCallId ∧
      ∀ i < maxCalls, (modemTick host m).1.calls i = (m.calls i).ticked m := by
  have before := sameTurn_before host m
  have chain : (modemTick host m).1 = (forEach (range maxCalls) callTick
      (xsimTurn (tempTurn (regTurn host (campUpdate m)).1).1).1).1 := by
    simp only [modemTick, Out.andThen]
  rw [chain]
  generalize (xsimTurn (tempTurn (regTurn host (campUpdate m)).1).1).1 = m₁ at before
  -- the turns change the calls, and not what they look at
  have turn : ∀ (i : Nat) (m' : Modem), (turnView m).2 = (turnView m').2 →
      (turnView m).2 = (turnView (callTick i m').1).2 ∧
        (callTick i m').1.calls = update m'.calls i ((m'.calls i).ticked m) := by
    intro i m' same
    rw [callTick_fst, ticked_congr same]
    exact ⟨same, rfl⟩
  obtain ⟨same, calls⟩ := forEach_calls turn maxCalls (congrArg Prod.snd before)
  refine ⟨(congrArg Prod.fst same).symm, fun i inside => ?_⟩
  rw [calls, if_pos inside, show m.calls = m₁.calls from congrArg Prod.fst before]

theorem turns_tick (m : Modem) (host : Host) : Turns m (modemTick host m).1 := by
  obtain ⟨next, calls⟩ := modemTick_calls host m
  refine ⟨next, fun i inside => ?_⟩
  rw [calls i inside]
  exact .ticked m _

theorem oneCall_tick (ok : CallsOk m) (host : Host) :
    (modemTick host m).1.oneCall isActive ↔
      m.oneCall fun c => c.isActive || (c.used && c.answerDue m) := by
  obtain ⟨-, calls⟩ := modemTick_calls host m
  refine Modem.oneCall_iff fun i inside => ?_
  rw [calls i inside, isActive_ticked (ok.settled i inside)]

/-! ## Every event -/

/-- A call from the network is added or not, and a control at most releases calls. -/
theorem change_incoming (m : Modem) (number : Bytes) :
    Frees m ((incomingCall m number).getD (m, [])).1 ∨
      Adds m ((incomingCall m number).getD (m, [])).1 := by
  cases accepted : incomingCall m number with
  | none => exact .inl (.refl m)
  | some o => exact .inr (adds_incomingCall accepted)

theorem frees_control (m : Modem) (change : Control) :
    Frees m ((m.control change).getD (m, [])).1 := by
  cases accepted : m.control change with
  | none => exact .refl m
  | some o => exact (Frees.walk 0).control accepted

theorem calls_on (m : Modem) (host : Host) (e : CallEvent) :
    Turns m (m.onCall host e) ∨ Adds m (m.onCall host e) := by
  cases e with
  | line mode ch text => exact calls_line m host mode ch text
  | incoming number => exact (change_incoming m number).imp_left (·.turns)
  | remoteAnswer => exact .inl (remoteAnswer_calls m).turns
  | remoteHangup => exact .inl (frees_remoteHangup m).turns
  | tick now =>
    have turns := turns_tick { m with nowMs := now } host
    exact .inl ⟨turns.nextCallId, turns.calls⟩
  | control change => exact .inl (frees_control m change).turns
  | opened ch => exact .inl ⟨rfl, fun _ _ => .refl _⟩
  | closed ch => exact .inl ⟨rfl, fun _ _ => .refl _⟩

/-- The ids stay distinct exactly if a new call gets one that no call has. -/
theorem distinctIds_on (ok : CallsOk m) (host : Host) (e : CallEvent) :
    (m.onCall host e).distinctIds ↔ m.newIdOk host e = true := by
  unfold Modem.newIdOk
  rcases calls_on m host e with turns | adds
  · exact iff_of_true (ok.turns turns).distinct (by simp [turns.nextCallId])
  · have new : (m.onCall host e).nextCallId ≠ m.nextCallId := by simp [adds.nextCallId]
    rw [adds.distinctIds ok.distinct]
    simp [new]

theorem callsOk_on (ok : CallsOk m) (host : Host) {e : CallEvent}
    (idOk : m.newIdOk host e = true) : CallsOk (m.onCall host e) := by
  have distinct := (distinctIds_on ok host e).mpr idOk
  rcases calls_on m host e with turns | adds
  · exact ok.turns turns
  · exact ok.adds adds ((adds.distinctIds ok.distinct).mp distinct)

/-- In a state with at most one active call, an event keeps it so exactly if it meets the
condition. -/
theorem oneCall_on (ok : CallsOk m) (one : m.oneCall isActive) (host : Host) {e : CallEvent}
    (alone : e.conference = false) :
    (m.onCall host e).oneCall isActive ↔ m.answersOk e = true := by
  cases e with
  | line mode ch text => exact oneCall_line one host mode ch alone
  | incoming number => exact iff_of_true (oneCall_change (change_incoming m number) one) rfl
  | remoteAnswer => exact oneCall_answered (inactive_of ⟨nofun, nofun⟩) (remoteAnswer_calls m) one
  | remoteHangup => exact iff_of_true ((frees_remoteHangup m).oneCall one) rfl
  | tick now =>
    rw [Modem.onCall, Modem.answersOk, decide_eq_true_iff]
    have clocked : CallsOk { m with nowMs := now } := ⟨ok.distinct, ok.settled⟩
    exact oneCall_tick clocked host
  | control change => exact iff_of_true ((frees_control m change).oneCall one) rfl
  | opened ch => exact iff_of_true one rfl
  | closed ch => exact iff_of_true one rfl

/-- An event, and whether a conference was started since no call existed. -/
def callStep (s : Modem × Bool) (e : CallEvent) : Modem × Bool :=
  let m := s.1.onCall host e
  (m, (s.2 || e.conference) && decide (m.anyCall Call.used))

/-- At most one call is active, unless there was a conference. -/
def OneActive (s : Modem × Bool) : Prop := s.2 = false → s.1.oneCall Call.isActive

/-- Calls have ids of their own, and at most one is active unless there was a conference. -/
def CallsWell (s : Modem × Bool) : Prop := s.1.distinctIds ∧ OneActive s

/-- The condition on an event: a new call gets an id that no call has, and there is a conference or
every answer finds no other call active. -/
def callEventOk (s : Modem × Bool) (e : CallEvent) : Prop :=
  s.1.newIdOk host e = true ∧ (s.2 || e.conference || s.1.answersOk e) = true

theorem oneActive_step (ok : CallsOk s.1) (one : OneActive s) (e : CallEvent) :
    OneActive (callStep host s e) ↔ (s.2 || e.conference || s.1.answersOk e) = true := by
  cases conference : s.2 || e.conference with
  | true =>
    refine iff_of_true ?_ rfl
    intro ended i inside j _ active
    -- the conference is over: there is no call
    have noCall : ¬ (s.1.onCall host e).anyCall used := by
      simpa [callStep, conference] using ended
    refine absurd ⟨i, inside, ?_⟩ noCall
    exact (Bool.and_eq_true_iff.mp active).1
  | false =>
    obtain ⟨before, alone⟩ := Bool.or_eq_false_iff.mp conference
    rw [Bool.false_or, ← oneCall_on ok (one before) host alone]
    constructor
    · exact fun after => after (by simp [callStep, conference])
    · exact fun after _ => after

theorem callsOk_init (start : Modem) : CallsOk (Core.iosBbInit start).modem where
  distinct _ _ _ _ used := by cases used
  settled _ _ active := by cases active

/-- In every state of a run the calls have ids of their own and at most one call is active without
a conference, exactly if every event meets the condition: no call is made whose id another call
still has, and no call is answered beside an active one. -/
theorem calls_distinct_one_active_iff (start : Modem) (events : List CallEvent) :
    (∀ n, CallsWell ((events.take n).foldl (callStep host)
        ((Core.iosBbInit start).modem, false))) ↔
      Trace.Along (callStep host) (callEventOk host) ((Core.iosBbInit start).modem, false)
        events := by
  refine Trace.every_iff (fun s (inv : CallsOk s.1 ∧ OneActive s) => ⟨inv.1.distinct, inv.2⟩) ?_ ?_
    events ⟨callsOk_init start, ?_⟩
  · rintro s e ⟨ok, one⟩ ⟨idOk, answers⟩
    exact ⟨callsOk_on ok host idOk, (oneActive_step host ok one e).mpr answers⟩
  · rintro s e ⟨ok, one⟩ ⟨distinct, after⟩
    exact ⟨(distinctIds_on ok host e).mp distinct, (oneActive_step host ok one e).mp after⟩
  · intro _ i _ j _ active
    cases active

/-- A call is answered with `ATA` while another is active: both are. -/
theorem answer_beside_active :
    ¬ ∀ (host : Host) (start : Modem) (events : List CallEvent),
      OneActive (events.foldl (callStep host) ((Core.iosBbInit start).modem, false)) := by
  intro all
  have one := all bareHost { reg := { registered := true } }
    [.opened 1, .line ⟨false, true⟩ 1 (ascii "d5551234;"), .remoteAnswer,
      .incoming (ascii "5555678"), .line ⟨false, true⟩ 1 (ascii "a")]
  exact absurd (one (by decide +kernel) 0 (by decide) 1 (by decide) (by decide +kernel)
    (by decide +kernel)) (by decide)

end QemuIos.Baseband

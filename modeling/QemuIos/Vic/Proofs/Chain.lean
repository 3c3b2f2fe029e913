import Mathlib.Tactic.Common
import QemuIos.Vic.Proofs.Sorter

/-!
# How an update runs through the chain

An update of one controller may hand a level to the next one, which is updated in turn. Controllers
farther from the CPU stay as they are, and to run an update twice is to run it once
(`update_update`), so every event but a reset writes some registers and then runs one update
(`step_eq`).
-/

namespace QemuIos.Vic

variable {α β : Type} [DecidableEq α]

@[simp] theorem setAt_self (f : α → β) (i : α) (x : β) : setAt f i x i = x := if_pos rfl

theorem setAt_of_ne (f : α → β) {i j : α} (x : β) (other : j ≠ i) : setAt f i x j = f j :=
  if_neg other

@[simp] theorem setAt_eq_self (f : α → β) (i : α) : setAt f i (f i) = f := by
  funext j
  unfold setAt
  split
  · next same => rw [same]
  · rfl

namespace Chain

variable {c : Chain} {i j n : Nat} {s : Pl192}

section

variable (c : Chain)

@[simp] theorem put_ctl (i : Nat) (s : Pl192) : (c.put i s).ctl i = s := setAt_self ..

theorem put_ctl_of_ne (s : Pl192) (other : j ≠ i) : (c.put i s).ctl j = c.ctl j :=
  setAt_of_ne _ _ other

@[simp] theorem put_self : c.put i (c.ctl i) = c := by
  unfold put
  rw [setAt_eq_self]

@[simp] theorem sensed_ctl (i : Nat) : (c.sensed i).ctl i = (c.ctl i).sense :=
  setAt_self ..

theorem sensed_ctl_of_ne (other : j ≠ i) : (c.sensed i).ctl j = c.ctl j :=
  setAt_of_ne _ _ other

/-- To compute the registers again only drives the FIQ again. -/
theorem sensed_of_sense (done : (c.ctl i).sense = c.ctl i) :
    c.sensed i = { c with fiq := (c.ctl i).fiqStatus != 0 } := by
  unfold sensed put
  simp only [done, setAt_eq_self]

theorem hand_ctl_of_ne (level : Bool) (other : j ≠ i) :
    (c.hand i level).ctl j = c.ctl j := setAt_of_ne _ _ other

end

/-- What a controller has heard from its child. -/
structure Heard (c : Chain) (i : Nat) (level : Bool) (s : Pl192) : Prop where
  input : s.daisyInput = level
  vect : level = true → s.daisyVectaddr = (c.ctl (i + 1)).address
  child : level = true → s.daisyCallback = some (i + 1)

theorem heard_hand (c : Chain) (i : Nat) (level : Bool) :
    Heard c i level ((c.hand i level).ctl i) := by
  unfold hand
  cases level with
  | true => exact ⟨by simp, fun _ => by simp, fun _ => by simp⟩
  | false => exact ⟨by simp, fun no => Bool.noConfusion no, fun no => Bool.noConfusion no⟩

theorem Heard.sense {level : Bool} (heard : Heard c i level s) : Heard c i level s.sense where
  input := by rw [Pl192.sense_daisyInput, heard.input]
  vect up := by rw [Pl192.sense_daisyVectaddr, heard.vect up]
  child up := by rw [Pl192.sense_daisyCallback, heard.child up]

/-- To hear the same again changes nothing. -/
theorem hand_of_heard {level : Bool} (heard : Heard c i level (c.ctl i)) : c.hand i level = c := by
  have same : (if level then
      { c.ctl i with
        daisyVectaddr := (c.ctl (i + 1)).address
        daisyCallback := some (i + 1)
        daisyInput := true }
      else { c.ctl i with daisyInput := false }) = c.ctl i := by
    obtain ⟨input, vect, child⟩ := heard
    cases level with
    | true => simp only [if_true, ← vect rfl, ← child rfl, ← input]
    | false =>
      refine (if_neg Bool.false_ne_true).trans ?_
      simp only [← input]
  unfold hand
  rw [same, put_self]

/-! ## One update -/

theorem update_zero (c : Chain) :
    c.update 0 =
      { c.sensed 0 with irq := (c.ctl 0).sense.output.getD c.irq } := by
  unfold update
  simp only [sensed_ctl]
  split
  · next same => rw [same]; rfl
  · next level same => rw [same]; rfl

theorem update_kept (silent : (c.ctl (i + 1)).sense.output = none) :
    c.update (i + 1) = c.sensed (i + 1) := by
  unfold update
  simp only [sensed_ctl, silent]

theorem update_handed {level : Bool} (handed : (c.ctl (i + 1)).sense.output = some level) :
    c.update (i + 1) = ((c.sensed (i + 1)).hand i level).update i := by
  conv_lhs => unfold update
  simp only [sensed_ctl, handed]

/-- The controllers farther from the CPU do not notice. -/
theorem update_above (c : Chain) (above : i < j) : (c.update i).ctl j = c.ctl j := by
  induction i generalizing c with
  | zero =>
    rw [update_zero]
    exact sensed_ctl_of_ne c (Nat.ne_of_gt above)
  | succ i ih =>
    have own := sensed_ctl_of_ne c (Nat.ne_of_gt above)
    cases said : (c.ctl (i + 1)).sense.output with
    | none => rw [update_kept said, own]
    | some level =>
      rw [update_handed said, ih _ (by omega), hand_ctl_of_ne _ _ (by omega), own]

/-- The controller itself ends with the registers it computes. -/
theorem update_own (c : Chain) (i : Nat) : (c.update i).ctl i = (c.ctl i).sense := by
  cases i with
  | zero =>
    rw [update_zero]
    exact sensed_ctl c 0
  | succ i =>
    cases said : (c.ctl (i + 1)).sense.output with
    | none => rw [update_kept said, sensed_ctl]
    | some level =>
      rw [update_handed said, update_above _ (Nat.lt_succ_self i),
        hand_ctl_of_ne _ _ (Nat.succ_ne_self i), sensed_ctl]

theorem update_fiq (level : Bool) :
    ({ c with fiq := level } : Chain).update i = c.update i := by
  cases i <;> rfl

theorem update_update : (c.update i).update i = c.update i := by
  induction i generalizing c with
  | zero =>
    have own := update_own c 0
    have again := sensed_of_sense (c := c.update 0) (i := 0) (by rw [own, Pl192.sense_sense])
    rw [update_zero (c.update 0), again, own, Pl192.sense_sense, update_zero c]
    cases (c.ctl 0).sense.output <;> rfl
  | succ i ih =>
    have own := update_own c (i + 1)
    have again := sensed_of_sense (c := c.update (i + 1)) (i := i + 1)
      (by rw [own, Pl192.sense_sense])
    rw [own] at again
    have output : ((c.update (i + 1)).ctl (i + 1)).sense.output = (c.ctl (i + 1)).sense.output := by
      rw [own, Pl192.sense_sense]
    cases said : (c.ctl (i + 1)).sense.output with
    | none =>
      rw [update_kept (output.trans said), again, update_kept said]
      rfl
    | some level =>
      -- the next controller has heard this level, and its own update ran after that
      have whole : c.update (i + 1) = ((c.sensed (i + 1)).hand i level).update i :=
        update_handed said
      have address : ((c.update (i + 1)).ctl (i + 1)).address =
          ((c.sensed (i + 1)).ctl (i + 1)).address := by rw [own, sensed_ctl]
      have heard : Heard (c.update (i + 1)) i level ((c.update (i + 1)).ctl i) := by
        have first := (heard_hand (c.sensed (i + 1)) i level).sense
        rw [← update_own, ← whole] at first
        exact ⟨first.input, fun up => (first.vect up).trans address.symm, first.child⟩
      rw [update_handed (output.trans said), again]
      have absorbed : ({ c.update (i + 1) with fiq := (c.ctl (i + 1)).sense.fiqStatus != 0 } :
          Chain).hand i level =
            { c.update (i + 1) with fiq := (c.ctl (i + 1)).sense.fiqStatus != 0 } :=
        hand_of_heard ⟨heard.input, heard.vect, heard.child⟩
      rw [absorbed, update_fiq, whole, ih]

/-! ## What an event writes before the update -/

/-- A child's own part of an update: its registers, and the level it hands on. -/
def relay (c : Chain) (i : Nat) : Chain :=
  let c := c.sensed (i + 1)
  match (c.ctl (i + 1)).output with
  | none => c
  | some level => c.hand i level

theorem update_relay (c : Chain) (i : Nat) :
    (c.update (i + 1)).update i = (c.relay i).update i := by
  unfold relay
  simp only [sensed_ctl]
  cases said : (c.ctl (i + 1)).sense.output with
  | none => rw [update_kept said]
  | some level => rw [update_handed said, update_update]

/-- The interrupt in service ends, and with the daisy input the child's too; the child then selects
again. -/
def relieve (c : Chain) (i : Nat) : Except Fault Chain := do
  let s := c.ctl i
  let c := c.put i (← s.unmaskPriority)
  if s.current = daisyIrq then
    match s.daisyCallback with
    | none => throw .callback
    | some j => return (c.put j (← (c.ctl j).unmaskPriority)).relay i
  else
    return c

/-- The chain when an event has written its registers, and the controller whose update runs then. -/
def touched (c : Chain) : Event n → Except Fault (Chain × Option Nat)
  | .read i offset =>
    if (offset = 0x1C ∨ offset = 0xF00) ∧ (c.ctl i).currentHighest ≠ noIrq then
      return (← c.acknowledge i, some i)
    else
      return (c, none)
  | .write i offset value =>
    if offset = 0xF00 then
      return (← c.relieve i, some i)
    else match written (c.ctl i) offset value with
    | none => return (c, none)
    | some s => return (c.put i s, some i)
  | .line i irq level =>
    if driven (c.ctl i) irq level ≠ (c.ctl i).rawintr then
      return (c.put i { c.ctl i with rawintr := driven (c.ctl i) irq level }, some i)
    else
      return (c, none)
  | .reset => return (c.resetAll n, none)

/-- The update an event runs in the end. -/
def finish : Chain × Option Nat → Chain
  | (c, none) => c
  | (c, some i) => c.update i

/-- A controller's child is the next one, and the last controller has none. -/
structure Wired (n : Nat) (c : Chain) : Prop where
  callback : ∀ i j, (c.ctl i).daisyCallback = some j → j = i + 1 ∧ i < n
  input : ∀ i, (c.ctl i).daisyInput = true → i < n

/-- Only VECTADDR, and SOFTINTCLEAR on its way to it, do more than return a value. -/
theorem read_snd (c : Chain) (i offset : Nat) :
    (c.read i offset).map Prod.snd =
      if offset = 0x1C ∨ offset = 0xF00 then (c.irqAck i).map Prod.snd else .ok c := by
  by_cases ack : offset = 0x1C ∨ offset = 0xF00
  · rw [if_pos ack]
    rcases ack with rfl | rfl <;> rfl
  rw [if_neg ack]
  unfold read
  split_ifs
  all_goals try rfl
  unfold readControl
  split <;> first | rfl | omega

theorem irqAck_snd (c : Chain) (i : Nat) :
    (c.irqAck i).map Prod.snd =
      if (c.ctl i).currentHighest ≠ noIrq then (c.acknowledge i).map (·.update i) else .ok c := by
  unfold irqAck
  by_cases idle : (c.ctl i).currentHighest = noIrq
  · rw [if_pos idle, if_neg (not_not_intro idle)]
    rfl
  · rw [if_neg idle, if_pos idle]
    cases c.acknowledge i <;> rfl

theorem irqFin_eq (wired : c.Wired n) : c.irqFin i = (c.relieve i).map (·.update i) := by
  unfold irqFin relieve
  dsimp only
  cases own : (c.ctl i).unmaskPriority with
  | error f => rfl
  | ok s =>
    dsimp only [bind, Except.bind]
    by_cases daisy : (c.ctl i).current = daisyIrq
    · rw [if_pos daisy, if_pos daisy]
      cases back : (c.ctl i).daisyCallback with
      | none => rfl
      | some j =>
        obtain ⟨rfl, -⟩ := wired.callback i j back
        dsimp only
        cases child : ((c.put i s).ctl (i + 1)).unmaskPriority with
        | error f => rfl
        | ok t => exact congrArg Except.ok (update_relay _ i)
    · rw [if_neg daisy, if_neg daisy]
      rfl

/-- Every event writes its registers and then runs one update, or none. -/
theorem step_eq (wired : c.Wired n) (e : Event (n + 1)) : c.step e = (c.touched e).map finish := by
  cases e with
  | read i offset =>
    dsimp only [step, touched]
    rw [read_snd, irqAck_snd]
    by_cases ack : offset = 0x1C ∨ offset = 0xF00
    · by_cases idle : (c.ctl i).currentHighest ≠ noIrq
      · rw [if_pos ack, if_pos idle, if_pos ⟨ack, idle⟩]
        cases c.acknowledge i <;> rfl
      · rw [if_pos ack, if_neg idle, if_neg fun both => idle both.2]
        rfl
    · rw [if_neg ack, if_neg fun both => ack both.1]
      rfl
  | write i offset value =>
    dsimp only [step, touched, write]
    by_cases fin : offset = 0xF00
    · rw [if_pos fin, if_pos fin, irqFin_eq wired]
      cases c.relieve i <;> rfl
    · rw [if_neg fin, if_neg fin]
      cases written (c.ctl i) offset value <;> rfl
  | line i irq level =>
    dsimp only [step, touched, irqHandler]
    split <;> rfl
  | reset => rfl

end Chain

end QemuIos.Vic

import QemuIos.Vic.Proofs.Line

/-!
# Acknowledging in a chain of two

The parent acknowledges the vector its child has selected. The child selects again without the
parent's daisy input being dropped, and where it then selects nothing the parent acknowledges a
vector that does not exist. That needs a write or a source change at the child which leaves it with
requests that its software mask all blocks, while its request stands at the parent and it serves
nothing; without one, no acknowledge goes wrong (`acknowledge_safe_iff`).
-/

namespace QemuIos.Vic

variable {c : Chain} {e : Event 2}

namespace Pl192

variable {s t : Pl192}

/-- The stack is within its bounds, and wherever a controller has the daisy input on it, its child
is known. -/
structure Stacked (s : Pl192) : Prop where
  low : 0 ≤ s.stackI
  high : s.stackI ≤ 16
  range : s.currentHighest ≤ daisyIrq ∨ s.currentHighest = noIrq
  input : s.daisyInput = true → s.daisyCallback ≠ none
  selected : s.currentHighest = daisyIrq → s.daisyCallback ≠ none
  serving : s.current = daisyIrq → s.daisyCallback ≠ none
  stacked : ∀ j : Fin 17, ((j : Nat) : Int) ≤ s.stackI → (s.irqStack j).toNat = daisyIrq →
    s.daisyCallback ≠ none

theorem stackIdx_eq {i : Int} (low : 0 ≤ i) :
    ((stackIdx (i + 1) : Nat) : Int) = min (i + 1) 16 := by
  unfold stackIdx
  split
  · next inside =>
    dsimp only
    omega
  · next outside =>
    have top : ((16 : Fin 17) : Nat) = 16 := rfl
    rw [top]
    omega

theorem input_of_highest (daisy : s.highest = daisyIrq) : s.daisyInput = true := by
  have selected := s.selects
  generalize s.highest = k at selected daisy
  cases selected with
  | nothing masked => exact absurd daisy (by decide)
  | source i asks allowed first => exact absurd daisy (ne_of_lt i.isLt)
  | daisy asks allowed first => exact asks

theorem stacked_move {n k : Nat} (s t : Pl192) (move : Move n k s t) (stacked : s.Stacked) :
    t.Stacked := by
  obtain ⟨low, high, range, input, selected, serving, stack⟩ := stacked
  cases move with
  | program programs =>
    obtain ⟨current, highest, depth, -, -, sources, callback, daisy⟩ := programs
    refine ⟨by rw [depth]; exact low, by rw [depth]; exact high, by rw [highest]; exact range,
      by rw [daisy, callback]; exact input, by rw [highest, callback]; exact selected,
      by rw [current, callback]; exact serving, ?_⟩
    rw [depth, sources, callback]
    exact stack
  | mask masked =>
    have vector : s.currentHighest ≤ daisyIrq := masked.vector
    obtain ⟨p, rfl⟩ := masked.eq
    have top := stackIdx_eq low
    refine ⟨Int.natCast_nonneg _, ?_, range, input, selected, selected, ?_⟩
    · dsimp only
      omega
    · intro j below daisy
      dsimp only at below daisy
      by_cases own : j = stackIdx (s.stackI + 1)
      · rw [own, setAt_self] at daisy
        refine selected ?_
        have small : s.currentHighest < 256 := Nat.lt_of_le_of_lt vector (by decide)
        rw [UInt8.toNat_ofNat', Nat.mod_eq_of_lt small] at daisy
        exact daisy
      · rw [setAt_of_ne _ _ own] at daisy
        have apart : (j : Nat) ≠ (stackIdx (s.stackI + 1) : Nat) := fun same => own (Fin.ext same)
        exact stack j (by omega) daisy
  | unmask unmasked =>
    cases unmasked with
    | empty idle => exact ⟨low, high, range, input, selected, serving, stack⟩
    | pop top place =>
      refine ⟨Int.natCast_nonneg _, ?_, range, input, selected, ?_, ?_⟩
      · dsimp only
        omega
      · intro daisy
        exact stack top (by omega) daisy
      · intro j below daisy
        exact stack j (by dsimp only at below; omega) daisy
  | raised vect inside =>
    exact ⟨low, high, range, fun _ => Option.some_ne_none _, fun _ => Option.some_ne_none _,
      fun _ => Option.some_ne_none _, fun _ _ _ => Option.some_ne_none _⟩
  | lowered =>
    exact ⟨low, high, range, fun no => Bool.noConfusion no, selected, serving, stack⟩
  | sense =>
    refine ⟨by rw [sense_stackI]; exact low, by rw [sense_stackI]; exact high, ?_, ?_, ?_, ?_, ?_⟩
    · rw [sense_currentHighest]
      exact highest_le s
    · rw [sense_daisyInput, sense_daisyCallback]
      exact input
    · rw [sense_currentHighest, sense_daisyCallback]
      exact fun daisy => input (input_of_highest daisy)
    · rw [sense_current, sense_daisyCallback]
      exact serving
    · rw [sense_stackI, sense_irqStack, sense_daisyCallback]
      exact stack

/-- What the last update selected is what the registers select. -/
def Synced (s : Pl192) : Prop := s.currentHighest = s.highest

theorem synced_sense : s.sense.Synced := by
  unfold Synced
  rw [sense_currentHighest, sense_highest]

/-- The selection and what it is made from are the same. -/
structure SelectsAs (s t : Pl192) : Prop where
  highest : t.highest = s.highest
  currentHighest : t.currentHighest = s.currentHighest
  daisyInput : t.daisyInput = s.daisyInput

theorem selectsAs_masked (masked : Masked { s with current := s.currentHighest } t) :
    SelectsAs s t := by
  obtain ⟨p, rfl⟩ := masked.eq
  exact ⟨rfl, rfl, rfl⟩

theorem selectsAs_unmasked (unmasked : Unmasked s t) : SelectsAs s t := by
  cases unmasked <;> exact ⟨rfl, rfl, rfl⟩

/-- A controller raises its output for an interrupt only. -/
theorem highest_of_raised (raised : s.sense.output = some true) : s.highest ≠ noIrq := by
  by_cases pending : ∃ p, s.Requests p
  · rw [output_pending pending] at raised
    split at raised
    · cases raised
    have small : s.highest ≤ daisyIrq := by simpa using raised
    intro nothing
    rw [nothing] at small
    exact absurd small (by decide)
  · rw [output_idle pending] at raised
    cases raised

/-- With its request standing at the parent and nothing in service, a child that has requests has
one that its software mask lets through. -/
def Passes (parent child : Pl192) : Prop :=
  parent.daisyInput = true → child.current = noIrq → (∃ p, child.Requests p) →
    ∃ p, child.Requests p ∧ child.Allowed p

/-- A child whose update leaves its output alone has then selected something. -/
theorem Passes.highest {parent : Pl192} (passes : Passes parent s) (up : parent.daisyInput = true)
    (silent : s.sense.output = none) : s.highest ≠ noIrq := by
  intro nothing
  by_cases pending : ∃ p, s.Requests p
  · rw [output_pending pending] at silent
    split at silent
    · next kept =>
      rcases kept with same | outranked
      · obtain ⟨p, requests, allowed⟩ := passes up (same ▸ nothing) pending
        exact (masked_iff s).mpr nothing p requests allowed
      · have small := highest_of_outranked outranked
        rw [nothing] at small
        exact absurd small (by decide)
    · cases silent
  · rw [output_idle pending] at silent
    cases silent

end Pl192

namespace Chain

variable {c c' : Chain}

open Pl192 Nat

variable {i : Nat}

/-- The states a careful run of a parent and its child leads through. -/
structure Safe (c : Chain) : Prop where
  wired : c.Wired 1
  parent : (c.ctl 0).Stacked
  child : (c.ctl 1).Stacked
  parentSynced : (c.ctl 0).Synced
  childSynced : (c.ctl 1).Synced
  vector : (c.ctl 0).daisyInput = true → (c.ctl 1).currentHighest ≠ noIrq

theorem Moved.stacked {n k : Nat} (moved : Moved n c c') (stacked : (c.ctl k).Stacked) :
    (c'.ctl k).Stacked := (moved k).keep stacked_move stacked

/-- An update of the parent leaves the child's selection as it is. -/
theorem safe_update_parent (wired : c.Wired 1) (parent : (c.ctl 0).Stacked)
    (child : (c.ctl 1).Stacked) (synced : (c.ctl 1).Synced)
    (vector : (c.ctl 0).daisyInput = true → (c.ctl 1).currentHighest ≠ noIrq) :
    Safe (c.update 0) := by
  have moved : Moved 1 c (c.update 0) := moved_update c (zero_le 1)
  have other : (c.update 0).ctl 1 = c.ctl 1 := update_above c zero_lt_one
  refine ⟨moved.wired wired, moved.stacked parent, moved.stacked child, ?_, ?_, ?_⟩
  · rw [update_own]
    exact synced_sense
  · rw [other]
    exact synced
  · rw [update_own, other, sense_daisyInput]
    exact vector

/-- An update of the child that leaves its output alone must have selected something while its
request stands. -/
theorem safe_update_child (wired : c.Wired 1) (parent : (c.ctl 0).Stacked)
    (child : (c.ctl 1).Stacked) (synced : (c.ctl 0).Synced)
    (vector : (c.ctl 0).daisyInput = true → (c.ctl 1).sense.output = none →
      (c.ctl 1).highest ≠ noIrq) : Safe (c.update 1) := by
  have moved : Moved 1 c (c.update 1) := moved_update c (le_refl 1)
  have own : (c.update 1).ctl 1 = (c.ctl 1).sense := update_own c 1
  have same : (c.sensed 1).ctl 0 = c.ctl 0 := sensed_ctl_of_ne c zero_ne_one
  refine ⟨moved.wired wired, moved.stacked parent, moved.stacked child, ?_, ?_, ?_⟩
  · cases said : (c.ctl 1).sense.output with
    | none =>
      rw [update_kept said, same]
      exact synced
    | some level =>
      rw [update_handed said, update_own]
      exact synced_sense
  · rw [own]
    exact synced_sense
  · rw [own, sense_currentHighest]
    cases said : (c.ctl 1).sense.output with
    | none =>
      rw [update_kept said, same]
      exact fun up => vector up said
    | some level =>
      rw [update_handed said, update_own, sense_daisyInput, (heard_hand (c.sensed 1) 0 level).input]
      rintro rfl
      exact highest_of_raised said

/-! ## The events -/

section

variable (safe : Safe c)
include safe

/-- A write or a source change at the parent. -/
theorem safe_programmed_parent {s : Pl192} (programs : Programs (c.ctl 0) s) :
    Safe ((c.put 0 s).update 0) := by
  have moved : Moved 1 c (c.put 0 s) := moved_put (.program programs)
  have other : (c.put 0 s).ctl 1 = c.ctl 1 := put_ctl_of_ne _ _ one_ne_zero
  refine safe_update_parent (moved.wired safe.wired) (moved.stacked safe.parent)
    (moved.stacked safe.child) ?_ ?_
  · rw [other]
    exact safe.childSynced
  · rw [other, put_ctl, programs.daisyInput]
    exact safe.vector

/-- A write or a source change at the child. -/
theorem safe_programmed_child {s : Pl192} (programs : Programs (c.ctl 1) s)
    (passes : Passes (c.ctl 0) s) : Safe ((c.put 1 s).update 1) := by
  have moved : Moved 1 c (c.put 1 s) := moved_put (.program programs)
  have other : (c.put 1 s).ctl 0 = c.ctl 0 := put_ctl_of_ne _ _ zero_ne_one
  refine safe_update_child (moved.wired safe.wired) (moved.stacked safe.parent)
    (moved.stacked safe.child) ?_ ?_
  · rw [other]
    exact safe.parentSynced
  · rw [other, put_ctl]
    exact passes.highest

theorem Safe.put {t : Pl192} (move : Move 1 i (c.ctl i) t) (selects : SelectsAs (c.ctl i) t) :
    Safe (c.put i t) := by
  have moved : Moved 1 c (c.put i t) := moved_put move
  have same : ∀ k, SelectsAs (c.ctl k) ((c.put i t).ctl k) := by
    intro k
    by_cases own : k = i
    · rw [own, put_ctl]
      exact selects
    · rw [put_ctl_of_ne _ _ own]
      exact ⟨rfl, rfl, rfl⟩
  have synced : ∀ k, (c.ctl k).Synced → ((c.put i t).ctl k).Synced := fun k synced =>
    (same k).currentHighest.trans (synced.trans (same k).highest.symm)
  refine ⟨moved.wired safe.wired, moved.stacked safe.parent, moved.stacked safe.child,
    synced 0 safe.parentSynced, synced 1 safe.childSynced, ?_⟩
  rw [(same 0).daisyInput, (same 1).currentHighest]
  exact safe.vector

section

variable (inside : i ≤ 1)
include inside

theorem Safe.update : Safe (c.update i) := by
  rcases le_one_iff_eq_zero_or_eq_one.mp inside with rfl | rfl
  · exact safe_update_parent safe.wired safe.parent safe.child safe.childSynced safe.vector
  · exact safe_update_child safe.wired safe.parent safe.child safe.parentSynced
      fun up _ => safe.childSynced ▸ safe.vector up

theorem safe_acknowledge (done : c.acknowledge i = .ok c') :
    Safe (c'.update i) := by
  obtain ⟨t, masked, cases'⟩ := acknowledge_ok safe.wired done
  have first := safe.put (.mask masked) (selectsAs_masked masked)
  rcases cases' with ⟨-, rfl⟩ | ⟨u, -, -, child, rfl⟩
  · exact first.update inside
  · rw [← put_ctl_of_ne c t (succ_ne_self i)] at child
    exact (first.put (.mask child) (selectsAs_masked child)).update inside

theorem safe_relieve (done : c.relieve i = .ok c') :
    Safe (c'.update i) := by
  obtain ⟨t, unmasked, cases'⟩ := relieve_ok safe.wired done
  have first := safe.put (.unmask unmasked) (selectsAs_unmasked unmasked)
  rcases cases' with ⟨-, rfl⟩ | ⟨u, -, low, child, rfl⟩
  · exact first.update inside
  · rw [← put_ctl_of_ne c t (succ_ne_self i)] at child
    rw [← update_relay]
    exact ((first.put (.unmask child) (selectsAs_unmasked child)).update low).update inside

theorem Safe.stacked : (c.ctl i).Stacked := by
  rcases le_one_iff_eq_zero_or_eq_one.mp inside with rfl | rfl
  · exact safe.parent
  · exact safe.child

omit inside in
/-- A child that is known is controller 1, the parent's. -/
theorem Safe.callback (known : (c.ctl i).daisyCallback ≠ none) :
    i = 0 ∧ (c.ctl 0).daisyCallback = some 1 := by
  obtain ⟨j, back⟩ := Option.ne_none_iff_exists'.mp known
  obtain ⟨rfl, low⟩ := safe.wired.callback i j back
  have zero : i = 0 := by omega
  subst zero
  exact ⟨rfl, back⟩

/-- In a safe state every acknowledge goes through. -/
theorem exists_acknowledge (pending : (c.ctl i).currentHighest ≠ noIrq) :
    ∃ d, c.acknowledge i = .ok d := by
  have stacked := safe.stacked inside
  have small := stacked.range.resolve_right pending
  obtain ⟨t, own⟩ := exists_maskPriority
    (s := { c.ctl i with current := (c.ctl i).currentHighest }) small
  unfold acknowledge
  dsimp only
  rw [own]
  dsimp only [bind, Except.bind]
  by_cases daisy : (c.ctl i).currentHighest = daisyIrq
  · obtain ⟨rfl, back⟩ := safe.callback (stacked.selected daisy)
    have up : (c.ctl 0).daisyInput = true := input_of_highest (safe.parentSynced ▸ daisy)
    have small' := safe.child.range.resolve_right (safe.vector up)
    obtain ⟨u, child⟩ :=
      exists_maskPriority (s := { c.ctl 1 with current := (c.ctl 1).currentHighest }) small'
    rw [if_pos daisy, back]
    dsimp only
    rw [put_ctl_of_ne _ _ one_ne_zero, child]
    exact ⟨_, rfl⟩
  · rw [if_neg daisy]
    exact ⟨_, rfl⟩

/-- In a safe state every end of service goes through. -/
theorem exists_relieve : ∃ d, c.relieve i = .ok d := by
  have stacked := safe.stacked inside
  obtain ⟨t, own⟩ := exists_unmaskPriority stacked.high
  unfold relieve
  dsimp only
  rw [own]
  dsimp only [bind, Except.bind]
  by_cases daisy : (c.ctl i).current = daisyIrq
  · obtain ⟨rfl, back⟩ := safe.callback (stacked.serving daisy)
    obtain ⟨u, child⟩ := exists_unmaskPriority safe.child.high
    rw [if_pos daisy, back]
    dsimp only
    rw [put_ctl_of_ne _ _ one_ne_zero, child]
    exact ⟨_, rfl⟩
  · rw [if_neg daisy]
    exact ⟨_, rfl⟩
end

end

theorem safe_resetAll (wired : c.Wired 1) : Safe (c.resetAll 2) := by
  have quiet := quiet_of_wired wired
  have settled : ∀ k ≤ 1, ((c.resetAll 2).ctl k).Stacked ∧ ((c.resetAll 2).ctl k).Synced := by
    intro k low
    have fresh := quiet.fresh k low
    have synced : ((c.resetAll 2).ctl k).Synced := by
      rw [← quiet.synced k low]
      exact synced_sense
    have nothing : ((c.resetAll 2).ctl k).currentHighest = noIrq := by
      refine synced.trans ((masked_iff _).mp fun p requests => ?_)
      have input := (fresh.requests.mp requests).1
      rw [quiet.input k low] at input
      exact Bool.noConfusion input
    refine ⟨⟨Int.le_of_eq fresh.stackI.symm, by rw [fresh.stackI]; decide, .inr nothing, ?_, ?_,
      ?_, ?_⟩, synced⟩
    · rw [quiet.input k low]
      exact fun no => Bool.noConfusion no
    · rw [nothing]
      exact fun no => absurd no (by decide)
    · rw [fresh.current]
      exact fun no => absurd no (by decide)
    · intro j below daisy
      rw [fresh.stackI] at below
      have zero : j = 0 := Fin.ext (by simpa using below)
      rw [zero, fresh.irqStack] at daisy
      exact absurd daisy (by decide)
  obtain ⟨parent, parentSynced⟩ := settled 0 (zero_le 1)
  obtain ⟨child, childSynced⟩ := settled 1 (le_refl 1)
  refine ⟨wired_resetAll wired (le_refl 2), parent, child, parentSynced, childSynced, ?_⟩
  rw [quiet.input 0 (zero_le 1)]
  exact fun no => Bool.noConfusion no

end Chain

open Chain Pl192

/-- A write or a source change at the child does not leave it with requests its software mask all
blocks, while its request stands at the parent and nothing is in service there. -/
def Careful : Except Fault Chain → Event 2 → Prop
  | .ok c, .write i offset value =>
    i = 1 → ∀ s, written (c.ctl 1) offset value = some s → Passes (c.ctl 0) s
  | .ok c, .line i irq level =>
    i = 1 → Passes (c.ctl 0) { c.ctl 1 with rawintr := driven (c.ctl 1) irq level }
  | _, _ => True

/-- The run has not met a vector that is no source, a child that is not known or an end of the
stack, and the depths are within it. -/
def Sound : Except Fault Chain → Prop
  | .ok c => (0 ≤ (c.ctl 0).stackI ∧ (c.ctl 0).stackI ≤ 16) ∧ 0 ≤ (c.ctl 1).stackI ∧
      (c.ctl 1).stackI ≤ 16
  | .error _ => False

/-- The states of a careful run. -/
def SafeRun : Except Fault Chain → Prop
  | .ok c => Safe c
  | .error _ => False

theorem zero_or_one (i : Fin 2) : i = 0 ∨ i = 1 := by omega

/-- From a safe state a careful event goes through to a safe state. -/
theorem safe_next (safe : Safe c) (careful : Careful (.ok c) e) : SafeRun (next (.ok c) e) := by
  dsimp only [next, Except.bind]
  rw [step_eq safe.wired e]
  cases e with
  | read i offset =>
    have inside : (i : Nat) ≤ 1 := Nat.le_of_lt_succ i.isLt
    dsimp only [touched]
    split
    · next pending =>
      obtain ⟨d, acked⟩ := exists_acknowledge safe inside pending.2
      rw [acked]
      exact safe_acknowledge safe inside acked
    · exact safe
  | write i offset value =>
    have inside : (i : Nat) ≤ 1 := Nat.le_of_lt_succ i.isLt
    dsimp only [touched]
    split
    · obtain ⟨d, relieved⟩ := exists_relieve safe inside
      rw [relieved]
      exact safe_relieve safe inside relieved
    cases stored : written (c.ctl i) offset value with
    | none => exact safe
    | some s =>
      rcases zero_or_one i with rfl | rfl
      · exact safe_programmed_parent safe (programs_written stored)
      · exact safe_programmed_child safe (programs_written stored) (careful rfl s stored)
  | line i irq level =>
    dsimp only [touched]
    split
    · rcases zero_or_one i with rfl | rfl
      · exact safe_programmed_parent safe ⟨rfl, rfl, rfl, rfl, rfl, rfl, rfl, rfl, rfl⟩
      · exact safe_programmed_child safe ⟨rfl, rfl, rfl, rfl, rfl, rfl, rfl, rfl, rfl⟩ (careful rfl)
    · exact safe
  | reset => exact safe_resetAll safe.wired

/-- The parent's sources are shut off, its mask opened, and the CPU acknowledges. -/
def probe : List (Event 2) := [.write 0 0x24 0xffff, .write 0 0x14 0xffffffff, .read 0 0xF00]

/-- The parent acknowledges a child that has selected nothing. -/
theorem acknowledge_faults (daisy : (c.ctl 0).currentHighest = daisyIrq)
    (back : (c.ctl 0).daisyCallback = some 1) (nothing : (c.ctl 1).currentHighest = noIrq) :
    c.acknowledge 0 = .error (.vector noIrq) := by
  obtain ⟨t, own⟩ := exists_maskPriority (s := { c.ctl 0 with current := (c.ctl 0).currentHighest })
    (le_of_eq daisy)
  unfold acknowledge
  dsimp only
  rw [own]
  dsimp only [bind, Except.bind]
  rw [if_pos daisy, back]
  dsimp only
  rw [put_ctl_of_ne _ _ one_ne_zero, nothing]
  rfl

/-- Where the child's request stands and it has selected nothing, accesses to the parent alone lead
to a vector that is no source. -/
theorem probe_faults (up : (c.ctl 0).daisyInput = true) (back : (c.ctl 0).daisyCallback = some 1)
    (nothing : (c.ctl 1).currentHighest = noIrq) :
    probe.foldl next (.ok c) = .error (.vector noIrq) := by
  let s : Pl192 := { c.ctl 0 with swPriorityMask := 0xffff }
  let d : Chain := (c.put 0 s).update 0
  let t : Pl192 := { d.ctl 0 with intenable := (d.ctl 0).intenable &&& ~~~0xffffffff }
  let f : Chain := (d.put 0 t).update 0
  have opened : next (.ok c) (.write 0 0x24 0xffff : Event 2) = .ok d := rfl
  have shut : next (.ok d) (.write 0 0x14 0xffffffff : Event 2) = .ok f := rfl
  have first : d.ctl 0 = s.sense := by rw [update_own, put_ctl]
  have second : f.ctl 0 = t.sense := by rw [update_own, put_ctl]
  have child : (f.ctl 1).currentHighest = noIrq := by
    rw [update_above _ zero_lt_one, put_ctl_of_ne _ _ one_ne_zero,
      update_above _ zero_lt_one, put_ctl_of_ne _ _ one_ne_zero]
    exact nothing
  have input : t.daisyInput = true := by
    change (d.ctl 0).daisyInput = true
    rw [first, sense_daisyInput]
    exact up
  have mask : t.swPriorityMask = 0xffff := by
    change (d.ctl 0).swPriorityMask = 0xffff
    rw [first, sense_swPriorityMask]
  have off : t.requested = 0 := by
    unfold Pl192.requested
    have zero : t.intenable = 0 := by
      change (d.ctl 0).intenable &&& 0 = 0
      exact UInt32.and_zero
    rw [zero]
    simp
  -- only the daisy input is left to select
  have daisy : t.highest = daisyIrq := by
    have allowed : t.Allowed t.daisyPriority := by
      unfold Allowed
      rw [mask]
      generalize t.daisyPriority = p
      revert p
      decide
    have selected := t.selects
    generalize t.highest = k at selected
    cases selected with
    | nothing masked => exact absurd allowed (masked _ (.inr ⟨input, rfl⟩))
    | source i asks _ _ =>
      rw [off, bit_zero] at asks
      exact Bool.noConfusion asks
    | daisy _ _ _ => rfl
  have known : (f.ctl 0).daisyCallback = some 1 := by
    rw [second, sense_daisyCallback]
    change (d.ctl 0).daisyCallback = some 1
    rw [first, sense_daisyCallback]
    exact back
  have faults : f.acknowledge 0 = .error (.vector noIrq) :=
    acknowledge_faults (by rw [second, sense_currentHighest, daisy]) known child
  have read : next (.ok f) (.read 0 0xF00 : Event 2) = .error (.vector noIrq) := by
    have pending : (f.ctl 0).currentHighest ≠ noIrq := by
      rw [second, sense_currentHighest, daisy]
      decide
    change (f.read 0 0xF00).map Prod.snd = .error (.vector noIrq)
    rw [read_snd, if_pos (.inr rfl), irqAck_snd, if_pos pending, faults]
    rfl
  unfold probe
  rw [List.foldl_cons, opened, List.foldl_cons, shut, List.foldl_cons, read]
  rfl

theorem careful_probe (run : Except Fault Chain) : Trace.Along next Careful run probe := by
  have parent : ∀ (run : Except Fault Chain) (offset : Nat) (value : UInt64),
      Careful run (.write 0 offset value) := by
    intro run offset value
    cases run with
    | ok c => exact fun child => absurd child (by decide)
    | error f => trivial
  refine ⟨parent _ _ _, parent _ _ _, ?_, trivial⟩
  dsimp only [Careful]
  split <;> trivial

/-- An event that is not careful writes registers at the child that do not pass. -/
theorem careless_writes (safe : Safe c) (careless : ¬ Careful (.ok c) e) :
    ∃ s, next (.ok c) e = .ok ((c.put 1 s).update 1) ∧ ¬ Passes (c.ctl 0) s := by
  cases e with
  | read i offset => exact absurd trivial careless
  | reset => exact absurd trivial careless
  | write i offset value =>
    simp only [Careful, Classical.not_imp, not_forall] at careless
    obtain ⟨rfl, s, stored, fails⟩ := careless
    refine ⟨s, ?_, fails⟩
    have other : offset ≠ 0xF00 := by
      rintro rfl
      cases stored
    change c.write 1 offset value = _
    unfold write
    rw [if_neg other, stored]
    rfl
  | line i irq level =>
    simp only [Careful, Classical.not_imp] at careless
    obtain ⟨rfl, fails⟩ := careless
    refine ⟨_, ?_, fails⟩
    have changed : driven (c.ctl 1) irq level ≠ (c.ctl 1).rawintr := by
      intro same
      refine fails fun up _ _ => ?_
      rw [same]
      by_contra masked
      have nothing := (masked_iff (c.ctl 1)).mp fun p requests allowed =>
        masked ⟨p, requests, allowed⟩
      exact safe.vector up (safe.childSynced.trans nothing)
    change Except.ok (c.irqHandler 1 irq level) = _
    unfold irqHandler
    rw [if_pos changed]

/-- It leaves the child's request standing with nothing selected. -/
theorem faults_of_careless (safe : Safe c) (careless : ¬ Careful (.ok c) e) :
    ∃ tail, Trace.Along next Careful (next (.ok c) e) tail ∧
      ¬ Sound (tail.foldl next (next (.ok c) e)) := by
  obtain ⟨s, step, fails⟩ := careless_writes safe careless
  simp only [Passes, Classical.not_imp, not_exists, not_and] at fails
  obtain ⟨up, idle, pending, masked⟩ := fails
  have nothing : s.highest = noIrq := (masked_iff s).mp masked
  have silent : ((c.put 1 s).ctl 1).sense.output = none := by
    rw [put_ctl, output_pending pending, if_pos (.inl (nothing.trans idle.symm))]
  have parent : (((c.put 1 s).update 1).ctl 0) = c.ctl 0 := by
    rw [update_kept silent, sensed_ctl_of_ne _ Nat.zero_ne_one, put_ctl_of_ne _ _ Nat.zero_ne_one]
  have child : ((c.put 1 s).update 1).ctl 1 = s.sense := by rw [update_own, put_ctl]
  have back := (safe.callback (safe.parent.input up)).2
  refine ⟨probe, careful_probe _, ?_⟩
  rw [step, probe_faults (by rw [parent]; exact up) (by rw [parent]; exact back)
    (by rw [child, sense_currentHighest]; exact nothing)]
  exact id

/-- No step of a run goes out of bounds however the run goes on, as long as it is careful, exactly
if every step of it is careful. -/
theorem acknowledge_safe_iff (es : List (Event 2)) :
    Trace.Along next Careful (.ok (Chain.boot 2)) es ↔
      ∀ k tail, Trace.Along next Careful ((es.take k).foldl next (.ok (Chain.boot 2))) tail →
        Sound (tail.foldl next ((es.take k).foldl next (.ok (Chain.boot 2)))) := by
  refine @Trace.safe_iff _ _ _ _ SafeRun _ ?_ ?_ ?_ _ es (safe_resetAll (wired_zero 1))
  · intro run safe
    cases run with
    | error f => exact safe.elim
    | ok c => exact ⟨⟨safe.parent.low, safe.parent.high⟩, safe.child.low, safe.child.high⟩
  · intro run e safe careful
    cases run with
    | error f => exact safe.elim
    | ok c => exact safe_next safe careful
  · intro run e safe careless
    cases run with
    | error f => exact safe.elim
    | ok c => exact faults_of_careless safe careless

/-- The fault a run has ended in. -/
def faultOf : Except Fault Chain → Option Fault
  | .ok _ => none
  | .error f => some f

/-- The child's request stands, its mask is shut, and the parent acknowledges vector 33. -/
theorem acknowledges_no_source :
    faultOf (([.write 1 0x10 0x20, .line 1 5 true, .write 1 0x24 0, .read 0 0xF00] :
      List (Event 2)).foldl next (.ok (Chain.boot 2))) = some (.vector noIrq) := by
  decide +kernel

end QemuIos.Vic

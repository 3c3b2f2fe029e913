import QemuIos.Lib.Field
import QemuIos.Lib.Trace
import QemuIos.Vic.Proofs.Reset

/-!
# The CPU's interrupt line

The registers define when the IRQ is wanted (`Pl192.Wanted`); the code drives the line step by step,
and there are updates that leave it as it is. The line is right in every state of a run exactly if
no event changes whether the IRQ is wanted in a way its update passes over (`irq_line_iff`): an
acknowledge does, as the line stays up while the acknowledged interrupt or one of no higher priority
is pending, and so does a software mask that blocks every request while nothing is in service.
-/

namespace QemuIos.Vic

namespace Pl192

variable {s t : Pl192}

/-- Something asks for the IRQ exactly if a status bit or the daisy input is set. -/
theorem exists_requests :
    (s.requested != 0 || s.daisyInput) = true ↔ ∃ p, s.Requests p := by
  constructor
  · intro pending
    by_contra idle
    have clear : s.requested = 0 := by
      refine Field.ext fun i small => ?_
      by_contra asks
      refine idle ⟨s.vectPriority ⟨i, small⟩, .inl ⟨⟨i, small⟩, ?_, rfl⟩⟩
      simpa [bit] using asks
    have input : s.daisyInput = false := by
      by_contra up
      exact idle ⟨s.daisyPriority, .inr ⟨by simpa using up, rfl⟩⟩
    rw [clear, input] at pending
    exact absurd pending (by decide)
  · rintro ⟨p, ⟨i, asks, -⟩ | ⟨asks, -⟩⟩
    · have nonzero : s.requested ≠ 0 := by
        intro zero
        rw [zero, bit_zero] at asks
        exact Bool.noConfusion asks
      simp [nonzero]
    · simp [asks]

/-- Every request is blocked exactly if nothing is selected. -/
theorem masked_iff (s : Pl192) : (∀ p, s.Requests p → ¬ s.Allowed p) ↔ s.highest = noIrq := by
  have selected := s.selects
  generalize s.highest = k at selected
  cases selected with
  | nothing masked => exact iff_of_true masked rfl
  | source i asks allowed first =>
    refine iff_of_false (fun masked => masked _ (.inl ⟨i, asks, rfl⟩) allowed) ?_
    have small := i.isLt
    unfold noIrq
    omega
  | daisy asks allowed first =>
    exact iff_of_false (fun masked => masked _ (.inr ⟨asks, rfl⟩) allowed) (by decide)

theorem highest_le (s : Pl192) : s.highest ≤ daisyIrq ∨ s.highest = noIrq := by
  have selected := s.selects
  generalize s.highest = k at selected
  cases selected with
  | nothing masked => exact .inr rfl
  | source i asks allowed first => exact .inl (le_of_lt i.isLt)
  | daisy asks allowed first => exact .inl (le_refl _)

/-- The change from one set of registers to another is one an update acts on. An IRQ that is no
longer wanted leaves no request, or only requests the software mask blocks with an interrupt in
service; an IRQ that becomes wanted is not for the interrupt in service itself. -/
structure Settles (s t : Pl192) : Prop where
  falls : s.Wanted → ¬ t.Wanted →
    (∀ p, ¬ t.Requests p) ∨ ((∀ p, t.Requests p → ¬ t.Allowed p) ∧ t.current ≠ noIrq)
  rises : ¬ s.Wanted → t.Wanted → t.highest ≠ t.current

/-- What an update does about its output, by what is pending. -/
theorem output_pending (pending : ∃ p, s.Requests p) :
    s.sense.output =
      if s.highest = s.current ∨ s.sense.outranked = true then none
      else some (decide (s.highest ≤ daisyIrq)) := by
  unfold output
  rw [sense_irqStatus, sense_daisyInput, sense_currentHighest, sense_current,
    if_pos (exists_requests.mpr pending)]
  simp

theorem output_idle (idle : ¬ ∃ p, s.Requests p) : s.sense.output = some false := by
  unfold output
  rw [sense_irqStatus, sense_daisyInput, if_neg fun pending => idle (exists_requests.mp pending)]

theorem highest_of_outranked (low : s.sense.outranked = true) : s.highest ≤ daisyIrq := by
  by_contra high
  have nothing : s.highest = noIrq := (highest_le s).resolve_left high
  unfold outranked at low
  simp [nothing, noIrq, daisyIrq] at low

/-- A line that was right is right after an update exactly if the change settles. -/
theorem right_iff {line : Bool} (before : line = true ↔ s.Wanted) (ranked : t.Ranked) :
    (t.sense.output.getD line = true ↔ t.Wanted) ↔ Settles s t := by
  have want := wanted_iff ranked
  by_cases pending : ∃ p, t.Requests p
  · have busy : ¬ ∀ p, ¬ t.Requests p := fun idle => pending.elim idle
    rw [output_pending pending]
    by_cases kept : t.highest = t.current ∨ t.sense.outranked = true
    · rw [if_pos kept, Option.getD_none, before]
      -- the update leaves the line alone, so the wish must not have changed
      have seen : t.highest = t.current ∨ t.highest ≤ daisyIrq :=
        kept.imp_right highest_of_outranked
      have unblocked : ¬ ((∀ p, t.Requests p → ¬ t.Allowed p) ∧ t.current ≠ noIrq) := by
        rintro ⟨masked, serving⟩
        have nothing := (masked_iff t).mp masked
        rcases seen with same | small
        · exact serving (same ▸ nothing)
        · rw [nothing] at small
          exact absurd small (by decide)
      constructor
      · intro same
        refine ⟨fun was is => absurd (same.mp was) is, fun was is => absurd (same.mpr is) was⟩
      · rintro ⟨falls, rises⟩
        constructor
        · intro was
          by_contra is
          rcases falls was is with idle | ⟨masked, serving⟩
          · exact busy idle
          · exact unblocked ⟨masked, serving⟩
        · intro is
          by_contra was
          have other := rises was is
          rw [(want.mp is).2] at kept
          exact other (kept.resolve_right Bool.false_ne_true)
    · rw [if_neg kept, Option.getD_some, decide_eq_true_iff]
      rw [not_or] at kept
      have above : t.sense.outranked = false := by simpa using kept.2
      refine iff_of_true ⟨fun small => want.mpr ⟨small, above⟩, fun is => (want.mp is).1⟩ ⟨?_, ?_⟩
      · intro _ unwanted
        have nothing : t.highest = noIrq :=
          (highest_le t).resolve_left fun small => unwanted (want.mpr ⟨small, above⟩)
        exact .inr ⟨(masked_iff t).mpr nothing, fun idle => kept.1 (nothing.trans idle.symm)⟩
      · exact fun _ _ => kept.1
  · have idle : ¬ t.Wanted := fun ⟨p, requests, _⟩ => pending ⟨p, requests⟩
    rw [output_idle pending, Option.getD_some]
    refine iff_of_true (iff_of_false Bool.false_ne_true idle) ⟨?_, fun _ is => absurd is idle⟩
    exact fun _ _ => .inl fun p requests => pending ⟨p, requests⟩

end Pl192

namespace Chain

variable {c : Chain} {n : Nat}

open Pl192 Nat

/-- The chain when an update that starts at a controller gets to controller 0, or as it ends short
of it. -/
def entering : Nat → Chain → Chain
  | 0, c => c
  | i + 1, c =>
    let c := c.sensed (i + 1)
    match (c.ctl (i + 1)).output with
    | none => c
    | some level => entering i (c.hand i level)

/-- The chain that an event presents to controller 0. -/
def presented : Chain × Option Nat → Chain
  | (c, none) => c
  | (c, some i) => c.entering i

/-- An update either gets to controller 0, which then drives the line, or leaves it alone. -/
theorem update_root (c : Chain) (i : Nat) :
    ((c.update i).ctl 0 = ((c.entering i).ctl 0).sense ∧
      (c.update i).irq = ((c.entering i).ctl 0).sense.output.getD c.irq) ∨
    (0 < i ∧ (c.update i).ctl 0 = c.ctl 0 ∧ (c.entering i).ctl 0 = c.ctl 0 ∧
      (c.update i).irq = c.irq) := by
  induction i generalizing c with
  | zero =>
    refine .inl ⟨update_own c 0, ?_⟩
    rw [update_zero]
    rfl
  | succ i ih =>
    have own := sensed_ctl_of_ne c (i := i + 1) (j := 0) (by omega)
    cases said : (c.ctl (i + 1)).sense.output with
    | none =>
      have enter : c.entering (i + 1) = c.sensed (i + 1) := by
        conv_lhs => unfold entering
        simp only [sensed_ctl, said]
      rw [update_kept said, enter]
      exact .inr ⟨succ_pos i, own, own, rfl⟩
    | some level =>
      have enter : c.entering (i + 1) = ((c.sensed (i + 1)).hand i level).entering i := by
        conv_lhs => unfold entering
        simp only [sensed_ctl, said]
      rw [update_handed said, enter]
      refine (ih _).imp_right ?_
      rintro ⟨pos, root, entered, irq⟩
      have handed : ((c.sensed (i + 1)).hand i level).ctl 0 = c.ctl 0 := by
        rw [hand_ctl_of_ne _ _ (by omega), own]
      exact ⟨succ_pos i, root.trans handed, entered.trans handed, irq⟩

theorem moved_entering (c : Chain) {i : Nat} (inside : i ≤ n) : Moved n c (c.entering i) := by
  induction i generalizing c with
  | zero => exact Moved.refl n c
  | succ i ih =>
    have own := moved_sensed n c (i + 1)
    unfold entering
    dsimp only
    split
    · exact own
    · exact (own.trans (moved_hand _ _ inside)).trans (ih _ (le_of_succ_le inside))

/-- The states a run leads through. -/
structure Right (n : Nat) (c : Chain) : Prop where
  wired : c.Wired n
  ranked : (c.ctl 0).Ranked
  line : c.irq = true ↔ (c.ctl 0).Wanted

theorem right_resetAll (wired : c.Wired n) : Right n (c.resetAll (n + 1)) := by
  have quiet := quiet_of_wired wired
  have root := quiet.fresh 0 (zero_le n)
  refine ⟨wired_resetAll wired (le_refl _), root.ranked, ?_⟩
  have idle : ¬ ((c.resetAll (n + 1)).ctl 0).Wanted := by
    rintro ⟨p, requests, -⟩
    have input := (root.requests.mp requests).1
    rw [quiet.input 0 (zero_le n)] at input
    exact Bool.noConfusion input
  rw [quiet.irq]
  exact iff_of_false Bool.false_ne_true idle

theorem settles_resetAll (wired : c.Wired n) (s : Pl192) :
    s.Settles ((c.resetAll (n + 1)).ctl 0) := by
  have quiet := quiet_of_wired wired
  have root := quiet.fresh 0 (zero_le n)
  have idle : ∀ p, ¬ ((c.resetAll (n + 1)).ctl 0).Requests p := by
    intro p requests
    have input := (root.requests.mp requests).1
    rw [quiet.input 0 (zero_le n)] at input
    exact Bool.noConfusion input
  exact ⟨fun _ _ => .inl idle, fun _ ⟨p, requests, _⟩ => absurd requests (idle p)⟩

/-- From a right state, an event that goes through leads to a state whose line is right exactly if
what it presents to controller 0 settles. -/
theorem step_right (right : Right n c) {e : Event (n + 1)} {t : Chain × Option Nat}
    (done : c.touched e = .ok t) :
    (finish t).Wired n ∧ ((finish t).ctl 0).Ranked ∧
      (((finish t).irq = true ↔ ((finish t).ctl 0).Wanted) ↔
        (c.ctl 0).Settles ((presented t).ctl 0)) := by
  obtain ⟨c', o⟩ := t
  have same : (c.ctl 0).Settles (c.ctl 0) :=
    ⟨fun was is => absurd was is, fun was is => absurd is was⟩
  have wrote := touched_wrote done
  cases o with
  | none =>
    cases wrote with
    | nothing => exact ⟨right.wired, right.ranked, iff_of_true right.line same⟩
    | reset =>
      have after := right_resetAll right.wired
      exact ⟨after.wired, after.ranked, iff_of_true after.line (settles_resetAll right.wired _)⟩
  | some i =>
    have touches := wrote.touches right.wired
    have moved := touches.moved.trans (moved_update c' touches.inside)
    refine ⟨moved.wired right.wired, moved.ranked right.ranked, ?_⟩
    have entered : ((c'.entering i).ctl 0).Ranked :=
      (touches.moved.trans (moved_entering c' touches.inside)).ranked right.ranked
    dsimp only [finish, presented]
    rcases update_root c' i with ⟨root, irq⟩ | ⟨pos, root, enter, irq⟩
    · rw [root, irq, sense_wanted, touches.irq]
      exact right_iff right.line entered
    · rw [root, enter, irq, touches.irq, touches.below 0 pos]
      exact iff_of_true right.line same

end Chain

variable {n : Nat}

open Chain

/-- The CPU's line is asserted exactly if the registers of controller 0 want the IRQ. -/
def LineRight : Except Fault Chain → Prop
  | .ok c => c.irq = true ↔ (c.ctl 0).Wanted
  | .error _ => False

instance : DecidablePred LineRight
  | .ok c => inferInstanceAs (Decidable (c.irq = true ↔ (c.ctl 0).Wanted))
  | .error _ => inferInstanceAs (Decidable False)

/-- An event goes through, and its writes are such that controller 0's update acts on the change. -/
def Settled : Except Fault Chain → Event n → Prop
  | .ok c, e =>
    match c.touched e with
    | .ok t => (c.ctl 0).Settles ((presented t).ctl 0)
    | .error _ => False
  | .error _, _ => False

/-- The states of a run that does not fault. -/
def Runs (n : Nat) : Except Fault Chain → Prop
  | .ok c => Right n c
  | .error _ => False

/-- The line is right in every state of a run from reset exactly if every event settles. -/
theorem irq_line_iff (n : Nat) (es : List (Event (n + 1))) :
    (∀ k, LineRight ((es.take k).foldl next (.ok (Chain.boot (n + 1))))) ↔
      Trace.Along next Settled (.ok (Chain.boot (n + 1))) es := by
  refine @Trace.every_iff _ _ _ _ (Runs n) _ ?_ ?_ ?_ _ es (right_resetAll (wired_zero n))
  · intro run runs
    cases run with
    | ok c => exact runs.line
    | error f => exact runs
  · intro run e runs settled
    cases run with
    | error f => exact runs
    | ok c =>
      have step := step_eq runs.wired e
      dsimp only [next, Except.bind]
      dsimp only [Settled] at settled
      rw [step]
      cases done : c.touched e with
      | error f =>
        rw [done] at settled
        exact settled
      | ok t =>
        rw [done] at settled
        obtain ⟨wired, ranked, line⟩ := step_right runs done
        exact ⟨wired, ranked, line.mpr settled⟩
  · intro run e runs right
    cases run with
    | error f => exact runs
    | ok c =>
      have step := step_eq runs.wired e
      dsimp only [next, Except.bind] at right
      rw [step] at right
      dsimp only [Settled]
      cases done : c.touched e with
      | error f =>
        rw [done] at right
        exact right
      | ok t =>
        rw [done] at right
        exact (step_right runs done).2.2.mp right

/-- The line is wrong after three short runs. An acknowledged interrupt holds it up; so does a
request that the software mask blocks with nothing in service; and a source in service that is made
more urgent does not raise it again. -/
theorem line_goes_wrong :
    ¬ LineRight (([.write 0 0x10 0x20, .line 0 5 true, .read 0 0xF00] : List (Event 1)).foldl next
        (.ok (Chain.boot 1))) ∧
      ¬ LineRight (([.write 0 0x10 0x20, .line 0 5 true, .write 0 0x24 0] : List (Event 1)).foldl
        next (.ok (Chain.boot 1))) ∧
      ¬ LineRight (([.write 0 0x10 0x20, .line 0 5 true, .read 0 0xF00, .line 0 5 false,
        .write 0 0x214 3, .line 0 5 true] : List (Event 1)).foldl next (.ok (Chain.boot 1))) := by
  refine ⟨?_, ?_, ?_⟩
  · decide +kernel
  · decide +kernel
  · decide +kernel

end QemuIos.Vic

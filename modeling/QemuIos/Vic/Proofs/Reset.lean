import QemuIos.Vic.Proofs.Moves

/-!
# The chain after a reset

A reset of one controller leaves its daisy input as its child last drove it. While the controllers
are reset one after the other, all those done show the level of the last one's input, and so does
the CPU's line; the last controller of the chain has no child, so in the end no level is up.
-/

namespace QemuIos.Vic

namespace Pl192

variable {s : Pl192}

/-- The registers of a controller that has been reset, but for what its child drives. -/
structure Fresh (s : Pl192) : Prop where
  intenable : s.intenable = 0
  mask : s.swPriorityMask = 0xffff
  daisyPriority : s.daisyPriority = 15
  current : s.current = noIrq
  priority : s.priority = 16
  stackI : s.stackI = 0
  priorityStack : s.priorityStack 0 = 16
  irqStack : s.irqStack 0 = 33

theorem fresh_resetRegs : s.resetRegs.Fresh :=
  ⟨rfl, rfl, rfl, rfl, rfl, rfl, rfl, rfl⟩

theorem Fresh.ranked (fresh : s.Fresh) : s.Ranked :=
  ⟨Int.le_of_eq fresh.stackI.symm, fun _ => fresh.priority, fresh.priorityStack⟩

theorem Fresh.sense (fresh : s.Fresh) : s.sense.Fresh := by
  obtain ⟨enable, mask, daisy, current, priority, depth, levels, sources⟩ := fresh
  exact ⟨by rw [sense_intenable, enable], by rw [sense_swPriorityMask, mask],
    by rw [sense_daisyPriority, daisy], by rw [sense_current, current],
    by rw [sense_priority, priority], by rw [sense_stackI, depth],
    by rw [sense_priorityStack, levels], by rw [sense_irqStack, sources]⟩

theorem Fresh.requested (fresh : s.Fresh) : s.requested = 0 := by
  unfold Pl192.requested
  rw [fresh.intenable]
  simp

theorem Fresh.requests (fresh : s.Fresh) {p : Fin 16} :
    s.Requests p ↔ s.daisyInput = true ∧ p = 15 := by
  unfold Requests
  rw [fresh.requested, fresh.daisyPriority]
  constructor
  · rintro (⟨i, asks, -⟩ | ⟨asks, level⟩)
    · rw [bit_zero] at asks
      exact Bool.noConfusion asks
    · exact ⟨asks, level.symm⟩
  · exact fun both => .inr ⟨both.1, both.2.symm⟩

/-- With every source off, a controller hands on what its child drives. -/
theorem Fresh.output (fresh : s.Fresh) : s.sense.output = some s.daisyInput := by
  have idle : s.sense.irqStatus = 0 := by rw [sense_irqStatus, fresh.requested]
  unfold Pl192.output
  rw [idle, sense_daisyInput]
  cases input : s.daisyInput with
  | false => rfl
  | true =>
    have wanted : s.Wanted := by
      refine ⟨15, fresh.requests.mpr ⟨input, rfl⟩, ?_, .inl fresh.stackI⟩
      unfold Allowed
      rw [fresh.mask]
      decide
    obtain ⟨small, above⟩ := (wanted_iff fresh.ranked).mp wanted
    have other : s.highest ≠ s.current := by
      rw [fresh.current]
      intro same
      rw [same] at small
      exact absurd small (by decide)
    simp [sense_currentHighest, sense_current, other, above, small]

end Pl192

namespace Chain

variable {c : Chain} {i n : Nat}

open Pl192 List Nat

/-- Every controller up to a place is fresh and in step with the level the one at that place is
driven at. -/
structure Quiet (i : Nat) (level : Bool) (c : Chain) : Prop where
  fresh : ∀ k ≤ i, (c.ctl k).Fresh
  input : ∀ k ≤ i, (c.ctl k).daisyInput = level
  synced : ∀ k ≤ i, (c.ctl k).sense = c.ctl k
  irq : c.irq = level

theorem fresh_hand {k : Nat} {level : Bool} (fresh : (c.ctl k).Fresh) :
    ((c.hand i level).ctl k).Fresh := by
  by_cases own : k = i
  · subst own
    unfold hand
    rw [put_ctl]
    obtain ⟨enable, mask, daisy, current, priority, depth, levels, sources⟩ := fresh
    split <;> exact ⟨enable, mask, daisy, current, priority, depth, levels, sources⟩
  · rw [hand_ctl_of_ne _ _ own]
    exact fresh

theorem quiet_update (fresh : ∀ k ≤ i, (c.ctl k).Fresh) :
    Quiet i (c.ctl i).daisyInput (c.update i) := by
  induction i generalizing c with
  | zero =>
    have root := fresh 0 (le_refl 0)
    have own := update_own c 0
    refine ⟨?_, ?_, ?_, ?_⟩
    · intro k low
      rw [le_zero.mp low, own]
      exact root.sense
    · intro k low
      rw [le_zero.mp low, own, sense_daisyInput]
    · intro k low
      rw [le_zero.mp low, own, sense_sense]
    · rw [update_zero, root.output]
      rfl
  | succ i ih =>
    have here := fresh (i + 1) (le_refl _)
    have own := update_own c (i + 1)
    have others : ∀ k ≤ i,
        (((c.sensed (i + 1)).hand i (c.ctl (i + 1)).daisyInput).ctl k).Fresh := by
      intro k low
      refine fresh_hand ?_
      rw [sensed_ctl_of_ne _ (by omega)]
      exact fresh k (by omega)
    have next := ih others
    rw [(heard_hand (c.sensed (i + 1)) i (c.ctl (i + 1)).daisyInput).input,
      ← update_handed here.output] at next
    have last : ∀ k, k ≤ i + 1 → ¬ k ≤ i → k = i + 1 := fun k low high => by omega
    refine ⟨?_, ?_, ?_, next.irq⟩
    · intro k low
      by_cases lower : k ≤ i
      · exact next.fresh k lower
      · rw [last k low lower, own]
        exact here.sense
    · intro k low
      by_cases lower : k ≤ i
      · exact next.input k lower
      · rw [last k low lower, own, sense_daisyInput]
    · intro k low
      by_cases lower : k ≤ i
      · exact next.synced k lower
      · rw [last k low lower, own, sense_sense]

/-- The resets so far leave the controllers that are done in step with the last one's input, and
the others alone. -/
theorem quiet_resetAll :
    Quiet i (c.ctl i).daisyInput (c.resetAll (i + 1)) ∧
      ∀ k, i < k → (c.resetAll (i + 1)).ctl k = c.ctl k := by
  have reset_above : ∀ (d : Chain) (j k : Nat), j < k → (d.reset j).ctl k = d.ctl k := by
    intro d j k above
    unfold reset
    rw [update_above _ above, put_ctl_of_ne _ _ (ne_of_gt above)]
  induction i with
  | zero =>
    refine ⟨?_, fun k above => reset_above c 0 k above⟩
    refine quiet_update (c := c.put 0 (c.ctl 0).resetRegs) fun k low => ?_
    rw [le_zero.mp low, put_ctl]
    exact fresh_resetRegs
  | succ i ih =>
    obtain ⟨quiet, above⟩ := ih
    have parts : c.resetAll (i + 1 + 1) = (c.resetAll (i + 1)).reset (i + 1) := by
      unfold resetAll
      rw [range_succ, foldl_append]
      rfl
    rw [parts]
    refine ⟨?_, fun k high => ?_⟩
    · have fresh : ∀ k ≤ i + 1, (((c.resetAll (i + 1)).put (i + 1)
          ((c.resetAll (i + 1)).ctl (i + 1)).resetRegs).ctl k).Fresh := by
        intro k low
        by_cases own : k = i + 1
        · rw [own, put_ctl]
          exact fresh_resetRegs
        · rw [put_ctl_of_ne _ _ own]
          exact quiet.fresh k (by omega)
      have done := quiet_update fresh
      rw [put_ctl] at done
      have input : ((c.resetAll (i + 1)).ctl (i + 1)).resetRegs.daisyInput =
          (c.ctl (i + 1)).daisyInput := by rw [above (i + 1) (lt_succ_self i)]; rfl
      rw [input] at done
      exact done
    · rw [reset_above _ _ _ high, above k (by omega)]

theorem wired_reset (wired : c.Wired n) (inside : i ≤ n) : (c.reset i).Wired n := by
  refine (moved_update _ inside).wired ⟨?_, ?_⟩
  · intro k j back
    by_cases own : k = i
    · subst own
      rw [put_ctl] at back
      exact wired.callback k j back
    · rw [put_ctl_of_ne _ _ own] at back
      exact wired.callback k j back
  · intro k input
    by_cases own : k = i
    · subst own
      rw [put_ctl] at input
      exact wired.input k input
    · rw [put_ctl_of_ne _ _ own] at input
      exact wired.input k input

theorem wired_resetAll (wired : c.Wired n) {m : Nat} (inside : m ≤ n + 1) :
    (c.resetAll m).Wired n := by
  induction m with
  | zero => exact wired
  | succ m ih =>
    unfold resetAll
    rw [range_succ, foldl_append]
    exact wired_reset (ih (by omega)) (by omega)

/-- A machine's reset leaves every level down. -/
theorem quiet_of_wired (wired : c.Wired n) : Quiet n false (c.resetAll (n + 1)) := by
  have last : (c.ctl n).daisyInput = false := by
    by_contra up
    exact lt_irrefl n (wired.input n (by simpa using up))
  rw [← last]
  exact quiet_resetAll.1

theorem wired_zero (n : Nat) : Wired n ⟨fun _ => .zero, false, false⟩ :=
  ⟨fun _ _ back => (nomatch back), fun _ input => Bool.noConfusion input⟩

end Chain

end QemuIos.Vic

import Mathlib.Logic.Relation
import QemuIos.Vic.Proofs.Chain

/-!
# What can happen to one controller

Whatever the event, the registers of a controller change by a few kinds of moves: the guest or a
device writes its inputs, an interrupt is stacked or unstacked, its child hands it a level, or an
update computes the rest (`step_moves`). What each move keeps therefore holds of every controller
after every event.
-/

namespace QemuIos.Vic

namespace Pl192

variable {s t : Pl192}

/-- The registers that neither the guest nor a device can write directly. -/
structure Programs (s t : Pl192) : Prop where
  current : t.current = s.current
  currentHighest : t.currentHighest = s.currentHighest
  stackI : t.stackI = s.stackI
  priority : t.priority = s.priority
  priorityStack : t.priorityStack = s.priorityStack
  irqStack : t.irqStack = s.irqStack
  daisyCallback : t.daisyCallback = s.daisyCallback
  daisyInput : t.daisyInput = s.daisyInput
  daisyVectaddr : t.daisyVectaddr = s.daisyVectaddr

/-- An acknowledge stacks `current` with its priority. -/
structure Masked (s t : Pl192) : Prop where
  vector : s.current ≤ daisyIrq
  eq : ∃ p : Fin 16, t = { s with
    stackI := (stackIdx (s.stackI + 1) : Nat)
    priority := p
    priorityStack := setAt s.priorityStack (stackIdx (s.stackI + 1)) p
    irqStack := setAt s.irqStack (stackIdx (s.stackI + 1)) (UInt8.ofNat s.current) }

theorem maskPriority_ok (done : s.maskPriority = .ok t) : Masked s t := by
  unfold maskPriority at done
  by_cases daisy : s.current = daisyIrq
  · rw [if_pos daisy] at done
    exact ⟨le_of_eq daisy, s.daisyPriority, (Except.ok.inj done).symm⟩
  rw [if_neg daisy] at done
  by_cases source : s.current < 32
  · rw [dif_pos source] at done
    exact ⟨le_of_lt source, s.vectPriority ⟨s.current, source⟩, (Except.ok.inj done).symm⟩
  · rw [dif_neg source] at done
    cases done

/-- An acknowledge goes through with every source and with the daisy input. -/
theorem exists_maskPriority (vector : s.current ≤ daisyIrq) : ∃ t, s.maskPriority = .ok t := by
  unfold maskPriority
  by_cases daisy : s.current = daisyIrq
  · rw [if_pos daisy]
    exact ⟨_, rfl⟩
  · have source : s.current < 32 := lt_of_le_of_ne vector daisy
    rw [if_neg daisy, dif_pos source]
    exact ⟨_, rfl⟩

/-- The end of an interrupt unstacks what was served before, if something is stacked. -/
inductive Unmasked (s : Pl192) : Pl192 → Prop where
  | empty (idle : s.stackI < 1) : Unmasked s s
  | pop (top : Fin 17) (place : s.stackI = (top : Nat) + 1) :
      Unmasked s { s with
        stackI := (top : Nat)
        priority := s.priorityStack top
        current := (s.irqStack top).toNat }

theorem unmaskPriority_ok (done : s.unmaskPriority = .ok t) : Unmasked s t := by
  unfold unmaskPriority at done
  by_cases idle : s.stackI < 1
  · rw [if_pos idle] at done
    cases Except.ok.inj done
    exact .empty idle
  rw [if_neg idle] at done
  by_cases low : (s.stackI - 1).toNat < 17
  · rw [dif_pos low] at done
    have place : s.stackI - 1 = ((⟨(s.stackI - 1).toNat, low⟩ : Fin 17) : Nat) := by
      dsimp only
      omega
    rw [← Except.ok.inj done]
    nth_rewrite 2 [place]
    exact .pop ⟨(s.stackI - 1).toNat, low⟩ (by rw [← place]; omega)
  · rw [dif_neg low] at done
    cases done

theorem exists_unmaskPriority (low : s.stackI ≤ 16) : ∃ t, s.unmaskPriority = .ok t := by
  unfold unmaskPriority
  split
  · exact ⟨_, rfl⟩
  · have small : (s.stackI - 1).toNat < 17 := by omega
    rw [dif_pos small]
    exact ⟨_, rfl⟩

/-- A move of the controller at place `k` of a chain whose last controller is at place `n`. -/
inductive Move (n k : Nat) (s : Pl192) : Pl192 → Prop where
  | program {t : Pl192} (programs : Programs s t) : Move n k s t
  | mask {t : Pl192} (masked : Masked { s with current := s.currentHighest } t) : Move n k s t
  | unmask {t : Pl192} (unmasked : Unmasked s t) : Move n k s t
  | raised (vect : UInt32) (inside : k < n) :
      Move n k s { s with daisyVectaddr := vect, daisyCallback := some (k + 1), daisyInput := true }
  | lowered : Move n k s { s with daisyInput := false }
  | sense : Move n k s s.sense

/-- The moves of one event. -/
def Moves (n k : Nat) : Pl192 → Pl192 → Prop := Relation.ReflTransGen (Move n k)

theorem Moves.keep {n k : Nat} {p : Pl192 → Prop} (each : ∀ s t, Move n k s t → p s → p t)
    (moves : Moves n k s t) (first : p s) : p t := by
  induction moves with
  | refl => exact first
  | tail _ move ih => exact each _ _ move ih

/-- A controller in its place: only a child farther out may have raised it. -/
structure Placed (n k : Nat) (s : Pl192) : Prop where
  callback : ∀ j, s.daisyCallback = some j → j = k + 1 ∧ k < n
  input : s.daisyInput = true → k < n

theorem placed_move {n k : Nat} (s t : Pl192) (move : Move n k s t) (placed : Placed n k s) :
    Placed n k t := by
  cases move with
  | program programs =>
    exact ⟨fun j back => placed.callback j (programs.daisyCallback ▸ back),
      fun input => placed.input (programs.daisyInput ▸ input)⟩
  | mask masked =>
    obtain ⟨p, rfl⟩ := masked.eq
    exact ⟨placed.callback, placed.input⟩
  | unmask unmasked =>
    cases unmasked with
    | empty idle => exact placed
    | pop top place => exact ⟨placed.callback, placed.input⟩
  | raised vect inside =>
    exact ⟨fun j back => ⟨(Option.some.inj back).symm, inside⟩, fun _ => inside⟩
  | lowered => exact ⟨placed.callback, fun no => Bool.noConfusion no⟩
  | sense =>
    exact ⟨fun j back => placed.callback j (sense_daisyCallback s ▸ back),
      fun input => placed.input (sense_daisyInput s ▸ input)⟩

theorem stackIdx_pos {i : Int} (pos : 0 < i) : stackIdx i ≠ 0 := by
  unfold stackIdx
  split
  · intro zero
    have zero' : i.toNat = 0 := congrArg Fin.val zero
    omega
  · decide

theorem ranked_move {n k : Nat} (s t : Pl192) (move : Move n k s t) (ranked : s.Ranked) :
    t.Ranked := by
  cases move with
  | program programs =>
    exact ⟨programs.stackI ▸ ranked.depth,
      by rw [programs.stackI, programs.priority]; exact ranked.idle,
      programs.priorityStack ▸ ranked.bottom⟩
  | mask masked =>
    obtain ⟨p, rfl⟩ := masked.eq
    have above : stackIdx (s.stackI + 1) ≠ 0 := stackIdx_pos (by have := ranked.depth; omega)
    refine ⟨Int.natCast_nonneg _, fun zero =>
      absurd (Fin.ext (Int.natCast_eq_zero.mp zero)) above, ?_⟩
    exact (setAt_of_ne _ _ above.symm).trans ranked.bottom
  | unmask unmasked =>
    cases unmasked with
    | empty idle => exact ranked
    | pop top place =>
      refine ⟨Int.natCast_nonneg _, fun zero => ?_, ranked.bottom⟩
      have bottom : top = 0 := Fin.ext (Int.natCast_eq_zero.mp zero)
      subst bottom
      exact ranked.bottom
  | raised vect inside => exact ⟨ranked.depth, ranked.idle, ranked.bottom⟩
  | lowered => exact ⟨ranked.depth, ranked.idle, ranked.bottom⟩
  | sense =>
    exact ⟨by rw [sense_stackI]; exact ranked.depth,
      by rw [sense_stackI, sense_priority]; exact ranked.idle,
      by rw [sense_priorityStack]; exact ranked.bottom⟩

end Pl192

namespace Chain

variable {c c' : Chain} {n i : Nat} {s : Pl192}

open Pl192 Nat

/-- Every controller of one chain has come by moves to its registers in the other. -/
def Moved (n : Nat) (c c' : Chain) : Prop := ∀ k, Moves n k (c.ctl k) (c'.ctl k)

theorem Moved.refl (n : Nat) (c : Chain) : Moved n c c := fun _ => .refl

theorem Moved.trans {c'' : Chain} (first : Moved n c c') (second : Moved n c' c'') :
    Moved n c c'' := fun k => (first k).trans (second k)

theorem moved_put (move : Move n i (c.ctl i) s) : Moved n c (c.put i s) := by
  intro k
  by_cases own : k = i
  · subst own
    rw [put_ctl]
    exact .single move
  · rw [put_ctl_of_ne _ _ own]
    exact .refl

theorem moved_sensed (n : Nat) (c : Chain) (i : Nat) : Moved n c (c.sensed i) :=
  moved_put (c := c) (i := i) .sense

theorem moved_hand (c : Chain) (level : Bool) (inside : i < n) : Moved n c (c.hand i level) := by
  refine moved_put ?_
  cases level with
  | true => exact .raised _ inside
  | false => exact .lowered

theorem moved_update (c : Chain) (inside : i ≤ n) : Moved n c (c.update i) := by
  induction i generalizing c with
  | zero =>
    rw [update_zero]
    exact moved_sensed n c 0
  | succ i ih =>
    have own := moved_sensed n c (i + 1)
    cases said : (c.ctl (i + 1)).sense.output with
    | none =>
      rw [update_kept said]
      exact own
    | some level =>
      rw [update_handed said]
      exact (own.trans (moved_hand _ level inside)).trans (ih _ (le_of_succ_le inside))

theorem moved_relay (inside : i < n) : Moved n c (c.relay i) := by
  unfold relay
  have own := moved_sensed n c (i + 1)
  dsimp only
  split
  · exact own
  · exact own.trans (moved_hand _ _ inside)

theorem Moved.wired (moved : Moved n c c') (wired : c.Wired n) : c'.Wired n := by
  have placed : ∀ k, Placed n k (c'.ctl k) := fun k =>
    (moved k).keep placed_move ⟨wired.callback k, wired.input k⟩
  exact ⟨fun k => (placed k).callback, fun k => (placed k).input⟩

theorem Moved.ranked {k : Nat} (moved : Moved n c c') (ranked : (c.ctl k).Ranked) :
    (c'.ctl k).Ranked := (moved k).keep ranked_move ranked

theorem programs_written {offset : Nat} {value : UInt64} {t : Pl192}
    (done : written s offset value = some t) : Programs s t := by
  unfold written writtenControl at done
  split_ifs at done
  · cases done
    exact ⟨rfl, rfl, rfl, rfl, rfl, rfl, rfl, rfl, rfl⟩
  · cases done
    exact ⟨rfl, rfl, rfl, rfl, rfl, rfl, rfl, rfl, rfl⟩
  · split at done <;> cases done <;> exact ⟨rfl, rfl, rfl, rfl, rfl, rfl, rfl, rfl, rfl⟩

/-- What is done to a controller and, with the daisy input, to its child before something else. -/
theorem daisy_ok {f : Pl192 → Except Fault Pl192} {g : Chain → Chain} {p : Prop} [Decidable p]
    (wired : c.Wired n)
    (done : (do
      let c₁ := c.put i (← f (c.ctl i))
      if p then
        match (c.ctl i).daisyCallback with
        | none => throw Fault.callback
        | some j => return g (c₁.put j (← f (c₁.ctl j)))
      else return c₁) = Except.ok c') :
    ∃ t, f (c.ctl i) = .ok t ∧ ((¬ p ∧ c' = c.put i t) ∨
      ∃ u, p ∧ i < n ∧ f (c.ctl (i + 1)) = .ok u ∧ c' = g ((c.put i t).put (i + 1) u)) := by
  cases own : f (c.ctl i) with
  | error f =>
    rw [own] at done
    cases done
  | ok t =>
    rw [own] at done
    dsimp only [bind, Except.bind] at done
    refine ⟨t, rfl, ?_⟩
    by_cases daisy : p
    · rw [if_pos daisy] at done
      cases back : (c.ctl i).daisyCallback with
      | none =>
        rw [back] at done
        cases done
      | some j =>
        rw [back] at done
        obtain ⟨rfl, inside⟩ := wired.callback i j back
        dsimp only at done
        rw [put_ctl_of_ne _ _ (succ_ne_self i)] at done
        cases child : f (c.ctl (i + 1)) with
        | error f =>
          rw [child] at done
          cases done
        | ok u =>
          rw [child] at done
          cases done
          exact .inr ⟨u, daisy, inside, rfl, rfl⟩
    · rw [if_neg daisy] at done
      cases done
      exact .inl ⟨daisy, rfl⟩

/-- An acknowledge stacks the controller's own interrupt, and with the daisy input the child's. -/
theorem acknowledge_ok (wired : c.Wired n) (done : c.acknowledge i = .ok c') :
    ∃ t, Masked { c.ctl i with current := (c.ctl i).currentHighest } t ∧
      (((c.ctl i).currentHighest ≠ daisyIrq ∧ c' = c.put i t) ∨
        ∃ u, (c.ctl i).currentHighest = daisyIrq ∧ i < n ∧
          Masked { c.ctl (i + 1) with current := (c.ctl (i + 1)).currentHighest } u ∧
          c' = (c.put i t).put (i + 1) u) := by
  obtain ⟨t, own, rest⟩ := daisy_ok
    (f := fun s => { s with current := s.currentHighest }.maskPriority) (g := id) wired done
  refine ⟨t, maskPriority_ok own, rest.imp_right ?_⟩
  rintro ⟨u, daisy, inside, child, eq⟩
  exact ⟨u, daisy, inside, maskPriority_ok child, eq⟩

/-- The end of service unstacks the controller's own interrupt, and with the daisy input the
child's; the child then hands on what it selects. -/
theorem relieve_ok (wired : c.Wired n) (done : c.relieve i = .ok c') :
    ∃ t, Unmasked (c.ctl i) t ∧
      (((c.ctl i).current ≠ daisyIrq ∧ c' = c.put i t) ∨
        ∃ u, (c.ctl i).current = daisyIrq ∧ i < n ∧ Unmasked (c.ctl (i + 1)) u ∧
          c' = ((c.put i t).put (i + 1) u).relay i) := by
  obtain ⟨t, own, rest⟩ := daisy_ok (f := unmaskPriority) (g := (relay · i)) wired done
  refine ⟨t, unmaskPriority_ok own, rest.imp_right ?_⟩
  rintro ⟨u, daisy, inside, child, eq⟩
  exact ⟨u, daisy, inside, unmaskPriority_ok child, eq⟩

/-- What the registers an event writes can be: nothing on the way to the CPU but the controller
itself and its child. -/
structure Touches (n : Nat) (c : Chain) (i : Nat) (c' : Chain) : Prop where
  inside : i ≤ n
  moved : Moved n c c'
  irq : c'.irq = c.irq
  below : ∀ k < i, c'.ctl k = c.ctl k

theorem touches_put (inside : i ≤ n) (move : Move n i (c.ctl i) s) : Touches n c i (c.put i s) where
  inside := inside
  moved := moved_put move
  irq := rfl
  below _ low := put_ctl_of_ne _ _ (Nat.ne_of_lt low)

theorem Touches.child {u : Pl192} (touches : Touches n c i c')
    (move : Move n (i + 1) (c'.ctl (i + 1)) u) : Touches n c i (c'.put (i + 1) u) where
  inside := touches.inside
  moved := touches.moved.trans (moved_put move)
  irq := touches.irq
  below k low := by rw [put_ctl_of_ne _ _ (by omega), touches.below k low]

theorem relay_below {k : Nat} (low : k < i) : (c.relay i).ctl k = c.ctl k := by
  have own := sensed_ctl_of_ne c (i := i + 1) (j := k) (by omega)
  unfold relay
  dsimp only
  split
  · exact own
  · rw [hand_ctl_of_ne _ _ (Nat.ne_of_lt low), own]

theorem relay_irq : (c.relay i).irq = c.irq := by
  unfold relay
  dsimp only
  split <;> rfl

theorem touches_acknowledge (wired : c.Wired n) (inside : i ≤ n)
    (done : c.acknowledge i = .ok c') : Touches n c i c' := by
  obtain ⟨t, masked, ⟨-, rfl⟩ | ⟨u, -, -, child, rfl⟩⟩ := acknowledge_ok wired done
  · exact touches_put inside (.mask masked)
  · refine (touches_put inside (.mask masked)).child (.mask ?_)
    rw [put_ctl_of_ne _ _ (succ_ne_self i)]
    exact child

theorem touches_relieve (wired : c.Wired n) (inside : i ≤ n) (done : c.relieve i = .ok c') :
    Touches n c i c' := by
  obtain ⟨t, unmasked, ⟨-, rfl⟩ | ⟨u, -, low, child, rfl⟩⟩ := relieve_ok wired done
  · exact touches_put inside (.unmask unmasked)
  have both : Touches n c i ((c.put i t).put (i + 1) u) := by
    refine (touches_put inside (.unmask unmasked)).child (.unmask ?_)
    rw [put_ctl_of_ne _ _ (succ_ne_self i)]
    exact child
  exact ⟨inside, both.moved.trans (moved_relay low), (relay_irq ..).trans both.irq,
    fun k below => (relay_below below).trans (both.below k below)⟩

/-- What an event does before its update, and the controller that is then updated. -/
inductive Wrote (n : Nat) (c : Chain) : Chain → Option Nat → Prop
  | ack {i : Nat} {c' : Chain} (inside : i ≤ n) (acked : c.acknowledge i = .ok c') :
      Wrote n c c' (some i)
  | fin {i : Nat} {c' : Chain} (inside : i ≤ n) (relieved : c.relieve i = .ok c') :
      Wrote n c c' (some i)
  | program {i : Nat} {s : Pl192} (inside : i ≤ n) (programs : Programs (c.ctl i) s) :
      Wrote n c (c.put i s) (some i)
  | nothing : Wrote n c c none
  | reset : Wrote n c (c.resetAll (n + 1)) none

theorem touched_wrote {e : Event (n + 1)} {o : Option Nat} (done : c.touched e = .ok (c', o)) :
    Wrote n c c' o := by
  have inside (i : Fin (n + 1)) : (i : Nat) ≤ n := le_of_lt_succ i.isLt
  cases e with
  | read i offset =>
    dsimp only [touched] at done
    split at done
    · cases acked : c.acknowledge i with
      | error f =>
        rw [acked] at done
        cases done
      | ok d =>
        rw [acked] at done
        cases done
        exact .ack (inside i) acked
    · cases done
      exact .nothing
  | write i offset value =>
    dsimp only [touched] at done
    split at done
    · cases relieved : c.relieve i with
      | error f =>
        rw [relieved] at done
        cases done
      | ok d =>
        rw [relieved] at done
        cases done
        exact .fin (inside i) relieved
    · cases stored : written (c.ctl i) offset value with
      | none =>
        rw [stored] at done
        cases done
        exact .nothing
      | some s =>
        rw [stored] at done
        cases done
        exact .program (inside i) (programs_written stored)
  | line i irq level =>
    dsimp only [touched] at done
    split at done
    · cases done
      exact .program (inside i) ⟨rfl, rfl, rfl, rfl, rfl, rfl, rfl, rfl, rfl⟩
    · cases done
      exact .nothing
  | reset =>
    cases done
    exact .reset

theorem Wrote.touches {i : Nat} (wrote : Wrote n c c' (some i)) (wired : c.Wired n) :
    Touches n c i c' := by
  cases wrote with
  | ack inside acked => exact touches_acknowledge wired inside acked
  | fin inside relieved => exact touches_relieve wired inside relieved
  | program inside programs => exact touches_put inside (.program programs)

end Chain

end QemuIos.Vic

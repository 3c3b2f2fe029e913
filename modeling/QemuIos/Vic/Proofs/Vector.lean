import QemuIos.Vic.Proofs.Acknowledge

/-!
# The vector a read returns

The parent returns the vector that came with the child's last request. A child that selects another
one, or is given another vector for it, without handing a level on leaves the parent with the old
vector. As long as no event does that, and none reads SOFTINTCLEAR, the vector returned is the entry
of the source that becomes current (`vector_of_current`); that there is one takes a child that is
never left with nothing selected under a standing request (`Careful`).
-/

namespace QemuIos.Vic

namespace Pl192

variable {s t : Pl192}

/-- The vector register belongs to the selected interrupt. -/
structure Vectored (s : Pl192) : Prop where
  source : ∀ h : s.currentHighest < 32, s.address = s.vectAddr ⟨s.currentHighest, h⟩
  daisy : s.currentHighest = daisyIrq → s.daisyInput = true ∧ s.address = s.daisyVectaddr

theorem vectored_sense : s.sense.Vectored := by
  have pending (selects : s.highest ≠ noIrq) : (s.requested != 0 || s.daisyInput) = true := by
    by_contra idle
    exact selects (if_neg idle)
  have address : s.sense.address = s.vector := by rw [sense_eq]
  refine ⟨fun h => ?_, fun daisy => ?_⟩
  · simp only [sense_currentHighest] at h
    have selects : s.highest ≠ noIrq := Nat.ne_of_lt (h.trans (by decide))
    simp only [address, vector, pending selects, h, sense_currentHighest, sense_vectAddr, if_true,
      dif_pos]
  · rw [sense_currentHighest] at daisy
    simp [address, vector, input_of_highest daisy, daisy, daisyIrq]

end Pl192

namespace Chain

variable {c d : Chain}

open Pl192

/-- A request that stands at the parent has the child's vector. -/
def Fed (c : Chain) : Prop :=
  (c.ctl 0).daisyInput = true → (c.ctl 0).daisyVectaddr = (c.ctl 1).address

/-- Both vector registers are up to date. -/
structure Cached (c : Chain) : Prop where
  wired : c.Wired 1
  parent : (c.ctl 0).Vectored
  child : (c.ctl 1).Vectored
  fed : c.Fed

theorem cached_parent (wired : d.Wired 1) (child : (d.ctl 1).Vectored) (fed : d.Fed) :
    Cached (d.update 0) := by
  have own := update_own d 0
  have other := update_above d Nat.zero_lt_one
  refine ⟨(moved_update d (Nat.zero_le 1)).wired wired, own ▸ vectored_sense, other ▸ child, ?_⟩
  unfold Fed at *
  simpa [own, other] using fed

/-- What the child hands on comes with its vector. -/
theorem fed_hand (level : Bool) : ((d.hand 0 level).Fed) := by
  intro input
  have heard := heard_hand d 0 level
  rw [heard.vect (heard.input.symm.trans input), hand_ctl_of_ne _ _ Nat.one_ne_zero]

theorem cached_child (wired : d.Wired 1) (parent : (d.ctl 0).Vectored)
    (fed : (d.ctl 1).sense.output = none → (d.sensed 1).Fed) : Cached (d.update 1) := by
  have own : ((d.sensed 1).ctl 1).Vectored := sensed_ctl d 1 ▸ vectored_sense
  have wired' := (moved_sensed 1 d 1).wired wired
  cases said : (d.ctl 1).sense.output with
  | none =>
    rw [update_kept said]
    refine ⟨wired', ?_, own, fed said⟩
    rw [sensed_ctl_of_ne _ Nat.zero_ne_one]
    exact parent
  | some level =>
    rw [update_handed said]
    refine cached_parent ((moved_hand _ _ Nat.zero_lt_one).wired wired') ?_ (fed_hand level)
    rw [hand_ctl_of_ne _ _ Nat.one_ne_zero]
    exact own

/-- What the end of an interrupt leaves at the parent is in order for its update. -/
theorem fed_relieve (cached : Cached c) (done : c.relieve 0 = .ok d)
    (silent : (d.ctl 0).daisyInput = true → (d.ctl 1).sense.output = none →
      (d.ctl 1).sense.address = (c.ctl 1).address) : (d.ctl 1).Vectored ∧ d.Fed := by
  obtain ⟨t, unmasked, rest⟩ := relieve_ok cached.wired done
  have kept (input : t.daisyInput = true) : t.daisyVectaddr = (c.ctl 1).address := by
    cases unmasked with
    | empty => exact cached.fed input
    | pop => exact cached.fed input
  rcases rest with ⟨-, rfl⟩ | ⟨u, -, -, -, rfl⟩
  · exact ⟨cached.child, kept⟩
  generalize isRelay : ((c.put 0 t).put (0 + 1) u).relay 0 = d at silent ⊢
  unfold relay at isRelay
  dsimp only at isRelay
  split at isRelay
  · next quiet =>
    subst isRelay
    refine ⟨vectored_sense, fun input => (kept input).trans ?_⟩
    have same := silent input (by rw [sensed_ctl, sense_sense, ← sensed_ctl]; exact quiet)
    rw [sensed_ctl, sense_sense] at same
    exact same.symm
  · subst isRelay
    exact ⟨vectored_sense, fed_hand _⟩

end Chain

open Chain Pl192

/-- An event does not read SOFTINTCLEAR, and with a request standing at the parent it leaves the
child no other vector, unless the child hands on a level. -/
def Announced : Except Fault Chain → Event 2 → Prop
  | .ok c, e => (∀ i, e ≠ .read i 0x1C) ∧
    match c.touched e with
    | .ok (d, _) => (d.ctl 0).daisyInput = true → (d.ctl 1).sense.output = none →
        (d.ctl 1).sense.address = (c.ctl 1).address
    | .error _ => True
  | .error _, _ => True

variable {c d : Chain} {e : Event 2} {o : Option Nat}

theorem cached_resetAll (wired : c.Wired 1) : Cached (c.resetAll 2) := by
  have quiet := quiet_of_wired wired
  refine ⟨wired_resetAll wired (Nat.le_refl _), quiet.synced 0 (Nat.zero_le 1) ▸ vectored_sense,
    quiet.synced 1 (Nat.le_refl 1) ▸ vectored_sense, fun input => ?_⟩
  exact Bool.noConfusion ((quiet.input 0 (Nat.zero_le 1)).symm.trans input)

theorem cached_next (cached : Cached c) (told : Announced (.ok c) e)
    (done : c.touched e = .ok (d, o)) : Cached (finish (d, o)) := by
  have silent := told.2
  rw [done] at silent
  have wrote := touched_wrote done
  cases o with
  | none =>
    cases wrote with
    | nothing => exact cached
    | reset => exact cached_resetAll cached.wired
  | some i =>
    have touches := wrote.touches cached.wired
    have wired := touches.moved.wired cached.wired
    rcases Nat.le_one_iff_eq_zero_or_eq_one.mp touches.inside with rfl | rfl
    · have both : (d.ctl 1).Vectored ∧ d.Fed := by
        cases wrote with
        | ack inside acked =>
          obtain ⟨t, masked, ⟨-, rfl⟩ | ⟨u, -, -, child, rfl⟩⟩ := acknowledge_ok cached.wired acked
          · obtain ⟨p, rfl⟩ := masked.eq
            exact ⟨cached.child, cached.fed⟩
          · obtain ⟨p, rfl⟩ := masked.eq
            obtain ⟨q, rfl⟩ := child.eq
            exact ⟨⟨cached.child.source, cached.child.daisy⟩, cached.fed⟩
        | fin inside relieved => exact fed_relieve cached relieved silent
        | program inside programs =>
          exact ⟨cached.child, fun input =>
            programs.daisyVectaddr.trans (cached.fed (programs.daisyInput.symm.trans input))⟩
      exact cached_parent wired both.1 both.2
    · have same := touches.below 0 Nat.zero_lt_one
      refine cached_child wired (same ▸ cached.parent) fun quiet input => ?_
      rw [sensed_ctl_of_ne _ Nat.zero_ne_one] at input ⊢
      rw [sensed_ctl, silent input quiet, same]
      exact cached.fed (same ▸ input)

/-- The value is the entry of the source that has become current, the child's where that is the
daisy input. -/
def Entry (c c' : Chain) (value : UInt32) : Prop :=
  (∃ h : (c'.ctl 0).current < 32, value = (c.ctl 0).vectAddr ⟨_, h⟩) ∨
    ((c'.ctl 0).current = daisyIrq ∧
      ∃ h : (c'.ctl 1).current < 32, value = (c.ctl 1).vectAddr ⟨_, h⟩)

theorem entry_read (cached : Cached c) {value : UInt32} {c' : Chain}
    (done : c.read 0 0xF00 = .ok (value, c')) (pending : (c.ctl 0).currentHighest ≠ noIrq) :
    Entry c c' value := by
  replace done : c.irqAck 0 = .ok (value, c') := done
  rw [irqAck, if_neg pending] at done
  cases acked : c.acknowledge 0 with
  | error f => simp [acked, bind, Except.bind] at done
  | ok d =>
    rw [acked] at done
    cases done
    unfold Entry
    rw [update_own, update_above d Nat.zero_lt_one, sense_current]
    obtain ⟨t, masked, ⟨other, rfl⟩ | ⟨u, daisy, -, child, rfl⟩⟩ :=
      acknowledge_ok cached.wired acked
    · have source := Nat.lt_of_le_of_ne masked.vector other
      obtain ⟨p, rfl⟩ := masked.eq
      exact .inl ⟨source, cached.parent.source source⟩
    have source : (c.ctl 1).currentHighest < 32 := by
      refine Nat.lt_of_le_of_ne child.vector fun last => ?_
      exact lt_irrefl 1 (cached.wired.input 1 (cached.child.daisy last).1)
    obtain ⟨p, rfl⟩ := masked.eq
    obtain ⟨q, rfl⟩ := child.eq
    obtain ⟨input, address⟩ := cached.parent.daisy daisy
    refine .inr ⟨daisy, source, ?_⟩
    rw [address, cached.fed input]
    exact cached.child.source source

/-- A run whose events are all careful and announce what they change does not fault. Where it leads,
a read of VECTADDR at the parent goes through, and if it acknowledges, the vector returned is the
entry of the source that becomes current; and no read but that of VECTADDR and SOFTINTCLEAR changes
anything. -/
theorem vector_of_current (es : List (Event 2))
    (told : Trace.Along next (fun run e => Announced run e ∧ Careful run e)
      (.ok (Chain.boot 2)) es) :
    ∃ c, es.foldl next (.ok (Chain.boot 2)) = .ok c ∧
      (∃ value c', c.read 0 0xF00 = .ok (value, c') ∧
        ((c.ctl 0).currentHighest ≠ noIrq → Entry c c' value)) ∧
      ∀ i offset, offset ≠ 0x1C → offset ≠ 0xF00 → (c.read i offset).map Prod.snd = .ok c := by
  obtain ⟨c, reached, cached, safe⟩ : ∃ c, es.foldl next (.ok (Chain.boot 2)) = .ok c ∧
      Cached c ∧ Safe c := by
    refine @Trace.Along.keep _ _ next _ (fun run => ∃ c, run = .ok c ∧ Cached c ∧ Safe c) ?_ _ es
      ⟨_, rfl, cached_resetAll (wired_zero 1), safe_resetAll (wired_zero 1)⟩ told
    rintro _ e ⟨c, rfl, cached, safe⟩ ⟨told, careful⟩
    have kept := safe_next safe careful
    dsimp only [next, Except.bind] at kept ⊢
    rw [step_eq cached.wired] at kept ⊢
    cases done : c.touched e with
    | error f =>
      rw [done] at kept
      exact kept.elim
    | ok t =>
      rw [done] at kept
      exact ⟨_, rfl, cached_next cached told done, kept⟩
  refine ⟨c, reached, ?_, fun i offset soft vect => ?_⟩
  · have read : c.read 0 0xF00 = c.irqAck 0 := rfl
    rw [read]
    by_cases idle : (c.ctl 0).currentHighest = noIrq
    · exact ⟨_, _, if_pos idle, fun pending => absurd idle pending⟩
    · obtain ⟨d, acked⟩ := exists_acknowledge safe (Nat.zero_le 1) idle
      have done : c.irqAck 0 = .ok ((c.ctl 0).address, d.update 0) := by
        rw [irqAck, if_neg idle, acked]
        rfl
      exact ⟨_, _, done, entry_read cached done⟩
  · rw [read_snd, if_neg (not_or.mpr ⟨soft, vect⟩)]

/-- Source 5 of the child, with its vector. -/
def childSource : List (Event 2) := [.write 1 0x114 0xA, .write 1 0x10 0x20, .line 1 5 true]

theorem child_vector_returned :
    ∃ c value c', childSource.foldl next (.ok (Chain.boot 2)) = .ok c ∧
      (c.ctl 0).currentHighest = daisyIrq ∧ c.read 0 0xF00 = .ok (value, c') ∧
        Entry c c' value := by
  have ran : ((childSource.foldl next (.ok (Chain.boot 2))).map fun c =>
      (c.ctl 0).currentHighest).toOption = some daisyIrq := by decide +kernel
  obtain ⟨c, reached, ⟨value, c', read, entry⟩, -⟩ := vector_of_current childSource
    ⟨⟨⟨nofun, fun input => absurd input (by decide +kernel)⟩, fun _ _ _ up => by cases up⟩,
      ⟨⟨nofun, fun input => absurd input (by decide +kernel)⟩, fun _ _ _ up => by cases up⟩,
      ⟨⟨nofun, fun input => absurd input (by decide +kernel)⟩, fun _ up => by cases up⟩, trivial⟩
  rw [reached] at ran
  have daisy : (c.ctl 0).currentHighest = daisyIrq := Option.some.inj ran
  exact ⟨c, value, c', reached, daisy, read, entry (by rw [daisy]; decide)⟩

/-- Acknowledged, given another vector and acknowledged again, the child's source is returned with
its old vector; and a read of SOFTINTCLEAR acknowledges. -/
theorem old_vector_returned :
    (((childSource ++ [Event.read 0 0xF00, .write 1 0x114 0xB]).foldl next
      (.ok (Chain.boot 2))).bind fun c => (c.read 0 0xF00).map fun (r : UInt32 × Chain) =>
        (r.1, (r.2.ctl 0).current, (r.2.ctl 1).current, (c.ctl 1).vectAddr 5)).toOption =
      some (0xA, daisyIrq, 5, 0xB) ∧
    ((childSource.foldl next (.ok (Chain.boot 2))).bind fun c => (c.read 0 0x1C).map fun r =>
      ((c.ctl 0).current, (r.2.ctl 0).current)).toOption = some (noIrq, daisyIrq) := by
  decide +kernel

end QemuIos.Vic

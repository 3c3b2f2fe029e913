import QemuIos.Cdma.Proofs.Frame

/-!
# Playing out, and the registers

What bringing a paced channel up to date changes (`Played`), and what the guest's accesses to a
channel change: a relation that contains the channel's own changes and its runs contains its
register writes (`writeReg_rel`).
-/

namespace QemuIos.Cdma

open List Function State

variable {ω : Type} {b : Board} {dev : Device ω} {s s' s'' : State ω}

/-- What bringing a paced channel up to date changes: where it is in its chain, and memory. -/
structure Played (j : Nat) (s s' : State ω) : Prop where
  ch : ∀ i, i ≠ j → s'.ch i = s.ch i
  mine : (s'.ch j).ctrl = (s.ch j).ctrl ∧ (s'.ch j).fifo = (s.ch j).fifo ∧
    (s'.ch j).inSeg = (s.ch j).inSeg
  sinkPending : s'.sinkPending = s.sinkPending
  paced : s'.paced = s.paced
  irq : s'.irq = s.irq
  log : Logs Entry.IsStore s s'

namespace Played

variable {j : Nat}

theorem of_side (side : Side s s') : Played j s s' :=
  ⟨fun i _ => by rw [side.ch], by rw [side.ch]; exact ⟨rfl, rfl, rfl⟩, side.sinkPending, side.paced,
    side.irq, side.log⟩

theorem refl (j : Nat) (s : State ω) : Played j s s := of_side (.refl s)

theorem trans (first : Played j s s') (second : Played j s' s'') : Played j s s'' :=
  ⟨fun i other => (second.ch i other).trans (first.ch i other),
    ⟨second.mine.1.trans first.mine.1, second.mine.2.1.trans first.mine.2.1,
      second.mine.2.2.trans first.mine.2.2⟩,
    second.sinkPending.trans first.sinkPending, second.paced.trans first.paced,
    second.irq.trans first.irq, first.log.trans second.log⟩

theorem pacedXfer (s : State ω) (addr first upTo : Nat) :
    Played j s (s.pacedXfer b dev j addr first upTo) := by
  unfold State.pacedXfer
  dsimp only
  split
  · exact of_side (.putWorld s _)
  · exact of_side ((Side.putWorld s _).trans (.storeAt _ _ _))

/-- The end of a step of the walk: the place in the chain is written back. -/
theorem placed (s : State ω) (sent : Nat → Nat) {c : Channel} (ctrl : c.ctrl = (s.ch j).ctrl)
    (fifo : c.fifo = (s.ch j).fifo) (inSeg : c.inSeg = (s.ch j).inSeg) :
    Played j s ({ s with pacedSent := sent }.setCh j c) := by
  refine ⟨fun i other => update_of_ne other _ _, ?_, rfl, rfl, rfl, .silent rfl⟩
  rw [setCh_self]
  exact ⟨ctrl, fifo, inSeg⟩

theorem pacedWalk (upto n desc base : Nat) (s : State ω) :
    Played j s (pacedWalk b dev j upto n desc base s).1 := by
  induction n generalizing desc base s with
  | zero => exact refl j s
  | succ n ih =>
    unfold State.pacedWalk
    split
    · exact refl j s
    rename_i d read
    split
    · exact refl j s
    dsimp only
    have moved : Played j s (if s.pacedSent j < base + d.len ∧ base < upto then
        s.pacedXfer b dev j d.addr (max (s.pacedSent j) base - base)
          (min upto (base + d.len) - base)
        else s) := by
      split
      · exact pacedXfer s _ _ _
      · exact refl j s
    revert moved
    generalize (if s.pacedSent j < base + d.len ∧ base < upto then _ else s) = t
    intro moved
    split
    · exact moved.trans (placed t _ rfl rfl rfl)
    split
    · refine moved.trans (placed t _ ?_ ?_ ?_)
      all_goals
        split
        · rfl
        · rfl
    · exact moved.trans (ih _ _ t)

theorem pacedAdvance (s : State ω) (upto : Nat) : Played j s (s.pacedAdvance b dev j upto).1 := by
  unfold State.pacedAdvance
  generalize maxTurns = n
  exact pacedWalk upto n _ 0 s

theorem own (played : Played j s s') : Own j s s' :=
  ⟨played.ch, fun i _ => by rw [played.sinkPending], fun i _ => by rw [played.paced],
    fun i _ => by rw [played.irq], played.log.mono fun _ store => store.isOf j⟩

end Played

section Registers

variable {j : Nat}

theorem Own.pacedStop (s : State ω) : Own j s (s.pacedStop b dev j) := by
  unfold State.pacedStop
  split
  · have played : Own j s (s.pacedAdvance b dev j (s.pacedPos j)).1 := (Played.pacedAdvance s _).own
    refine played.trans ?_
    exact .silent (fun _ _ => rfl) (fun _ _ => rfl) (fun i other => update_of_ne other _ _)
      (fun _ _ => rfl) rfl
  · exact .refl j s

theorem Own.paceOne (s : State ω) : Own j s (s.paceOne b dev j) := by
  unfold State.paceOne
  split
  · have played : Own j s (s.pacedAdvance b dev j (s.pacedPos j)).1 := (Played.pacedAdvance s _).own
    split
    · rename_i here
      rw [here] at played
      exact played
    rename_i t here
    rw [here] at played
    refine played.trans (.trans ?_ (.reportDone _))
    exact .silent (fun i other => update_of_ne other _ _) (fun _ _ => rfl)
      (fun i other => update_of_ne other _ _) (fun _ _ => rfl) rfl
  · exact .refl j s

theorem Own.startPaced (s : State ω) : Own j s (s.startPaced b dev j) :=
  .silent (fun _ other => update_of_ne other _ _) (fun _ _ => rfl)
    (fun _ other => update_of_ne other _ _) (fun _ _ => rfl) rfl

theorem Own.readReg (s : State ω) : Own j s (s.readReg b dev j) := by
  unfold State.readReg
  split
  · exact (Played.pacedAdvance s _).own
  · exact .refl j s

variable {R : State ω → State ω → Prop} (a : Admits j R) (runs : ∀ s, R s (run b dev j s))

include a runs

theorem go_rel (s : State ω) : R s (s.go b dev j) := by
  unfold go
  dsimp only
  split
  · exact a.own (.setCh s _)
  · split
    · exact a.own (.startPaced s)
    · exact runs s

theorem writeCtrl_rel (s : State ω) (v : CtrlWord) : R s (s.writeCtrl b dev j v) := by
  unfold writeCtrl
  split
  · exact a.own ((Own.pacedStop s).trans (.setCh _ _))
  dsimp only
  have before : ∀ t, R s t →
      R s (if (v.go && !v.config.testBit 5) = true then t.go b dev j else t) := by
    intro t so
    split
    · exact a.trans so (go_rel a runs t)
    · exact so
  apply before
  split
  · exact a.own (((Own.setCh s _).trans (.setCh _ _)).trans (.pacedStop _))
  · exact a.own (.setCh s _)

theorem writeReg_rel (s : State ω) (reg : Reg) (v : Nat) : R s (s.writeReg b dev j reg v) := by
  unfold writeReg
  refine a.trans ?_ (a.own (.updateIrq _))
  cases reg with
  | ctrl => exact writeCtrl_rel a runs s _
  | settings | fifo | remain | addr | desc | error => exact a.own (.setCh s _)

end Registers

end QemuIos.Cdma

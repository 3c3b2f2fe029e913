import QemuIos.Cdma.Proofs.Cancel
import QemuIos.Lib.Trace

/-!
# How long a segment can be

The walker refuses a descriptor that is too long, but a stalled segment is resumed with what the
channel's remain register says. Runs, nested ones too, keep that within the limit (`run_keeps`). The
guest can write the register; and a go that parks the channel on a UART, or plays it out, has the
register set from a descriptor nobody has checked. Where no access of the guest does that to a
stalled channel, no segment of any channel is longer than the limit (`segments_within`).
-/

namespace QemuIos.Cdma
open List Function State

variable {ω : Type} {b : Board} {dev : Device ω} {s s' s'' : State ω} {ch : Nat}

/-- A stalled segment can be resumed with no more than the limit and nothing plays on its channel,
and no segment was taken up with more. -/
structure Bounded (s : State ω) : Prop where
  remain : ∀ ch, (s.ch ch).inSeg = true → (s.ch ch).remain ≤ maxSegment
  paced : ∀ ch, (s.ch ch).inSeg = true → s.paced ch = false
  log : ∀ ch addr len, Entry.segment ch addr len ∈ s.log → len ≤ maxSegment

/-- What a run does: it keeps the bound, and which channels play. -/
def Keeps (s s' : State ω) : Prop := Bounded s → Bounded s' ∧ s'.paced = s.paced

namespace Keeps

theorem trans (first : Keeps s s') (second : Keeps s' s'') : Keeps s s'' := by
  intro bounded
  obtain ⟨bounded', paced⟩ := first bounded
  obtain ⟨bounded'', paced'⟩ := second bounded'
  exact ⟨bounded'', paced'.trans paced⟩

/-- A change that the bound does not look at. -/
theorem of_same (same : s'.ch = s.ch) (paced : s'.paced = s.paced)
    (log : ∀ ch addr len, Entry.segment ch addr len ∈ s'.log →
      Entry.segment ch addr len ∈ s.log ∨ len ≤ maxSegment) : Keeps s s' := by
  intro bounded
  refine ⟨⟨?_, ?_, fun ch addr len mem => ?_⟩, paced⟩
  · rw [same]
    exact bounded.remain
  · rw [same, paced]
    exact bounded.paced
  · exact (log ch addr len mem).elim (bounded.log ch addr len) id

theorem refl (s : State ω) : Keeps s s := of_same rfl rfl fun _ _ _ => .inl

theorem side (side : Side s s') : Keeps s s' := by
  refine of_same side.ch side.paced fun ch addr len mem => .inl ?_
  obtain ⟨es, logged, stores⟩ := side.log
  rw [logged] at mem
  refine (mem_append.mp mem).resolve_right fun new => ?_
  obtain ⟨_, _, isStore⟩ := stores _ new
  cases isStore

theorem setCh {c : Channel}
    (fits : Bounded s → c.inSeg = true → c.remain ≤ maxSegment ∧ s.paced ch = false) :
    Keeps s (s.setCh ch c) := by
  intro bounded
  have each : ∀ j, (update s.ch ch c j).inSeg = true →
      (update s.ch ch c j).remain ≤ maxSegment ∧ s.paced j = false := by
    intro j
    by_cases mine : j = ch
    · rw [mine, update_self]
      exact fits bounded
    · rw [update_of_ne mine]
      exact fun inside => ⟨bounded.remain j inside, bounded.paced j inside⟩
  exact ⟨⟨fun j inside => (each j inside).1, fun j inside => (each j inside).2, bounded.log⟩, rfl⟩

/-- The registers of a segment are left alone, or less of it remains. -/
theorem less {c : Channel} (inSeg : c.inSeg = (s.ch ch).inSeg)
    (remain : c.remain ≤ (s.ch ch).remain) : Keeps s (s.setCh ch c) :=
  setCh fun bounded inside =>
    ⟨remain.trans (bounded.remain ch (inSeg ▸ inside)), bounded.paced ch (inSeg ▸ inside)⟩

theorem ctrl (s : State ω) (ch : Nat) (k : Ctrl) :
    Keeps s (s.setCh ch { s.ch ch with ctrl := k }) := less rfl le_rfl

theorem reportDone (s : State ω) : Keeps s (s.reportDone b ch) := by
  refine (ctrl s ch _).trans (of_same rfl rfl fun j addr len mem => .inl ?_)
  have entry : Entry.segment j addr len ∈ s.log ++ [.done ch] := mem
  exact (mem_append.mp entry).resolve_right (by simp)

theorem updateIrq (s : State ω) (ch : Nat) : Keeps s (s.updateIrq b ch) :=
  of_same rfl rfl fun _ _ _ => .inl

theorem setSinkPending (s : State ω) (ch : Nat) (v : Bool) : Keeps s (s.setSinkPending ch v) :=
  of_same rfl rfl fun _ _ _ => .inl

theorem finish (s : State ω) (u : Setup) (error : Nat) : Keeps s (s.finish b u ch error) := by
  unfold State.finish
  dsimp only
  split
  · refine trans ?_ (reportDone _)
    exact less rfl le_rfl
  split
  · split
    · exact (side (.setSinkEarly s ch _)).trans (reportDone _)
    · exact (setSinkPending s ch true).trans (ctrl _ ch _)
  · exact reportDone s

theorem conclude (s : State ω) (u : Setup) (t : Turn) : Keeps s (s.conclude b u ch t) := by
  cases t with
  | stall => exact refl s
  | stop error => exact finish s u error
  | more far => exact finish s u 0

theorem sinkOne (s : State ω) (base size : Nat) : Keeps s (s.sinkOne b base size ch) := by
  obtain ⟨t, which, eq⟩ := sinkOne_cases b s base size ch
  have early : Keeps s t := by
    rcases which with rfl | rfl
    · exact refl t
    · exact side (.setSinkEarly s ch true)
  rw [eq]
  split
  · exact early.trans (((setSinkPending t ch false).trans (ctrl _ ch _)).trans (reportDone _))
  · exact early

theorem ignores : Ignores (Keeps : State ω → State ω → Prop) := ⟨.trans, .side⟩

end Keeps

/-! ## Runs -/

theorem isData_len {d : Desc} (data : d.isData = true) : d.len ≤ maxSegment := by
  unfold Desc.isData at data
  simp only [Bool.and_eq_true, decide_eq_true_eq] at data
  exact data.2

section Run

variable {call : Call → State ω → State ω} (called : ∀ c s, Keeps s (call c s))
include called

/-- A segment is taken up with the length of a descriptor that was checked, or with what remains. -/
theorem segment_keeps (free : s.paced ch = false) (u : Setup) (far : Nat) {d : Desc}
    (data : d.isData = true) : Keeps s (s.segment b dev call u ch far d).1 := by
  intro bounded
  have fits : (if (s.ch ch).inSeg = true then s.ch ch else
      { s.ch ch with addr := d.addr, remain := d.len }).remain ≤ maxSegment := by
    split
    · next inside => exact bounded.remain ch inside
    · exact isData_len data
  unfold State.segment
  dsimp only
  generalize (if (s.ch ch).inSeg = true then s.ch ch else
    { s.ch ch with addr := d.addr, remain := d.len }) = c at fits
  generalize (if u.paced = true then _ else c.remain) = avail
  have first : Keeps s (s.setCh ch { c with inSeg := decide (avail < c.remain) }) :=
    .setCh fun _ _ => ⟨fits, free⟩
  by_cases nothing : min avail c.remain = 0
  · rw [if_pos nothing]
    simp only [ne_eq, not_true_eq_false, if_false]
    split
    · exact first.trans (.less rfl (Nat.sub_le _ _)) bounded
    · exact first.trans (.less rfl (Nat.sub_le _ _)) bounded
  · rw [if_neg nothing]
    have noted : Keeps (s.setCh ch { c with inSeg := decide (avail < c.remain) })
        ((s.setCh ch { c with inSeg := decide (avail < c.remain) }).note
          (.segment ch c.addr (min avail c.remain))) := by
      refine .of_same rfl rfl fun j addr len mem => (mem_append.mp mem).imp_right fun new => ?_
      cases mem_singleton.mp new
      exact (Nat.min_le_right _ _).trans fits
    have moved : Keeps s (move b dev call _ u ch far (min avail c.remain) d (s.ch ch).inSeg).1 :=
      (first.trans noted).trans (move_rel Keeps.ignores called _ u ch far _ d _)
    split
    · exact moved bounded
    · split
      · exact moved.trans (.less rfl (Nat.sub_le _ _)) bounded
      · exact moved.trans (.less rfl (Nat.sub_le _ _)) bounded

theorem turn_keeps (free : s.paced ch = false) (u : Setup) (far : Nat) :
    Keeps s (s.turn b dev call u ch far).1 := by
  unfold turn
  dsimp only
  split
  · exact .refl s
  · split
    · exact .refl s
    · split
      · exact .less rfl le_rfl
      · split
        · exact .refl s
        · next data => exact segment_keeps called free u far (not_not.mp data)

theorem walk_keeps (u : Setup) (n far : Nat) (s : State ω) (free : s.paced ch = false) :
    Keeps s (walk b dev call u ch n far s).1 := by
  induction n generalizing far s with
  | zero => exact .refl s
  | succ n ih =>
    intro bounded
    have once : Keeps s (s.turn b dev call u ch far).1 := turn_keeps called free u far
    unfold walk
    dsimp only
    split
    · exact once.trans (ih _ _ (by rw [(once bounded).2]; exact free)) bounded
    · exact once bounded
    · exact once bounded

theorem runWith_keeps (free : s.paced ch = false) : Keeps s (s.runWith b dev call ch) := by
  unfold runWith
  generalize maxTurns = n
  dsimp only
  exact ((Keeps.ctrl s ch _).trans (walk_keeps called _ n _ _ (by exact free))).trans
    (.conclude _ _ _)

end Run

/-- A channel that is resumed plays nothing, so it can be run. -/
theorem exec_keeps {run : Nat → State ω → State ω}
    (runs : ∀ j s, s.paced j = false → Keeps s (run j s)) (c : Call) (s : State ω) :
    Keeps s (c.exec b run s) := by
  refine exec_rel .refl .trans (fun j s stalled bounded => ?_)
    (fun j s base size => .sinkOne s _ _) c
  exact runs j s (bounded.paced j (Bool.and_eq_true_iff.mp stalled).2) bounded

theorem runAt_keeps (depth j : Nat) (s : State ω) (free : s.paced j = false) :
    Keeps s (runAt b dev depth j s) := by
  induction depth generalizing j s with
  | zero => exact .refl s
  | succ depth ih => exact runWith_keeps (exec_keeps ih) free

theorem run_keeps (j : Nat) (s : State ω) (free : s.paced j = false) : Keeps s (run b dev j s) :=
  runAt_keeps channels j s free

/-! ## Accesses and time -/

namespace Bounded

theorem keeps (bounded : Bounded s) (keeps : Keeps s s') : Bounded s' := (keeps bounded).1

/-- A channel that plays is not stalled in a segment, so where its chain is does not matter. -/
theorem played (bounded : Bounded s) (plays : s.paced ch = true) (played : Played ch s s') :
    Bounded s' := by
  have same : ∀ j, (s'.ch j).inSeg = true →
      s'.ch j = s.ch j ∧ (s.ch j).inSeg = true := by
    intro j inside
    by_cases mine : j = ch
    · subst mine
      rw [played.mine.2.2] at inside
      rw [bounded.paced j inside] at plays
      cases plays
    · rw [played.ch j mine] at inside
      exact ⟨played.ch j mine, inside⟩
  refine ⟨fun j inside => ?_, fun j inside => ?_, fun j addr len mem => ?_⟩
  · rw [(same j inside).1]
    exact bounded.remain j (same j inside).2
  · rw [played.paced]
    exact bounded.paced j (same j inside).2
  · obtain ⟨es, logged, stores⟩ := played.log
    rw [logged] at mem
    refine bounded.log j addr len ((mem_append.mp mem).resolve_right fun new => ?_)
    obtain ⟨_, _, isStore⟩ := stores _ new
    cases isStore

/-- Nothing plays on a channel any more. -/
theorem unpaced (bounded : Bounded s) (same : s'.ch = s.ch)
    (paced : s'.paced = update s.paced ch false) (log : s'.log = s.log) : Bounded s' := by
  refine ⟨by rw [same]; exact bounded.remain, fun j inside => ?_, by rw [log]; exact bounded.log⟩
  rw [same] at inside
  rw [paced]
  by_cases mine : j = ch
  · rw [mine, update_self]
  · rw [update_of_ne mine]
    exact bounded.paced j inside

theorem pacedStop (bounded : Bounded s) : Bounded (s.pacedStop b dev ch) := by
  unfold State.pacedStop
  split
  · next plays => exact (bounded.played plays (.pacedAdvance s _)).unpaced rfl rfl rfl
  · exact bounded

theorem paceOne (bounded : Bounded s) : Bounded (s.paceOne b dev ch) := by
  unfold State.paceOne
  split
  · next plays =>
    have advanced : Bounded (s.pacedAdvance b dev ch (s.pacedPos ch)).1 :=
      bounded.played plays (.pacedAdvance s _)
    split
    · next here =>
      rw [here] at advanced
      exact advanced
    · next t here =>
      rw [here] at advanced
      have stopped : ∀ ends,
          Bounded { t with paced := update t.paced ch false, pacedEnd := ends } :=
        fun _ => advanced.unpaced rfl rfl rfl
      exact (stopped _).keeps ((Keeps.ctrl _ ch _).trans (.reportDone _))
  · exact bounded

theorem readReg (bounded : Bounded s) : Bounded (s.readReg b dev ch) := by
  unfold State.readReg
  split
  · next plays => exact bounded.played plays (.pacedAdvance s _)
  · exact bounded

/-- Whether a go sets the channel's registers from its descriptor, to park it or to play it out. -/
def setsRegs (b : Board) (c : Channel) : Bool :=
  (c.waitsForUart && !b.isSource c.fifo) || isPacedPort b c.fifo

/-- Such a go finds no segment half moved, any other one nothing that plays. -/
def GoOk (b : Board) (s : State ω) (ch : Nat) : Prop :=
  if setsRegs b (s.ch ch) then (s.ch ch).inSeg = false else s.paced ch = false

theorem go (bounded : Bounded s) (ok : GoOk b s ch) : Bounded (s.go b dev ch) := by
  unfold GoOk setsRegs at ok
  unfold State.go
  dsimp only
  split
  · next parks =>
    rw [if_pos (by simp [parks.1, parks.2])] at ok
    refine bounded.keeps (.setCh ?_)
    exact fun _ inside => absurd (ok.symm.trans inside) nofun
  · next runs =>
    have fed : ((s.ch ch).waitsForUart && !b.isSource (s.ch ch).fifo) = false := by
      simpa using runs
    split
    · next port =>
      rw [fed, port, Bool.false_or, if_pos rfl] at ok
      have each : ∀ j, (((s.startPaced b dev ch).ch j).inSeg = true) → j ≠ ch ∧
          (s.startPaced b dev ch).ch j = s.ch j := by
        intro j inside
        have other : j ≠ ch := by
          rintro rfl
          rw [State.startPaced, setCh_self] at inside
          exact absurd (ok.symm.trans inside) nofun
        exact ⟨other, update_of_ne other _ _⟩
      refine ⟨fun j inside => ?_, fun j inside => ?_, bounded.log⟩
      · obtain ⟨-, same⟩ := each j inside
        rw [same] at inside ⊢
        exact bounded.remain j inside
      · obtain ⟨other, same⟩ := each j inside
        rw [same] at inside
        exact (update_of_ne other _ _).trans (bounded.paced j inside)
    · next port =>
      rw [fed, Bool.false_or, if_neg port] at ok
      exact bounded.keeps (run_keeps ch s ok)

end Bounded

/-- The condition on an access in the state it finds: what remains of a stalled segment is not
written to more than the limit, and a go that does not abort the channel first does not have it set
from a descriptor. -/
def Event.Careful (b : Board) (s : State ω) : Event ω → Prop
  | .write ch .remain v => (s.ch ch).inSeg = true → v % 2 ^ 32 ≤ maxSegment
  | .write ch .ctrl v => (CtrlWord.of (v % 2 ^ 32)).starts = true →
      (CtrlWord.of (v % 2 ^ 32)).abort = false → Bounded.GoOk b s ch
  | _ => True

theorem Bounded.writeCtrl (bounded : Bounded s) (v : CtrlWord)
    (ok : v.starts = true → v.abort = false → GoOk b s ch) : Bounded (s.writeCtrl b dev ch v) := by
  unfold State.writeCtrl
  by_cases reset : v.reset = true
  · rw [if_pos reset]
    refine bounded.pacedStop.keeps (.setCh ?_)
    exact fun _ inside => absurd inside Bool.false_ne_true
  rw [if_neg reset]
  dsimp only
  have written : Bounded (s.setCh ch { s.ch ch with ctrl := (s.ch ch).ctrl.write v }) :=
    bounded.keeps (.ctrl s ch _)
  have starts : ∀ t : State ω, Bounded t → (v.starts = true → GoOk b t ch) →
      Bounded (if (v.go && !v.config.testBit 5) = true then t.go b dev ch else t) := by
    intro t bounded ok
    split
    · next goes =>
      refine bounded.go (ok ?_)
      rw [CtrlWord.starts, goes, Bool.eq_false_iff.mpr reset]
      rfl
    · exact bounded
  by_cases aborts : v.abort = true
  · -- an aborted channel is neither stalled nor played
    rw [if_pos aborts]
    refine starts _ (Bounded.pacedStop ?_) fun _ => ?_
    · exact written.keeps (.setCh fun _ inside => absurd inside Bool.false_ne_true)
    · obtain ⟨⟨-, -, inSeg⟩, -, paced⟩ := pacedStop_spec b dev ch _
      rw [setCh_self] at inSeg
      unfold GoOk
      split
      · exact inSeg
      · exact paced
  · rw [if_neg aborts]
    refine starts _ written fun goes => ?_
    have before := ok goes (Bool.eq_false_iff.mpr aborts)
    unfold GoOk at before ⊢
    rw [setCh_self]
    exact before

theorem Bounded.writeReg (bounded : Bounded s) {reg : Reg} {v : Nat}
    (ok : (Event.write ch reg v : Event ω).Careful b s) : Bounded (s.writeReg b dev ch reg v) := by
  unfold State.writeReg
  refine Bounded.keeps ?_ (.updateIrq _ ch)
  cases reg with
  | ctrl => exact bounded.writeCtrl _ ok
  | remain =>
    refine bounded.keeps (.setCh ?_)
    exact fun _ inside => ⟨ok inside, bounded.paced ch inside⟩
  | settings | fifo | addr | desc | error =>
    refine bounded.keeps ?_
    exact .less rfl le_rfl

theorem bounded_step (s : State ω) (e : Event ω) (bounded : Bounded s) (ok : e.Careful b s) :
    Bounded (s.step b dev e) := by
  cases e with
  | write ch reg v =>
    dsimp only [State.step]
    split
    · exact bounded.writeReg ok
    · exact bounded
  | enable word v value =>
    dsimp only [State.step]
    split
    · have enabled : Keeps s (s.setEnabled word v value) := .of_same rfl rfl fun _ _ _ => .inl
      exact bounded.keeps
        (enabled.trans (foldl_rel .refl .trans _ (fun t j _ => .updateIrq t j) _))
    · exact bounded
  | aes ctx reg v =>
    dsimp only [State.step]
    split
    · exact bounded.keeps (.side (.setAes s ctx _))
    · exact bounded
  | read ch =>
    dsimp only [State.step]
    split
    · exact bounded.readReg
    · exact bounded
  | store addr buf => exact ⟨bounded.remain, bounded.paced, bounded.log⟩
  | device change handler =>
    exact bounded.keeps ((Keeps.side (.putWorld s _)).trans
      (handle_rel Keeps.ignores (exec_keeps run_keeps) _ _))
  | tick ns =>
    have later : Bounded { s with now := s.now + ns } :=
      ⟨bounded.remain, bounded.paced, bounded.log⟩
    exact foldl_rel (R := fun s s' => Bounded s → Bounded s') (fun _ => id)
      (fun first second bounded => second (first bounded)) _ (fun _ _ _ => .paceOne) _ later
  | reset => exact ⟨nofun, nofun, bounded.log⟩

/-- A device that has as much as its world says. -/
def trickle : Device Nat where
  avail world _ _ := world
  push world _ _ := (world, .ret)
  pop world _ _ := ((world, fun _ => 0), .ret)
  play world _ _ := world
  capture world _ _ := (world, fun _ => 0)
  rate _ _ := 44100

/-- Channel 1 stalls in a segment of eight bytes. The guest cuts it to four, and when the device has
them the channel is resumed. -/
def cutAndResumed : List (Event Nat) :=
  [.store 0x40000000 (Desc.mk 0 0x103 0x40001000 8).bytes, .write 1 .fifo 0x81200014,
    .write 1 .desc 0x40000000, .write 1 .ctrl 1, .write 1 .remain 4,
    .device (fun _ => 64) fun _ => .calls [.kick]]

end QemuIos.Cdma

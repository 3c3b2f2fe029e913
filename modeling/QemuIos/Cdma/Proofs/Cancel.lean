import QemuIos.Cdma.Proofs.Paced

/-!
# Cancelled channels

Abort, channel reset and device reset all leave a chain behind that waits for its device to drain:
the flag that says so is none of the things they clear. Where the flag is clear the channel is
quiet, and it stays quiet whatever happens, short of a go.
-/

namespace QemuIos.Cdma

open List Function Bool State

variable {ω : Type} {b : Board} {dev : Device ω} {s s' s'' : State ω} {ch : Nat}

/-- Nothing of a channel is still to complete: it is neither stalled nor played nor waited for, and
its line is up for no other reason than a bit that is set. -/
structure Quiet (ch : Nat) (s : State ω) : Prop where
  stalled : (s.ch ch).stalled = false
  sinkPending : s.sinkPending ch = false
  paced : s.paced ch = false
  line : s.irq ch = true → (s.ch ch).ctrl.done = true ∨ (s.ch ch).ctrl.error = true

/-- No completion of a channel between two states: the done bit has not come up, the line is up only
for a bit that was set before, and nothing is reported. -/
structure NoCompletion (ch : Nat) (s s' : State ω) : Prop where
  done : (s'.ch ch).ctrl.done = true → (s.ch ch).ctrl.done = true
  error : (s'.ch ch).ctrl.error = true → (s.ch ch).ctrl.error = true
  line : s'.irq ch = true → (s.ch ch).ctrl.done = true ∨ (s.ch ch).ctrl.error = true
  log : ∃ es, s'.log = s.log ++ es ∧ Entry.done ch ∉ es

/-- A quiet channel is left alone. -/
def Unmoved (ch : Nat) (s s' : State ω) : Prop := Quiet ch s → Quiet ch s' ∧ NoCompletion ch s s'

theorem NoCompletion.refl (quiet : Quiet ch s) : NoCompletion ch s s :=
  ⟨id, id, quiet.line, [], (append_nil _).symm, by simp⟩

theorem NoCompletion.trans (first : NoCompletion ch s s') (second : NoCompletion ch s' s'') :
    NoCompletion ch s s'' := by
  obtain ⟨es, logged, quiet⟩ := first.log
  obtain ⟨es', logged', quiet'⟩ := second.log
  refine ⟨fun h => first.done (second.done h), fun h => first.error (second.error h), fun h => ?_,
    es ++ es', by rw [logged', logged, append_assoc], ?_⟩
  · exact (second.line h).imp first.done first.error
  · exact fun mem => (mem_append.mp mem).elim quiet quiet'

theorem Unmoved.refl (s : State ω) : Unmoved ch s s := fun quiet => ⟨quiet, .refl quiet⟩

theorem Unmoved.trans (first : Unmoved ch s s') (second : Unmoved ch s' s'') :
    Unmoved ch s s'' := by
  intro quiet
  obtain ⟨quiet', before⟩ := first quiet
  obtain ⟨quiet'', after⟩ := second quiet'
  exact ⟨quiet'', before.trans after⟩

/-- A change of the state that a quiet channel has no part in. -/
theorem Unmoved.of_same (same : s'.ch ch = s.ch ch)
    (sinkPending : s'.sinkPending ch = s.sinkPending ch)
    (paced : s'.paced ch = s.paced ch) (irq : s'.irq ch = s.irq ch)
    (log : ∃ es, s'.log = s.log ++ es ∧ Entry.done ch ∉ es) : Unmoved ch s s' := by
  intro quiet
  refine ⟨⟨by rw [same]; exact quiet.stalled, by rw [sinkPending]; exact quiet.sinkPending,
    by rw [paced]; exact quiet.paced, by rw [same, irq]; exact quiet.line⟩, ?_⟩
  exact ⟨by rw [same]; exact id, by rw [same]; exact id, by rw [irq]; exact quiet.line, log⟩

theorem Unmoved.of_own {j : Nat} (own : Own j s s') (other : j ≠ ch) : Unmoved ch s s' := by
  obtain ⟨es, logged, mine⟩ := own.log
  refine .of_same (own.ch ch other.symm) (own.sinkPending ch other.symm) (own.paced ch other.symm)
    (own.irq ch other.symm) ⟨es, logged, fun mem => other ?_⟩
  exact (mine _ mem).symm

theorem Unmoved.setSinkEarly (s : State ω) (v : Bool) : Unmoved ch s (s.setSinkEarly ch v) :=
  .of_same rfl rfl rfl rfl ⟨[], (append_nil _).symm, by simp⟩

/-- A channel nobody waits for takes no notice of a drained FIFO. -/
theorem Unmoved.sinkOne (s : State ω) (base size : Nat) :
    Unmoved ch s (s.sinkOne b base size ch) := by
  intro quiet
  unfold State.sinkOne
  dsimp only
  split
  · have still : (s.setSinkEarly ch true).sinkPending ch = false := quiet.sinkPending
    rw [still]
    exact Unmoved.setSinkEarly s true quiet
  · rw [quiet.sinkPending]
    exact Unmoved.refl s quiet

theorem spares_unmoved :
    Spares b ch (Unmoved ch : State ω → State ω → Prop) where
  admits j other := ⟨.trans, fun own => .of_own own other⟩
  refl := .refl
  trans := .trans
  sink s base size := .sinkOne s base size
  stalled s s' stalled quiet := by
    rw [quiet.stalled] at stalled
    cases stalled

/-- A guest's write to a quiet channel that starts nothing. -/
theorem Unmoved.rewrite (s : State ω) {c : Channel}
    (stalled : c.stalled = true → (s.ch ch).stalled = true)
    (done : c.ctrl.done = true → (s.ch ch).ctrl.done = true)
    (error : c.ctrl.error = true → (s.ch ch).ctrl.error = true) :
    Unmoved ch s ((s.setCh ch c).updateIrq b ch) := by
  intro quiet
  have now : ((s.setCh ch c).updateIrq b ch).ch ch = c := setCh_self s ch c
  have line : ((s.setCh ch c).updateIrq b ch).irq ch = true →
      c.ctrl.done = true ∨ c.ctrl.error = true := by
    simp only [updateIrq, update_self, setCh_self, and_eq_true,
      or_eq_true]
    exact And.right
  refine ⟨⟨?_, quiet.sinkPending, quiet.paced, by rw [now]; exact line⟩, ?_⟩
  · rw [now, eq_false_iff]
    intro still
    have before := stalled still
    rw [quiet.stalled] at before
    cases before
  · exact ⟨by rw [now]; exact done, by rw [now]; exact error, fun up => (line up).imp done error,
      [], (append_nil _).symm, by simp⟩

theorem pacedStop_of_not_paced (not : s.paced ch = false) : s.pacedStop b dev ch = s := by
  unfold pacedStop
  rw [not]
  exact if_neg Bool.false_ne_true

/-- What the guest writes to a quiet channel completes nothing, short of a go. -/
theorem Unmoved.writeReg (s : State ω) (reg : Reg) (v : Nat)
    (idle : reg = .ctrl → (CtrlWord.of (v % 2 ^ 32)).starts = false) :
    Unmoved ch s (s.writeReg b dev ch reg v) := by
  intro quiet
  unfold State.writeReg
  cases reg with
  | settings | fifo | remain | addr | desc | error => exact Unmoved.rewrite s id id id quiet
  | ctrl =>
    have stays := idle rfl
    dsimp only
    generalize CtrlWord.of (v % 2 ^ 32) = w at stays ⊢
    unfold writeCtrl
    cases wr : w.reset with
    | true =>
      rw [if_pos rfl, pacedStop_of_not_paced quiet.paced]
      exact Unmoved.rewrite s (fun h => by cases h) (fun h => by cases h)
        (fun h => by cases h) quiet
    | false =>
      have off : (w.go && !w.config.testBit 5) = false := by
        simpa only [CtrlWord.starts, wr, Bool.not_false, Bool.and_true] using stays
      rw [if_neg Bool.false_ne_true, off]
      simp only [Bool.false_eq_true, if_false]
      cases w.abort with
      | true =>
        rw [if_pos rfl, pacedStop_of_not_paced (by exact quiet.paced), setCh_self]
        have twice : ∀ c c', (s.setCh ch c).setCh ch c' = s.setCh ch c' := by
          intro c c'
          simp only [setCh, update_idem]
        rw [twice]
        refine Unmoved.rewrite s (fun h => ?_) (fun h => ?_) (fun h => ?_) quiet
        · cases h
        · exact (and_eq_true _ _ ▸ h : _ ∧ _).1
        · exact (Bool.and_eq_true _ _ ▸ h : _ ∧ _).1
      | false =>
        rw [if_neg Bool.false_ne_true]
        refine Unmoved.rewrite s id (fun h => ?_) (fun h => ?_) quiet
        · exact (Bool.and_eq_true _ _ ▸ h : _ ∧ _).1
        · exact (and_eq_true _ _ ▸ h : _ ∧ _).1

/-- A go on a channel. -/
def Event.Starts (ch : Nat) : Event ω → Prop
  | .write j .ctrl v => j = ch ∧ (CtrlWord.of (v % 2 ^ 32)).starts = true
  | _ => False

/-- The guest aborts or resets a channel, without a go in the same write, or the device is reset. -/
def Event.Cancels (ch : Nat) : Event ω → Prop
  | .write j .ctrl v =>
    j = ch ∧ ((CtrlWord.of (v % 2 ^ 32)).reset = true ∨ (CtrlWord.of (v % 2 ^ 32)).abort = true) ∧
      (CtrlWord.of (v % 2 ^ 32)).starts = false
  | .reset => True
  | _ => False

theorem Unmoved.updateIrq (s : State ω) (j : Nat) : Unmoved ch s (s.updateIrq b j) := by
  by_cases mine : j = ch
  · subst mine
    have same : s.setCh j (s.ch j) = s := by
      simp only [setCh, update_eq_self]
    have rewritten : Unmoved j s ((s.setCh j (s.ch j)).updateIrq b j) := .rewrite s id id id
    rwa [same] at rewritten
  · exact .of_own (.updateIrq s) mine

theorem Unmoved.paceOne (s : State ω) (j : Nat) : Unmoved ch s (s.paceOne b dev j) := by
  by_cases mine : j = ch
  · subst mine
    intro quiet
    unfold paceOne
    rw [quiet.paced]
    exact Unmoved.refl s quiet
  · exact .of_own (.paceOne s) mine

theorem Unmoved.readReg (s : State ω) (j : Nat) : Unmoved ch s (s.readReg b dev j) := by
  by_cases mine : j = ch
  · subst mine
    intro quiet
    unfold readReg
    rw [quiet.paced]
    exact Unmoved.refl s quiet
  · exact .of_own (.readReg s) mine

theorem Quiet.reset (clear : s.sinkPending ch = false) : Quiet ch (s.reset b) :=
  ⟨rfl, clear, rfl, fun up => by cases up⟩

/-- Whatever happens to a quiet channel but a go, nothing of it completes. -/
theorem Unmoved.step (s : State ω) (e : Event ω) (stays : ¬ e.Starts ch) :
    Unmoved ch s (s.step b dev e) := by
  have sp : Spares b ch (Unmoved ch : State ω → State ω → Prop) := spares_unmoved
  cases e with
  | write j reg v =>
    dsimp only [State.step]
    split
    · by_cases mine : j = ch
      · subst mine
        refine .writeReg s reg v fun ctrl => ?_
        subst ctrl
        exact eq_false_iff.mpr fun starts => stays ⟨rfl, starts⟩
      · exact writeReg_rel (sp.admits j mine) (fun s => runAt_rel sp channels j s mine) s reg v
    · exact .refl s
  | enable word v value =>
    dsimp only [State.step]
    split
    · have changed : Unmoved ch s (s.setEnabled word v value) :=
        .of_same rfl rfl rfl rfl ⟨[], (append_nil _).symm, by simp⟩
      exact changed.trans (foldl_rel .refl .trans _ (fun s j _ => .updateIrq s j) _)
    · exact .refl s
  | aes ctx reg v =>
    dsimp only [State.step]
    split
    · exact .of_same rfl rfl rfl rfl ⟨[], (append_nil _).symm, by simp⟩
    · exact .refl s
  | read j =>
    dsimp only [State.step]
    split
    · exact .readReg s j
    · exact .refl s
  | store addr buf => exact .of_same rfl rfl rfl rfl ⟨[], (append_nil _).symm, by simp⟩
  | device change handler =>
    have put : ∀ (s : State ω) w, Unmoved ch s (s.putWorld w) :=
      fun s w => .of_same rfl rfl rfl rfl ⟨[], (append_nil _).symm, by simp⟩
    exact (put s _).trans (handled_rel sp channels _ _ put)
  | tick ns =>
    have later : Unmoved ch s { s with now := s.now + ns } :=
      .of_same rfl rfl rfl rfl ⟨[], (append_nil _).symm, by simp⟩
    exact later.trans (foldl_rel .refl .trans _ (fun s j _ => .paceOne s j) _)
  | reset =>
    intro quiet
    refine ⟨.reset quiet.sinkPending, ⟨?_, ?_, ?_, [], (append_nil _).symm, by simp⟩⟩
    all_goals
      intro up
      cases up

theorem Unmoved.run (events : List (Event ω)) (stays : ∀ e ∈ events, ¬ e.Starts ch) (s : State ω) :
    Unmoved ch s (events.foldl (fun s e => s.step b dev e) s) :=
  foldl_rel .refl .trans events (fun s e mem => .step s e (stays e mem)) s

/-- What a cancelled channel is: nothing of it is in flight but what waits for its device. -/
structure Cancelled (ch : Nat) (s s' : State ω) : Prop where
  running : (s'.ch ch).ctrl.running = false
  inSeg : (s'.ch ch).inSeg = false
  paced : s'.paced ch = false
  sinkPending : s'.sinkPending ch = s.sinkPending ch
  line : s'.irq ch = true → (s'.ch ch).ctrl.done = true ∨ (s'.ch ch).ctrl.error = true

variable (b dev ch) in
theorem pacedStop_spec (s : State ω) :
    (((s.pacedStop b dev ch).ch ch).ctrl = (s.ch ch).ctrl ∧
      ((s.pacedStop b dev ch).ch ch).fifo = (s.ch ch).fifo ∧
      ((s.pacedStop b dev ch).ch ch).inSeg = (s.ch ch).inSeg) ∧
    (s.pacedStop b dev ch).sinkPending = s.sinkPending ∧
      (s.pacedStop b dev ch).paced ch = false := by
  have played : Played ch s (s.pacedAdvance b dev ch (s.pacedPos ch)).1 := .pacedAdvance s _
  unfold pacedStop
  split
  · exact ⟨played.mine, played.sinkPending, update_self ..⟩
  · rename_i not
    exact ⟨⟨rfl, rfl, rfl⟩, rfl, eq_false_iff.mpr not⟩

variable (b ch) in
theorem updateIrq_line (s : State ω) (up : (s.updateIrq b ch).irq ch = true) :
    (s.ch ch).ctrl.done = true ∨ (s.ch ch).ctrl.error = true := by
  simp only [updateIrq, update_self, and_eq_true, or_eq_true] at up
  exact up.2

theorem cancelled_write (s : State ω) (v : CtrlWord) (cancels : v.reset = true ∨ v.abort = true)
    (stays : v.starts = false) : Cancelled ch s ((s.writeCtrl b dev ch v).updateIrq b ch) := by
  have line := updateIrq_line b ch (s.writeCtrl b dev ch v)
  suffices ((s.writeCtrl b dev ch v).ch ch).ctrl.running = false ∧
      ((s.writeCtrl b dev ch v).ch ch).inSeg = false ∧ (s.writeCtrl b dev ch v).paced ch = false ∧
      (s.writeCtrl b dev ch v).sinkPending ch = s.sinkPending ch from
    ⟨this.1, this.2.1, this.2.2.1, this.2.2.2, line⟩
  clear line
  unfold writeCtrl
  cases wr : v.reset with
  | true =>
    obtain ⟨_, pending, paced⟩ := pacedStop_spec b dev ch s
    rw [if_pos rfl, setCh_self]
    exact ⟨rfl, rfl, paced, congrFun pending ch⟩
  | false =>
    have off : (v.go && !v.config.testBit 5) = false := by
      simpa only [CtrlWord.starts, wr, Bool.not_false, Bool.and_true] using stays
    have aborts : v.abort = true := by
      rcases cancels with h | h
      · rw [wr] at h
        cases h
      · exact h
    rw [if_neg Bool.false_ne_true, off, aborts]
    simp only [Bool.false_eq_true, if_false, if_true, setCh_self]
    obtain ⟨⟨ctrl, _, inSeg⟩, pending, paced⟩ := pacedStop_spec b dev ch
      ((s.setCh ch { s.ch ch with ctrl := (s.ch ch).ctrl.write v }).setCh ch
        { s.ch ch with ctrl := { (s.ch ch).ctrl.write v with running := false, aborted := true }
                       inSeg := false })
    rw [ctrl, inSeg, setCh_self]
    exact ⟨rfl, rfl, paced, congrFun pending ch⟩

theorem cancelled (range : 0 < ch ∧ ch < channels) {e : Event ω} (cancels : e.Cancels ch) :
    Cancelled ch s (s.step b dev e) := by
  cases e with
  | write j reg v =>
    cases reg with
    | ctrl =>
      obtain ⟨rfl, which, stays⟩ := cancels
      dsimp only [step]
      rw [if_pos range]
      exact cancelled_write s _ which stays
    | settings | fifo | remain | addr | desc | error => exact cancels.elim
  | reset => exact ⟨rfl, rfl, rfl, rfl, fun up => by cases up⟩
  | enable | aes | read | store | device | tick => exact cancels.elim

theorem Cancelled.quiet (cancelled : Cancelled ch s s') (clear : s.sinkPending ch = false) :
    Quiet ch s' := by
  refine ⟨?_, cancelled.sinkPending.trans clear, cancelled.paced, cancelled.line⟩
  rw [Channel.stalled, cancelled.running, Bool.false_and]

/-- What a drained FIFO does to a channel that waits for it. -/
structure Completed (ch : Nat) (s s' : State ω) : Prop where
  log : ∃ es, s'.log = s.log ++ es ∧ Entry.done ch ∈ es ∧ ∀ e ∈ es, ∃ j, e = .done j
  ctrl : (s'.ch ch).ctrl = { (s.ch ch).ctrl with running := false, done := true }

/-- What a drained FIFO does to the other channels. -/
structure Drained (ch : Nat) (s s' : State ω) : Prop where
  log : ∃ es, s'.log = s.log ++ es ∧ ∀ e ∈ es, ∃ j, e = .done j
  idle : s.sinkPending ch = false → s'.sinkPending ch = false ∧ s'.ch ch = s.ch ch

theorem Drained.trans (first : Drained ch s s') (second : Drained ch s' s'') :
    Drained ch s s'' := by
  obtain ⟨es, logged, reports⟩ := first.log
  obtain ⟨es', logged', reports'⟩ := second.log
  refine ⟨⟨es ++ es', by rw [logged', logged, append_assoc], fun e mem => ?_⟩, fun clear => ?_⟩
  · exact (mem_append.mp mem).elim (reports e) (reports' e)
  · obtain ⟨clear₁, same⟩ := first.idle clear
    obtain ⟨clear₂, same'⟩ := second.idle clear₁
    exact ⟨clear₂, same'.trans same⟩

theorem drained_sinkOne (base size j : Nat) : Drained ch s (s.sinkOne b base size j) := by
  have own := Own.sinkOne (b := b) s base size j
  obtain ⟨t, which, eq⟩ := sinkOne_cases b s base size j
  have early : t.ch = s.ch ∧ t.sinkPending = s.sinkPending ∧ t.log = s.log := by
    rcases which with rfl | rfl
    · exact ⟨rfl, rfl, rfl⟩
    · exact ⟨rfl, rfl, rfl⟩
  rw [eq] at own ⊢
  split at own
  · rename_i waits
    rw [if_pos waits]
    refine ⟨⟨[.done j], ?_, fun e mem => ⟨j, mem_singleton.mp mem⟩⟩, fun clear => ?_⟩
    · rw [← early.2.2]
      rfl
    · have other : ch ≠ j := by
        intro same
        rw [← same, clear] at waits
        cases waits
      exact ⟨(own.sinkPending ch other).trans clear, own.ch ch other⟩
  · rename_i waits
    rw [if_neg waits]
    refine ⟨⟨[], by rw [early.2.2, append_nil], by simp⟩, fun clear => ?_⟩
    exact ⟨by rw [early.2.1]; exact clear, by rw [early.1]⟩

theorem sinkOne_completes {base size : Nat} (waits : s.sinkPending ch = true)
    (out : (s.ch ch).inSeg = false)
    (here : base ≤ (s.ch ch).fifo ∧ (s.ch ch).fifo < base + size) :
    Completed ch s (s.sinkOne b base size ch) ∧
      (s.sinkOne b base size ch).sinkPending ch = false := by
  obtain ⟨t, which, eq⟩ := sinkOne_cases b s base size ch
  have early : t.ch = s.ch ∧ t.log = s.log := by
    rcases which with rfl | rfl
    · exact ⟨rfl, rfl⟩
    · exact ⟨rfl, rfl⟩
  rw [eq, if_pos (by rw [waits, out, decide_eq_true here]; rfl)]
  refine ⟨⟨⟨[.done ch], ?_, by simp, by simp⟩, ?_⟩, update_self ..⟩
  · rw [← early.2]
    rfl
  · simp only [drain, reportDone, updateIrq, note, setCh,
      update_self, early.1]

/-- A drained FIFO completes a channel that waits for it, in whatever order the channels are looked
at. -/
theorem sinkDone_completes {base size : Nat} (l : List Nat) (mem : ch ∈ l)
    (waits : s.sinkPending ch = true) (out : (s.ch ch).inSeg = false)
    (here : base ≤ (s.ch ch).fifo ∧ (s.ch ch).fifo < base + size) :
    Completed ch s (l.foldl (fun s j => s.sinkOne b base size j) s) := by
  induction l generalizing s with
  | nil => cases mem
  | cons j rest ih =>
    rw [foldl_cons]
    by_cases same : j = ch
    · -- behind the channel's turn nothing is waited for
      subst same
      obtain ⟨⟨⟨es, logged, done, reports⟩, ctrl⟩, clear⟩ :=
        sinkOne_completes (b := b) waits out here
      have later : Drained j (s.sinkOne b base size j)
          (rest.foldl (fun s i => s.sinkOne b base size i) (s.sinkOne b base size j)) :=
        foldl_rel (R := Drained j)
          (fun s => ⟨⟨[], (append_nil _).symm, by simp⟩, fun h => ⟨h, rfl⟩⟩)
          .trans rest (fun s i _ => drained_sinkOne base size i) _
      obtain ⟨es', logged', reports'⟩ := later.log
      refine ⟨⟨es ++ es', by rw [logged', logged, append_assoc], mem_append_left es' done,
        fun e mem => (mem_append.mp mem).elim (reports e) (reports' e)⟩, ?_⟩
      rw [(later.idle clear).2, ctrl]
    · have own := Own.sinkOne (b := b) s base size j
      have still := own.ch ch (Ne.symm same)
      have later : ch ∈ rest := (mem_cons.mp mem).resolve_left (Ne.symm same)
      have first : Drained ch s (s.sinkOne b base size j) := drained_sinkOne base size j
      obtain ⟨es, logged, reports⟩ := first.log
      obtain ⟨⟨es', logged', done, reports'⟩, ctrl⟩ :=
        ih later ((own.sinkPending ch (Ne.symm same)).trans waits) (by rw [still]; exact out)
          (by rw [still]; exact here)
      refine ⟨⟨es ++ es', by rw [logged', logged, append_assoc], mem_append_right es done,
        fun e mem => (mem_append.mp mem).elim (reports e) (reports' e)⟩, ?_⟩
      rw [ctrl, still]

theorem mem_channels (range : 0 < ch ∧ ch < channels) : ch ∈ range' 1 (channels - 1) := by
  rw [mem_range'_1]
  exact ⟨range.1, by have := range.2; unfold channels at *; omega⟩

/-- A device that does nothing but report a drained FIFO. -/
theorem step_sinkDone (base size : Nat) :
    s.step b dev (.device id fun _ => .calls [.sinkDone base size]) = s.sinkDone b base size := by
  simp only [step, handle, Handler.calls, Handler.exec, Call.exec, id_eq,
    putWorld_self]

/-- A channel that is aborted, reset, or part of a device reset has no completion until its next go,
whatever the devices and the guest do, exactly if no chain of it was waiting for its device's FIFO
to drain. -/
theorem cancelled_never_completes (b : Board) (dev : Device ω) (range : 0 < ch ∧ ch < channels)
    (s : State ω) (e : Event ω) (cancels : e.Cancels ch) :
    (∀ events : List (Event ω), (∀ e ∈ events, ¬ e.Starts ch) →
      NoCompletion ch (s.step b dev e)
        (events.foldl (fun s e => s.step b dev e) (s.step b dev e))) ↔
    s.sinkPending ch = false := by
  have after : Cancelled ch s (s.step b dev e) := cancelled range cancels
  constructor
  · intro never
    rw [eq_false_iff]
    intro waits
    have drained := never [.device id fun _ => .calls
      [.sinkDone ((s.step b dev e).ch ch).fifo 1]] (by simp [Event.Starts])
    obtain ⟨es, logged, quiet⟩ := drained.log
    rw [foldl_cons, foldl_nil, step_sinkDone, sinkDone] at logged
    have completed := sinkDone_completes (b := b) (range' 1 (channels - 1))
      (mem_channels range) (after.sinkPending.trans waits) after.inSeg
      (⟨le_refl _, Nat.lt_succ_self _⟩ : ((s.step b dev e).ch ch).fifo ≤ _ ∧ _ < _ + 1)
    obtain ⟨es', logged', done, _⟩ := completed.log
    rw [logged'] at logged
    rw [← append_cancel_left logged] at quiet
    exact quiet done
  · intro clear events stays
    exact (Unmoved.run events stays _ (after.quiet clear)).2

/-- A device with nothing to give and no room. -/
def dry : Device Unit where
  avail _ _ _ := 0
  push _ _ _ := ((), .ret)
  pop _ _ _ := (((), fun _ => 0), .ret)
  play _ _ _ := ()
  capture _ _ _ := ((), fun _ => 0)
  rate _ _ := 44100

/-- A device that always has room and never calls. -/
def roomy : Device Unit := { dry with avail _ _ _ := 0x8800 }

/-- Channel 1 stalls in a segment of four bytes from the flash interface, which has none, and
channel 2 plays out a chain on an I2S port; then the guest aborts channel 1. -/
def stalledAndPaced : List (Event Unit) :=
  [.enable 0 6 true, .store 0x40000000 (Desc.mk 0 0x103 0x40001000 4).bytes,
    .write 2 .fifo 0x84500400, .write 2 .desc 0x40000000, .write 2 .ctrl 1,
    .write 1 .fifo 0x81200014, .write 1 .desc 0x40000000, .write 1 .ctrl 1]

/-- The abort of the stalled channel, and a reset of the device with both chains under way. -/
theorem stalled_chain_stays_quiet :
    let board := ipad1 ⟨.plain, []⟩
    let s := stalledAndPaced.foldl (fun s e => s.step board dry e) (init board () fun _ => 0)
    ((s.ch 1).stalled = true ∧ s.paced 2 = true) ∧
    (∀ events : List (Event Unit), (∀ e ∈ events, ¬ e.Starts 1) →
      NoCompletion 1 (s.step board dry (.write 1 .ctrl 4))
        (events.foldl (fun s e => s.step board dry e) (s.step board dry (.write 1 .ctrl 4)))) ∧
    ∀ events : List (Event Unit), (∀ e ∈ events, ¬ e.Starts 2) →
      NoCompletion 2 (s.step board dry .reset)
        (events.foldl (fun s e => s.step board dry e) (s.step board dry .reset)) := by
  have aborts : (Event.write 1 .ctrl 4 : Event Unit).Cancels 1 :=
    ⟨rfl, .inr (by decide), by decide⟩
  have resets : (Event.reset : Event Unit).Cancels 2 := trivial
  refine ⟨by decide +kernel, ?_, ?_⟩
  · exact (cancelled_never_completes _ dry (by decide) _ _ aborts).mpr (by decide +kernel)
  · exact (cancelled_never_completes _ dry (by decide) _ _ resets).mpr (by decide +kernel)

/-- Four bytes for the flash interface are in its FIFO when the guest aborts channel 1. The
interface takes them later, and the aborted channel reports done and raises its line. -/
theorem aborted_chain_completes :
    let board := ipad1 ⟨.plain, []⟩
    let started := [.enable 0 2 true, .store 0x40000000 (Desc.mk 0 0x103 0x40001000 4).bytes,
      .write 1 .settings 2, .write 1 .fifo 0x81200014, .write 1 .desc 0x40000000,
      .write 1 .ctrl 1].foldl (fun s e => s.step board roomy e) (init board () fun _ => 0)
    let aborted := started.step board roomy (.write 1 .ctrl 4)
    let drained := aborted.step board roomy (.device id fun _ => .calls [.sinkDone 0x81200014 4])
    (started.sinkPending 1 = true ∧ (aborted.ch 1).ctrl.done = false ∧ aborted.irq 1 = false) ∧
      (drained.ch 1).ctrl.done = true ∧ drained.irq 1 = true := by
  decide +kernel

end QemuIos.Cdma

import QemuIos.Cdma.Regs

/-!
# What a run can change

A run of one channel is a sequence of changes to what the channel owns (`Own`) with calls of devices
between them; moving a piece of a segment changes no channel's registers at all (`Side`). A relation
between states that contains those changes and the calls contains every run (`runWith_rel`), so each
invariant of the engine is a relation of that kind.
-/

namespace QemuIos.Cdma
open List Function State

variable {ω : Type} {b : Board} {dev : Device ω} {s : State ω}

@[simp] theorem setCh_self (s : State ω) (ch : Nat) (c : Channel) : (s.setCh ch c).ch ch = c :=
  update_self ..

@[simp] theorem putWorld_self (s : State ω) : s.putWorld s.world = s := rfl

/-- An entry of the log that a run of a channel makes itself. -/
def Entry.IsOf (j : Nat) : Entry → Prop
  | segment ch _ _ => ch = j
  | store _ _ => True
  | done ch => ch = j

/-- Only such entries are logged. -/
def Logs (p : Entry → Prop) (s s' : State ω) : Prop := ∃ es, s'.log = s.log ++ es ∧ ∀ e ∈ es, p e

namespace Logs

variable {p q : Entry → Prop} {s s' s'' : State ω}

theorem silent (log : s'.log = s.log) : Logs p s s' := ⟨[], by rw [log, append_nil], by simp⟩

theorem trans (first : Logs p s s') (second : Logs p s' s'') : Logs p s s'' := by
  obtain ⟨es, logged, all⟩ := first
  obtain ⟨es', logged', all'⟩ := second
  refine ⟨es ++ es', by rw [logged', logged, append_assoc], fun e mem => ?_⟩
  exact (mem_append.mp mem).elim (all e) (all' e)

theorem mono (logs : Logs p s s') (all : ∀ e, p e → q e) : Logs q s s' := by
  obtain ⟨es, logged, such⟩ := logs
  exact ⟨es, logged, fun e mem => all e (such e mem)⟩

end Logs

def Entry.IsStore (e : Entry) : Prop := ∃ addr len, e = .store addr len

theorem Entry.IsStore.isOf {e : Entry} (j : Nat) (store : e.IsStore) : e.IsOf j := by
  obtain ⟨addr, len, rfl⟩ := store
  trivial

/-- A change to no channel: memory, the AES engine, the devices. -/
structure Side (s s' : State ω) : Prop where
  ch : s'.ch = s.ch
  sinkPending : s'.sinkPending = s.sinkPending
  paced : s'.paced = s.paced
  irq : s'.irq = s.irq
  log : Logs Entry.IsStore s s'

/-- A change to nothing but what a run of channel `j` changes itself. -/
structure Own (j : Nat) (s s' : State ω) : Prop where
  ch : ∀ i, i ≠ j → s'.ch i = s.ch i
  sinkPending : ∀ i, i ≠ j → s'.sinkPending i = s.sinkPending i
  paced : ∀ i, i ≠ j → s'.paced i = s.paced i
  irq : ∀ i, i ≠ j → s'.irq i = s.irq i
  log : Logs (Entry.IsOf j) s s'

namespace Side

variable {s s' s'' : State ω}

/-- A change that logs nothing. -/
theorem silent (ch : s'.ch = s.ch) (sinkPending : s'.sinkPending = s.sinkPending)
    (paced : s'.paced = s.paced) (irq : s'.irq = s.irq) (log : s'.log = s.log) : Side s s' :=
  ⟨ch, sinkPending, paced, irq, .silent log⟩

theorem refl (s : State ω) : Side s s := silent rfl rfl rfl rfl rfl

theorem trans (first : Side s s') (second : Side s' s'') : Side s s'' :=
  ⟨second.ch.trans first.ch, second.sinkPending.trans first.sinkPending,
    second.paced.trans first.paced, second.irq.trans first.irq, first.log.trans second.log⟩

variable (s)

theorem storeAt (addr : Nat) (buf : List UInt8) : Side s (s.storeAt b addr buf) :=
  ⟨rfl, rfl, rfl, rfl, [.store addr buf.length], rfl, by simp [Entry.IsStore]⟩

theorem putWorld (w : ω) : Side s (s.putWorld w) := silent rfl rfl rfl rfl rfl

theorem setSinkEarly (j : Nat) (v : Bool) : Side s (s.setSinkEarly j v) :=
  silent rfl rfl rfl rfl rfl

theorem setInRun (j : Nat) (v : Bool) : Side s (s.setInRun j v) :=
  silent rfl rfl rfl rfl rfl

theorem setAes (ctx : Nat) (c : AesContext) : Side s (s.setAes ctx c) :=
  silent rfl rfl rfl rfl rfl

theorem setFifo (fifo : List UInt8) : Side s (s.setFifo fifo) :=
  silent rfl rfl rfl rfl rfl

theorem filter (aes : Option Nat) (buf : List UInt8) (restart : Bool) :
    Side s (s.filter b aes buf restart).1 := by
  unfold State.filter
  cases aes with
  | none => exact refl s
  | some ctx =>
    dsimp only
    split
    · exact setAes s _ _
    · exact refl s

theorem feed (ctx : Nat) (d : Desc) (buf : List UInt8) :
    Side s (s.feed b ctx d buf).1 := by
  unfold State.feed
  split
  · exact (setAes s _ _).trans (setFifo _ _)
  · split
    · exact setFifo s _
    · exact refl s

end Side

namespace Own

variable {j : Nat} {s s' s'' : State ω}

theorem of_side (side : Side s s') : Own j s s' :=
  ⟨fun i _ => by rw [side.ch], fun i _ => by rw [side.sinkPending], fun i _ => by rw [side.paced],
    fun i _ => by rw [side.irq], side.log.mono fun _ store => store.isOf j⟩

theorem refl (j : Nat) (s : State ω) : Own j s s := of_side (.refl s)

theorem trans (first : Own j s s') (second : Own j s' s'') : Own j s s'' :=
  ⟨fun i other => (second.ch i other).trans (first.ch i other),
    fun i other => (second.sinkPending i other).trans (first.sinkPending i other),
    fun i other => (second.paced i other).trans (first.paced i other),
    fun i other => (second.irq i other).trans (first.irq i other), first.log.trans second.log⟩

/-- A change that logs nothing. -/
theorem silent (ch : ∀ i, i ≠ j → s'.ch i = s.ch i)
    (sinkPending : ∀ i, i ≠ j → s'.sinkPending i = s.sinkPending i)
    (paced : ∀ i, i ≠ j → s'.paced i = s.paced i) (irq : ∀ i, i ≠ j → s'.irq i = s.irq i)
    (log : s'.log = s.log) : Own j s s' := ⟨ch, sinkPending, paced, irq, .silent log⟩

section

variable (s : State ω)

theorem setCh (c : Channel) : Own j s (s.setCh j c) :=
  silent (fun _ other => update_of_ne other _ _) (fun _ _ => rfl) (fun _ _ => rfl)
    (fun _ _ => rfl) rfl

theorem note {e : Entry} (mine : e.IsOf j) : Own j s (s.note e) :=
  ⟨fun _ _ => rfl, fun _ _ => rfl, fun _ _ => rfl, fun _ _ => rfl, [e], rfl, by simpa using mine⟩

theorem updateIrq : Own j s (s.updateIrq b j) :=
  silent (fun _ _ => rfl) (fun _ _ => rfl) (fun _ _ => rfl)
    (fun _ other => update_of_ne other _ _) rfl

theorem reportDone : Own j s (s.reportDone b j) :=
  ((setCh s _).trans (note _ (e := .done j) rfl)).trans (updateIrq _)

theorem setSinkPending (v : Bool) : Own j s (s.setSinkPending j v) :=
  silent (fun _ _ => rfl) (fun _ other => update_of_ne other _ _)
    (fun _ _ => rfl) (fun _ _ => rfl) rfl

theorem finish (u : Setup) (error : Nat) : Own j s (s.finish b u j error) := by
  unfold State.finish
  dsimp only
  split
  · exact (setCh s _).trans (reportDone _)
  split
  · split
    · exact (of_side (.setSinkEarly s j _)).trans (reportDone _)
    · exact (setSinkPending s _).trans (setCh _ _)
  · exact reportDone s

theorem conclude (u : Setup) (t : Turn) : Own j s (s.conclude b u j t) := by
  cases t with
  | stall => exact refl j s
  | stop error => exact finish s u error
  | more far => exact finish s u 0
end

end Own

/-- A relation that does not see what moving a piece of a segment changes. -/
structure Ignores (R : State ω → State ω → Prop) : Prop where
  trans : ∀ {s s' s''}, R s s' → R s' s'' → R s s''
  side : ∀ {s s'}, Side s s' → R s s'

section Move

variable {R : State ω → State ω → Prop} {call : Call → State ω → State ω}
  (i : Ignores R) (called : ∀ c s, R s (call c s)) (s : State ω)

include i called

theorem handle_rel (h : Handler Call ω) : R s (s.handle call h) :=
  Handler.exec_keep (p := R s) (fun c _ so => i.trans so (called c _))
    (fun _ w so => i.trans so (i.side (.putWorld _ w))) h (i.side (.refl s))

theorem pushAll_rel (fifo width : Nat) (buf : List UInt8) :
    R s (s.pushAll dev call fifo width buf) := by
  unfold pushAll
  generalize units width buf.length = us
  induction us generalizing s with
  | nil => exact i.side (.refl s)
  | cons unit rest ih =>
    rw [foldl_cons]
    exact i.trans (i.trans (i.side (.putWorld _ _)) (handle_rel i called _ _)) (ih _)

theorem popAll_rel (fifo width len : Nat) :
    R s (s.popAll dev call fifo width len).1 := by
  unfold popAll
  generalize units width len = us
  suffices ∀ buf, R s (us.foldl (fun acc unit =>
      let popped := dev.pop acc.1.world fifo unit.2
      ((acc.1.putWorld popped.1.1).handle call popped.2,
        acc.2 ++ (range unit.2).map popped.1.2)) (s, buf)).1 from this []
  induction us generalizing s with
  | nil => exact fun _ => i.side (.refl s)
  | cons unit rest ih =>
    intro buf
    rw [foldl_cons]
    exact i.trans (i.trans (i.side (.putWorld _ _)) (handle_rel i called _ _)) (ih _ _)

theorem moveOut_rel (u : Setup) (j far len : Nat) (d : Desc) (aes : Option Nat) :
    R s (s.moveOut b dev call u j far len d aes).1 := by
  unfold moveOut
  dsimp only
  split
  · exact i.side (.feed s _ _ _)
  · split
    · exact i.side ((Side.filter s _ _ _).trans (.storeAt _ _ _))
    · have before := ((Side.filter (b := b) s aes (load s.mem (s.ch j).addr len) d.aesRestart).trans
        (.setSinkEarly _ j false)).trans (.setInRun _ j true)
      exact i.trans (i.trans (i.side before) (pushAll_rel i called _ _ _ _))
        (i.side (.setInRun _ _ _))

theorem moveIn_rel (u : Setup) (j far len : Nat) (d : Desc) (aes : Option Nat)
    (resume : Bool) : R s (s.moveIn b dev call u j far len d aes resume).1 := by
  unfold moveIn
  dsimp only
  split
  · exact i.side (.setFifo s _)
  refine i.trans ?_ (i.side ((Side.filter _ _ _ _).trans (.storeAt _ _ _)))
  split
  · exact i.side (.setFifo s _)
  · split
    · exact i.side (.refl s)
    · exact popAll_rel i called s _ _ _

theorem move_rel (u : Setup) (j far len : Nat) (d : Desc) (resume : Bool) :
    R s (s.move b dev call u j far len d resume).1 := by
  unfold move
  dsimp only
  generalize (if (d.aes && !u.devFifo) = true then u.feeds.or (aesForChannel s.aes j) else none) =
    aes
  split
  · exact i.side (.refl s)
  · split
    · exact moveOut_rel i called s u j far len d _
    · exact moveIn_rel i called s u j far len d _ resume

end Move

/-- A relation that holds along the runs of channel `j`. -/
structure Admits (j : Nat) (R : State ω → State ω → Prop) : Prop where
  trans : ∀ {s s' s''}, R s s' → R s' s'' → R s s''
  own : ∀ {s s'}, Own j s s' → R s s'

section Rel

variable {j : Nat} {R : State ω → State ω → Prop} {call : Call → State ω → State ω}

theorem Admits.refl (a : Admits j R) (s : State ω) : R s s := a.own (.refl j s)

theorem Admits.ignores (a : Admits j R) : Ignores R := ⟨a.trans, fun side => a.own (.of_side side)⟩

variable (a : Admits j R) (called : ∀ c s, R s (call c s))

include a called

theorem segment_rel (s : State ω) (u : Setup) (far : Nat) (d : Desc) :
    R s (s.segment b dev call u j far d).1 := by
  unfold State.segment
  dsimp only
  generalize (if (s.ch j).inSeg = true then s.ch j else
    { s.ch j with addr := d.addr, remain := d.len }) = c
  generalize (if u.paced = true then _ else c.remain) = avail
  have first : ∀ c', R s (s.setCh j c') := fun c' => a.own (.setCh s c')
  by_cases nothing : min avail c.remain = 0
  · rw [if_pos nothing]
    simp only [ne_eq, not_true_eq_false, if_false]
    split
    · exact a.trans (first _) (a.own (.setCh _ _))
    · exact a.trans (first _) (a.own (.setCh _ _))
  · rw [if_neg nothing]
    have moved : R s (((s.setCh j { c with inSeg := decide (avail < c.remain) }).note
        (.segment j c.addr (min avail c.remain))).move b dev call u j far (min avail c.remain) d
        (s.ch j).inSeg).1 :=
      a.trans (a.trans (first _) (a.own (.note _ (e := .segment j _ _) rfl)))
        (move_rel a.ignores called _ u j far _ d _)
    split
    · exact moved
    · split
      · exact a.trans moved (a.own (.setCh _ _))
      · exact a.trans moved (a.own (.setCh _ _))

theorem turn_rel (s : State ω) (u : Setup) (far : Nat) :
    R s (s.turn b dev call u j far).1 := by
  unfold turn
  dsimp only
  split
  · exact a.refl s
  · split
    · exact a.refl s
    · split
      · exact a.own (.setCh s _)
      · split
        · exact a.refl s
        · exact segment_rel a called s u far _

theorem walk_rel (u : Setup) (n far : Nat) (s : State ω) :
    R s (walk b dev call u j n far s).1 := by
  induction n generalizing far s with
  | zero => exact a.refl s
  | succ n ih =>
    have once : R s (s.turn b dev call u j far).1 := turn_rel a called s u far
    unfold walk
    dsimp only
    split
    · exact a.trans once (ih _ _)
    · exact once
    · exact once

/-- A relation that contains what a channel changes itself and what a device's calls do contains the
runs of the channel. -/
theorem runWith_rel (s : State ω) : R s (s.runWith b dev call j) := by
  unfold runWith
  generalize maxTurns = n
  exact a.trans (a.trans (a.own (.setCh s _)) (walk_rel a called _ n _ _)) (a.own (.conclude _ _ _))

end Rel

section Nested

variable {skip : Nat} {R : State ω → State ω → Prop}

/-- What holds along each turn of a loop over the channels holds along the loop. -/
theorem foldl_rel {α : Type} {f : State ω → α → State ω} (refl : ∀ s, R s s)
    (trans : ∀ {s s' s''}, R s s' → R s' s'' → R s s'') (l : List α)
    (turn : ∀ s, ∀ i ∈ l, R s (f s i)) (s : State ω) : R s (l.foldl f s) := by
  induction l generalizing s with
  | nil => exact refl s
  | cons i rest ih =>
    rw [foldl_cons]
    exact trans (turn s i mem_cons_self) (ih (fun s j mem => turn s j (mem_cons_of_mem i mem)) _)

/-- The report of a chain whose device has drained its FIFO. -/
def State.drain (b : Board) (s : State ω) (ch : Nat) : State ω :=
  ((s.setSinkPending ch false).setCh ch
    { s.ch ch with ctrl := { (s.ch ch).ctrl with running := false } }).reportDone b ch

/-- The two things a drained FIFO does to a channel: to note that, and to report a chain that
waits. -/
theorem sinkOne_cases (b : Board) (s : State ω) (base size ch : Nat) :
    ∃ t, (t = s ∨ t = s.setSinkEarly ch true) ∧
      s.sinkOne b base size ch = if s.sinkPending ch && !(s.ch ch).inSeg &&
        decide (base ≤ (s.ch ch).fifo ∧ (s.ch ch).fifo < base + size) then t.drain b ch else t := by
  unfold sinkOne
  dsimp only
  split
  · exact ⟨_, .inr rfl, rfl⟩
  · exact ⟨_, .inl rfl, rfl⟩

theorem Own.drain (s : State ω) (j : Nat) : Own j s (s.drain b j) :=
  ((Own.setSinkPending _ false).trans (.setCh _ _)).trans (.reportDone _)

theorem Own.sinkOne (s : State ω) (base size j : Nat) : Own j s (s.sinkOne b base size j) := by
  obtain ⟨t, which, eq⟩ := sinkOne_cases b s base size j
  have early : Own j s t := by
    rcases which with rfl | rfl
    · exact .refl j t
    · exact .of_side (.setSinkEarly s j true)
  rw [eq]
  split
  · exact early.trans (.drain t j)
  · exact early

/-- What the runs of the stalled channels and a drained FIFO keep, a device's calls keep. -/
theorem exec_rel {run : Nat → State ω → State ω} (refl : ∀ s, R s s)
    (trans : ∀ {s s' s''}, R s s' → R s' s'' → R s s'')
    (runs : ∀ j s, (s.ch j).stalled = true → R s (run j s))
    (sinks : ∀ j s base size, R s (s.sinkOne b base size j)) (c : Call) :
    R s (c.exec b run s) := by
  cases c with
  | kick =>
    refine foldl_rel refl trans _ (fun s j _ => ?_) s
    split
    · rename_i stalled
      exact runs j s stalled
    · exact refl s
  | sinkDone base size => exact foldl_rel refl trans _ (fun s j _ => sinks j s base size) s

/-- A relation that does not look at what channel `skip` does when it is resumed: the runs of the
other channels are in it, and with them what a device's calls do. -/
structure Spares (b : Board) (skip : Nat) (R : State ω → State ω → Prop) : Prop where
  admits : ∀ j, j ≠ skip → Admits j R
  refl : ∀ s, R s s
  trans : ∀ {s s' s''}, R s s' → R s' s'' → R s s''
  sink : ∀ s base size, R s (s.sinkOne b base size skip)
  stalled : ∀ s s', (s.ch skip).stalled = true → R s s'

variable (sp : Spares b skip R)

include sp

theorem call_rel {run : Nat → State ω → State ω} (runs : ∀ j s, j ≠ skip → R s (run j s)) (c : Call)
    (s : State ω) : R s (c.exec b run s) := by
  refine exec_rel sp.refl sp.trans (fun j s stalled => ?_) (fun j s base size => ?_) c
  · by_cases mine : j = skip
    · subst mine
      exact sp.stalled s _ stalled
    · exact runs j s mine
  · by_cases mine : j = skip
    · subst mine
      exact sp.sink s base size
    · exact (sp.admits j mine).own (.sinkOne s base size j)

theorem runAt_rel (depth j : Nat) (s : State ω) (other : j ≠ skip) :
    R s (runAt b dev depth j s) := by
  induction depth generalizing j s with
  | zero => exact sp.refl s
  | succ depth ih =>
    exact runWith_rel (sp.admits j other) (call_rel sp fun i s apart => ih i s apart) s

theorem calls_rel (depth : Nat) (c : Call) (s : State ω) : R s (c.exec b (runAt b dev depth) s) :=
  call_rel sp (fun j s other => runAt_rel sp depth j s other) c s

theorem handled_rel (depth : Nat) (h : Handler Call ω) (s : State ω)
    (put : ∀ s w, R s (s.putWorld w)) : R s (s.handle (Call.exec b (runAt b dev depth)) h) :=
  Handler.exec_keep (p := R s) (fun c _ so => sp.trans so (calls_rel sp depth c _))
    (fun _ w so => sp.trans so (put _ w)) h (sp.refl s)

end Nested

end QemuIos.Cdma

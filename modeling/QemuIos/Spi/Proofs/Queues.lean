import QemuIos.Lib.Field
import QemuIos.Lib.Trace
import QemuIos.Spi.Controller

/-!
# The two FIFOs as queues

The log says what went through each FIFO; replayed over a queue it gives the bytes that wait, and
replayed over the bus what the peripheral was sent and answered (`Queued`). Its other entries are
those of the guest's accesses (`readEntries`, `writeEntries`). Every function of the controller
keeps that, except an `RXDATA` read of a word that is not there whole or lies around the ring's end.
-/

namespace QemuIos.Spi

open List QemuIos.Ring

/-- What an event does to the bytes waiting to be sent; `none` if it takes a byte that is not the
next one. -/
def txEvent (q : List UInt8) : Event → Option (List UInt8)
  | .accepted bytes => some (q ++ bytes)
  | .sent b => if q.head? = some b then some q.tail else none
  | .txReset => some []
  | _ => some q

/-- What an event does to the bytes waiting to be read: a read takes the next word, and a byte that
is dropped is reported. -/
def rxEvent (q : List UInt8) : Event → Option (List UInt8)
  | .received b => some (q ++ [b])
  | .overflowed _ status => if status &&& statusRxoverflow ≠ 0 then some q else none
  | .rxReset => some []
  | .read word value =>
    if word ≤ q.length ∧ (leBytes value).take word = q.take word then some (q.drop word) else none
  | _ => some q

/-- What an event does to the bus: the bytes sent, and the answer to the last of them while nothing
was done with it. An answer is received, or dropped, or was not asked for. -/
def wireEvent (p : Peripheral) : List UInt8 × Option UInt8 → Event →
    Option (List UInt8 × Option UInt8)
  | (bus, none), .sent b => some (bus ++ [b], some (p (bus ++ [b])))
  | (bus, none), .sentinel => some (bus ++ [0xff], some (p (bus ++ [0xff])))
  | (bus, some answer), .received b => if b = answer then some (bus, none) else none
  | (bus, some answer), .overflowed b _ => if b = answer then some (bus, none) else none
  | (bus, some answer), .unasked b rxcnt =>
    if b = answer ∧ rxcnt = 0 then some (bus, none) else none
  | _, .sent _ | _, .sentinel | _, .received _ | _, .overflowed _ _ | _, .unasked _ _ => none
  | wire, _ => some wire

/-- An event of an access itself, not of the transfers it starts. -/
def Event.ofGuest : Event → Bool
  | .accepted _ | .txReset | .rxReset | .read _ _ => true
  | _ => false

/-- What the events of a log leave. -/
def replay {σ : Type} (event : σ → Event → Option σ) (start : σ) (log : List Event) : Option σ :=
  log.foldlM event start

theorem replay_concat {σ : Type} (event : σ → Event → Option σ) {start q : σ} {log : List Event}
    (before : replay event start log = some q) (e : Event) :
    replay event start (log ++ [e]) = event q e := by
  unfold replay at before ⊢
  rw [foldlM_append, before]
  simp

/-! ## Registers in memory order -/

theorem leBytes_leWord {bytes : List UInt8} (four : bytes.length = 4) :
    leBytes (leWord bytes) = bytes := by
  match bytes, four with
  | [a, b, c, d], _ =>
    have ha := a.toNat_lt
    have hb := b.toNat_lt
    have hc := c.toNat_lt
    have hd := d.toNat_lt
    have value : (leWord [a, b, c, d]).toNat =
        a.toNat + 256 * (b.toNat + 256 * (c.toNat + 256 * (d.toNat + 256 * 0))) := by
      simp only [leWord, foldr_cons, foldr_nil, UInt32.toNat_ofNat']
      omega
    have byte : ∀ (n : Nat) (x : UInt8), n % 256 = x.toNat → UInt8.ofNat n = x := by
      intro n x same
      apply UInt8.toNat_inj.mp
      rw [UInt8.toNat_ofNat']
      exact same
    simp only [leBytes, value, range, range.loop, map_cons, map_nil]
    rw [byte _ a (by omega), byte _ b (by omega), byte _ c (by omega), byte _ d (by omega)]

@[simp] theorem length_leBytes (v : UInt32) : (leBytes v).length = 4 := by simp [leBytes]

/-- Bytes copied over the front of a register are read there again. -/
theorem take_leBytes_overlay {buf : List UInt8} (short : buf.length ≤ 4) (v : UInt32) :
    (leBytes (leWord (buf ++ (leBytes v).drop buf.length))).take buf.length = buf := by
  rw [leBytes_leWord (by simp; omega), take_left]

namespace Controller

variable {depth : Nat}

variable {s' : Controller depth} {p : Peripheral} {told told' : List Event}
variable {answer answer' : Option UInt8}

/-- What waits in the FIFOs, and what the peripheral was sent and answered, is what the log says;
`told` are the guest's entries, `answer` is still to be dealt with. -/
structure Queued (p : Peripheral) (told : List Event) (answer : Option UInt8)
    (s : Controller depth) : Prop where
  tx : replay txEvent [] s.log = some s.tx.contents
  rx : replay rxEvent [] s.log = some s.rx.contents
  wire : replay (wireEvent p) ([], none) s.log = some (s.bus, answer)
  told : s.log.filter Event.ofGuest = told

variable {s : Controller depth}

section

variable (queued : Queued p told answer s)
include queued

theorem Queued.congr (log : s'.log = s.log) (tx : s'.tx = s.tx) (rx : s'.rx = s.rx)
    (bus : s'.bus = s.bus) : Queued p told answer s' := by
  refine ⟨?_, ?_, ?_, ?_⟩
  · rw [log, tx]
    exact queued.tx
  · rw [log, rx]
    exact queued.rx
  · rw [log, bus]
    exact queued.wire
  · rw [log]
    exact queued.told

theorem Queued.setReg (addr : Nat) (v : UInt32) : Queued p told answer (s.setReg addr v) :=
  queued.congr rfl rfl rfl rfl

theorem Queued.updateXferTx : Queued p told answer s.appleSpiUpdateXferTx := by
  unfold appleSpiUpdateXferTx
  split
  · exact queued.setReg _ _
  · exact queued

theorem Queued.updateXferRx : Queued p told answer s.appleSpiUpdateXferRx := by
  unfold appleSpiUpdateXferRx
  split
  · exact queued.setReg _ _
  · exact queued

theorem Queued.updateIrq : Queued p told answer s.appleSpiUpdateIrq :=
  queued.congr rfl rfl rfl rfl

theorem Queued.countSent : Queued p told answer s.countSent := by
  unfold Controller.countSent
  split
  · exact queued.setReg _ _
  · exact queued

theorem Queued.note (e : Event) (log : s'.log = s.log ++ [e])
    (tx : txEvent s.tx.contents e = some s'.tx.contents)
    (rx : rxEvent s.rx.contents e = some s'.rx.contents)
    (wire : wireEvent p (s.bus, answer) e = some (s'.bus, answer'))
    (tells : told' = told ++ [e].filter Event.ofGuest) : Queued p told' answer' s' := by
  refine ⟨?_, ?_, ?_, ?_⟩
  · rw [log, replay_concat _ queued.tx, tx]
  · rw [log, replay_concat _ queued.rx, rx]
  · rw [log, replay_concat _ queued.wire, wire]
  · rw [log, filter_append, queued.told, tells]

end

/-! ## Receiving -/

section

variable {b : UInt8} (queued : Queued p told (some b) s)
include queued

theorem Queued.rxPush (room : s.rx.num < fifoRxDepth) :
    ∃ s', s.rxPush b = some s' ∧ Queued p told none s' := by
  obtain ⟨rx, pushed, contents⟩ := push_eq room b
  have taken : Queued p told none ({ s with rx }.note (.received b)) :=
    queued.note (.received b) rfl rfl (congrArg some contents.symm) (if_pos rfl)
      (append_nil told).symm
  unfold Controller.rxPush
  rw [pushed]
  exact ⟨_, rfl, (taken.setReg rRxcnt _).updateXferRx⟩

theorem Queued.receive : ∃ s', s.receive b = some s' ∧ Queued p told none s' := by
  unfold Controller.receive
  by_cases enough : s.reg rRxcnt = 0
  · rw [if_pos enough]
    exact ⟨_, rfl, queued.note (.unasked b (s.reg rRxcnt)) rfl rfl rfl (if_pos ⟨rfl, enough⟩)
      (append_nil told).symm⟩
  rw [if_neg enough]
  by_cases full : s.rx.num = fifoRxDepth
  · rw [if_pos full]
    refine ⟨_, rfl, queued.note (.overflowed b (s.reg rStatus ||| statusRxoverflow)) rfl rfl ?_
      (if_pos rfl) (append_nil told).symm⟩
    have reported : (s.reg rStatus ||| statusRxoverflow) &&& statusRxoverflow ≠ 0 := by
      rw [Field.and_set]
      decide
    exact if_pos reported
  · rw [if_neg full]
    exact queued.rxPush (lt_of_le_of_ne s.rx.bound full)

end

/-! ## The run -/

section

variable (queued : Queued p told none s)
include queued

theorem Queued.sendOne (waiting : s.tx.num ≠ 0) :
    ∃ s', s.sendOne p = some s' ∧ Queued p told none s' := by
  obtain ⟨b, tx, popped, contents⟩ := pop_eq (Nat.pos_of_ne_zero waiting)
  have onBus : Queued p told (some (p (s.bus ++ [b])))
      (ssiTransfer p ({ s with tx }.note (.sent b)) b).2 := by
    refine queued.note (.sent b) rfl ?_ rfl rfl (append_nil told).symm
    rw [contents]
    exact if_pos rfl
  unfold Controller.sendOne
  rw [popped]
  exact onBus.countSent.updateXferTx.receive

theorem Queued.sendLoop (drainTx : Bool) (fuel : Nat) :
    ∃ s', sendLoop p drainTx fuel s = some s' ∧ Queued p told none s' := by
  induction fuel generalizing s with
  | zero => exact ⟨s, rfl, queued⟩
  | succ fuel ih =>
    unfold sendLoop
    by_cases more : (s.reg rTxcnt ≠ 0 ∨ drainTx) ∧ s.tx.num ≠ 0
    · obtain ⟨s₁, sent, kept⟩ := queued.sendOne more.2
      rw [if_pos more, sent]
      exact ih kept
    · exact ⟨s, if_neg more, queued⟩

theorem Queued.fetchLoop (fuel : Nat) :
    ∃ s', fetchLoop p fuel s = some s' ∧ Queued p told none s' := by
  induction fuel generalizing s with
  | zero => exact ⟨s, rfl, queued⟩
  | succ fuel ih =>
    unfold fetchLoop
    by_cases more : s.rx.num ≠ fifoRxDepth ∧ s.reg rRxcnt ≠ 0 ∧ s.reg rCfg &&& cfgAgd ≠ 0
    · have onBus : Queued p told (some (p (s.bus ++ [0xff])))
          (ssiTransfer p (s.note .sentinel) 0xff).2 :=
        queued.note .sentinel rfl rfl rfl rfl (append_nil told).symm
      obtain ⟨s₁, pushed, kept⟩ := onBus.rxPush (lt_of_le_of_ne s.rx.bound more.1)
      have fetched : s.fetchOne p = some s₁ := pushed
      rw [if_pos more, fetched]
      exact ih kept
    · exact ⟨s, if_neg more, queued⟩

theorem Queued.run : ∃ s', s.appleSpiRun p = some s' ∧ Queued p told none s' := by
  unfold appleSpiRun
  dsimp only
  split
  · exact ⟨s, rfl, queued⟩
  split
  · exact ⟨s, rfl, queued⟩
  obtain ⟨s₁, sent, queued₁⟩ := queued.updateXferTx.sendLoop (s.s5l8900 && s.tx.num ≠ 0)
    s.appleSpiUpdateXferTx.tx.num
  obtain ⟨s₂, fetched, queued₂⟩ := queued₁.fetchLoop (fifoRxDepth - s₁.rx.num)
  simp only [bind, Option.bind]
  rw [sent]
  dsimp only
  rw [fetched]
  refine ⟨_, rfl, ?_⟩
  split
  · exact queued₂.setReg _ _
  · exact queued₂

/-! ## Accesses -/

theorem Queued.runIf (run : Bool) :
    ∃ s', s.runIf p run = some s' ∧ Queued p told none s' := by
  unfold Controller.runIf
  split
  · exact queued.run
  · exact ⟨s, rfl, queued⟩

/-- The entries of the FIFO resets a `CTRL` write asks for. -/
def resetEntries (r : UInt32) : List Event :=
  (if r &&& ctrlTxReset ≠ 0 then [.txReset] else []) ++
    if r &&& ctrlRxReset ≠ 0 then [.rxReset] else []

theorem Queued.resetFifos (r : UInt32) :
    Queued p (told ++ resetEntries r) none (s.resetFifos r) := by
  have tx : Queued p (told ++ if r &&& ctrlTxReset ≠ 0 then [.txReset] else []) none
      (if r &&& ctrlTxReset ≠ 0 then { s with tx := s.tx.reset }.note .txReset else s) := by
    split
    · exact queued.note .txReset rfl rfl rfl rfl rfl
    · rwa [append_nil]
  unfold Controller.resetFifos resetEntries
  dsimp only
  rw [← append_assoc]
  generalize (if r &&& ctrlTxReset ≠ 0 then { s with tx := s.tx.reset }.note .txReset else s) = s₁
    at tx
  generalize (told ++ if r &&& ctrlTxReset ≠ 0 then [Event.txReset] else []) = told₁ at tx
  split
  · exact tx.note .rxReset rfl rfl rfl rfl rfl
  · rwa [append_nil]

omit queued in
theorem appleSpiWordSize_bounds (s : Controller depth) :
    0 < s.appleSpiWordSize ∧ s.appleSpiWordSize ≤ 4 := by
  unfold appleSpiWordSize
  dsimp only
  repeat' split
  all_goals decide

/-- The entry of a word written to `TXDATA`, when the FIFO has room for it. -/
def txdataEntries (s : Controller depth) (r : UInt32) : List Event :=
  if s.tx.num + s.appleSpiWordSize ≤ depth then
    [.accepted ((leBytes r).take s.appleSpiWordSize)] else []

theorem Queued.pushTxdata (r : UInt32) :
    ∃ s', s.pushTxdata r = some s' ∧ Queued p (told ++ s.txdataEntries r) none s' := by
  have bound := s.tx.bound
  have small := s.appleSpiWordSize_bounds
  unfold Controller.pushTxdata txdataEntries
  dsimp only
  by_cases full : s.tx.num = depth ∨ depth - s.tx.num < s.appleSpiWordSize
  · rw [if_pos full, if_neg (by omega), append_nil]
    exact ⟨s, rfl, queued⟩
  have length : ((leBytes r).take s.appleSpiWordSize).length = s.appleSpiWordSize := by
    simp
    omega
  have fits : s.tx.num + ((leBytes r).take s.appleSpiWordSize).length ≤ depth := by omega
  obtain ⟨tx, pushed, contents⟩ := pushAll_eq fits
  rw [if_neg full, if_pos (length ▸ fits)]
  simp only [bind, Option.bind, pushed]
  exact ⟨_, rfl, queued.note (.accepted _) rfl (congrArg some contents.symm) rfl rfl rfl⟩

/-- The entries a write makes: the resets it asks for, the word it writes. -/
def writeEntries (s : Controller depth) (addr : Nat) (data : UInt32) : List Event :=
  if addr = rCtrl then resetEntries data
  else if rTxdata ≤ addr ∧ addr ≤ rTxdata + 3 then s.txdataEntries data
  else []

theorem Queued.prepare (addr : Nat) (r : UInt32) :
    ∃ s' v run, s.prepare addr r = some (s', v, run) ∧
      Queued p (told ++ s.writeEntries addr r) none s' := by
  unfold Controller.prepare writeEntries
  split
  · exact ⟨_, _, _, rfl, queued.resetFifos r⟩
  by_cases isStatus : addr = rStatus
  · subst isStatus
    rw [if_pos rfl, if_neg (by decide), append_nil]
    exact ⟨_, _, _, rfl, queued⟩
  rw [if_neg isStatus]
  split
  · obtain ⟨s', pushed, kept⟩ := queued.pushTxdata r
    simp only [bind, Option.bind, pushed]
    exact ⟨s', _, _, rfl, kept⟩
  rw [append_nil]
  split
  · exact ⟨_, _, _, rfl, queued⟩
  · exact ⟨_, _, _, rfl, queued⟩

theorem Queued.write (addr : Nat) (data : UInt32) :
    ∃ s', s.ipodTouchSpiWrite p addr data = some s' ∧
      Queued p (told ++ s.writeEntries addr data) none s' := by
  obtain ⟨s₁, v, run, prepared, queued₁⟩ := queued.prepare addr data
  obtain ⟨s₂, ran, queued₂⟩ := (queued₁.setReg addr v).runIf run
  unfold ipodTouchSpiWrite
  simp only [bind, Option.bind, prepared, ran]
  refine ⟨_, rfl, ?_⟩
  split
  · exact queued₂.updateXferTx.updateXferRx.updateIrq
  · exact queued₂.updateIrq

end

/-! ## The end of a run

The fuel of the loops is enough: each turn takes a byte from the TX FIFO, or puts one into the RX
FIFO. -/

theorem rxPush_fields {b : UInt8} (pushed : s.rxPush b = some s') :
    s'.tx = s.tx ∧ s'.reg rTxcnt = s.reg rTxcnt ∧ s'.rx.num = s.rx.num + 1 := by
  unfold rxPush at pushed
  obtain ⟨rx, found, rest⟩ := Option.bind_eq_some_iff.mp pushed
  have filled : rx.num = s.rx.num + 1 := by
    unfold push at found
    split at found
    · cases found
      rfl
    · cases found
  cases rest
  unfold appleSpiUpdateXferRx
  split <;> exact ⟨rfl, rfl, filled⟩

theorem receive_tx {b : UInt8} (received : s.receive b = some s') : s'.tx = s.tx := by
  unfold receive at received
  split at received
  · cases received
    rfl
  split at received
  · cases received
    rfl
  · exact (rxPush_fields received).1

theorem sendOne_num (sent : s.sendOne p = some s') : s'.tx.num = s.tx.num - 1 := by
  unfold sendOne at sent
  obtain ⟨⟨b, tx⟩, popped, rest⟩ := Option.bind_eq_some_iff.mp sent
  have less : tx.num = s.tx.num - 1 := by
    unfold pop at popped
    split at popped
    · cases popped
      rfl
    · cases popped
  have kept : ∀ t : Controller depth, t.countSent.appleSpiUpdateXferTx.tx = t.tx := by
    intro t
    unfold countSent appleSpiUpdateXferTx
    repeat' split
    all_goals rfl
  rw [receive_tx rest, kept]
  exact less

theorem sendLoop_done {drainTx : Bool} {fuel : Nat} (enough : s.tx.num ≤ fuel)
    (looped : sendLoop p drainTx fuel s = some s') :
    ¬((s'.reg rTxcnt ≠ 0 ∨ drainTx) ∧ s'.tx.num ≠ 0) := by
  induction fuel generalizing s with
  | zero =>
    cases looped
    exact fun more => more.2 (by omega)
  | succ fuel ih =>
    unfold sendLoop at looped
    split at looped
    · next more =>
      obtain ⟨s₁, sent, rest⟩ := Option.bind_eq_some_iff.mp looped
      have less := sendOne_num sent
      exact ih (by omega) rest
    · next done =>
      cases looped
      exact done

theorem fetchLoop_done {fuel : Nat} (enough : fifoRxDepth - s.rx.num ≤ fuel)
    (looped : fetchLoop p fuel s = some s') :
    (s'.tx = s.tx ∧ s'.reg rTxcnt = s.reg rTxcnt) ∧
      ¬(s'.rx.num ≠ fifoRxDepth ∧ s'.reg rRxcnt ≠ 0 ∧ s'.reg rCfg &&& cfgAgd ≠ 0) := by
  induction fuel generalizing s with
  | zero =>
    cases looped
    have bound := s'.rx.bound
    exact ⟨⟨rfl, rfl⟩, fun more => more.1 (by omega)⟩
  | succ fuel ih =>
    unfold fetchLoop at looped
    split at looped
    · obtain ⟨s₁, fetched, rest⟩ := Option.bind_eq_some_iff.mp looped
      obtain ⟨tx, count, num⟩ := rxPush_fields fetched
      have more : s₁.rx.num = s.rx.num + 1 := num
      obtain ⟨same, done⟩ := ih (by omega) rest
      exact ⟨⟨same.1.trans tx, same.2.trans count⟩, done⟩
    · next done =>
      cases looped
      exact ⟨⟨rfl, rfl⟩, done⟩

/-- Nothing more can be sent, and nothing more fetched. -/
def AtRest (s : Controller depth) : Prop :=
  (s.reg rTxcnt = 0 ∨ s.tx.num = 0) ∧
    (s.rx.num = fifoRxDepth ∨ s.reg rRxcnt = 0 ∨ s.reg rCfg &&& cfgAgd = 0)

theorem appleSpiRun_atRest (running : s.reg rCtrl &&& ctrlRun ≠ 0)
    (ran : s.appleSpiRun p = some s') : s'.AtRest := by
  unfold appleSpiRun at ran
  dsimp only at ran
  rw [if_neg running] at ran
  split at ran
  · next idle =>
    cases ran
    exact ⟨.inl idle.2.1, .inr (.inl idle.1)⟩
  obtain ⟨s₁, sent, rest⟩ := Option.bind_eq_some_iff.mp ran
  obtain ⟨s₂, fetched, ended⟩ := Option.bind_eq_some_iff.mp rest
  have done := sendLoop_done le_rfl sent
  obtain ⟨⟨tx, count⟩, full⟩ := fetchLoop_done le_rfl fetched
  rw [← tx, ← count] at done
  have final : s₂.AtRest := by
    unfold AtRest
    tauto
  cases ended
  split
  · exact final
  · exact final

/-- The bytes an `RXDATA` read asks for are there and lie in one piece, or there are none. -/
def WordReady (s : Controller depth) : Prop :=
  s.rx.num = 0 ∨
    (s.appleSpiWordSize ≤ s.rx.num ∧ s.rx.head + s.appleSpiWordSize ≤ fifoRxDepth)

/-- What an `RXDATA` read takes, when it finds a word. -/
theorem popBufptr_word (s : Controller depth) (waiting : s.appleSpiWordSize ≤ s.rx.num) :
    ∃ rx, s.rx.popBufptr s.appleSpiWordSize =
        some (s.rx.contents.take (min (fifoRxDepth - s.rx.head) s.appleSpiWordSize), rx) ∧
      rx.contents = s.rx.contents.drop (min (fifoRxDepth - s.rx.head) s.appleSpiWordSize) :=
  popBufptr_eq s.appleSpiWordSize_bounds.1 waiting

/-- The entry of an `RXDATA` read that finds bytes: the value the guest gets. -/
def readEntries (s : Controller depth) (addr : Nat) (value : UInt32) : List Event :=
  if addr = rRxdata ∧ s.rx.num ≠ 0 then [.read s.appleSpiWordSize value] else []

theorem Queued.readRxdata (queued : Queued p told none s) (ready : s.WordReady) :
    ∃ v s', s.readRxdata p = some (v, s') ∧
      Queued p (told ++ s.readEntries rRxdata v) none s' := by
  unfold Controller.readRxdata
  by_cases empty : s.rx.num = 0
  · obtain ⟨s', ran, kept⟩ := queued.run
    rw [if_pos empty, ran]
    refine ⟨0, s', rfl, ?_⟩
    rwa [readEntries, if_neg fun found => found.2 empty, append_nil]
  obtain ⟨waiting, inPiece⟩ := ready.resolve_left empty
  obtain ⟨rx, popped, rest⟩ := s.popBufptr_word waiting
  rw [Nat.min_eq_right (by omega)] at popped rest
  have length : (s.rx.contents.take s.appleSpiWordSize).length = s.appleSpiWordSize := by
    rw [length_take, length_contents, Nat.min_eq_left waiting]
  have overlay := take_leBytes_overlay (length.trans_le s.appleSpiWordSize_bounds.2)
    (s.reg rRxdata)
  generalize isValue : leWord (s.rx.contents.take s.appleSpiWordSize ++
    (leBytes (s.reg rRxdata)).drop (s.rx.contents.take s.appleSpiWordSize).length) = v at overlay
  rw [length] at overlay
  have taken : Queued p (told ++ s.readEntries rRxdata v) none
      ({ s with rx }.note (.read s.appleSpiWordSize v)) := by
    rw [readEntries, if_pos ⟨rfl, empty⟩]
    refine queued.note (.read s.appleSpiWordSize v) rfl rfl ?_ rfl rfl
    dsimp only [rxEvent]
    rw [if_pos ⟨by rwa [length_contents], overlay⟩, ← rest]
    rfl
  obtain ⟨s', ran, kept⟩ := taken.runIf (rx.num = 0)
  rw [if_neg empty, popped]
  simp only [bind, Option.bind]
  rw [isValue]
  have refilled : ({ s with rx }.note (.read s.appleSpiWordSize v)).runIf p
      (({ s with rx }.note (.read s.appleSpiWordSize v)).rx.num = 0) = some s' := ran
  rw [refilled]
  exact ⟨v, s', rfl, kept⟩

/-- A word that is not there aborts; one around the ring's end is taken in part, so that the read
and the FIFO disagree. -/
theorem Queued.wordReady (queued : Queued p told none s) {v : UInt32}
    (done : s.readRxdata p = some (v, s')) (kept : Queued p told' none s') : s.WordReady := by
  unfold Controller.readRxdata at done
  by_cases empty : s.rx.num = 0
  · exact .inl empty
  rw [if_neg empty] at done
  by_cases waiting : s.appleSpiWordSize ≤ s.rx.num
  · refine .inr ⟨waiting, ?_⟩
    by_contra around
    obtain ⟨rx, popped, rest⟩ := s.popBufptr_word waiting
    have bound := s.rx.bound
    have front := s.rx.front (by decide)
    have part : min (fifoRxDepth - s.rx.head) s.appleSpiWordSize = fifoRxDepth - s.rx.head := by
      omega
    have left : rx.num = s.rx.num - (fifoRxDepth - s.rx.head) := by
      rw [← length_contents, rest, length_drop, length_contents, part]
    rw [popped] at done
    simp only [bind, Option.bind] at done
    generalize leWord _ = value at done
    have stays : ({ s with rx }.note (.read s.appleSpiWordSize value)).runIf p
        (({ s with rx }.note (.read s.appleSpiWordSize value)).rx.num = 0) =
        some ({ s with rx }.note (.read s.appleSpiWordSize value)) := by
      have more : ¬ rx.num = 0 := by omega
      exact if_neg (fun drained => more (of_decide_eq_true drained))
    rw [stays] at done
    obtain ⟨-, rfl⟩ := Prod.mk.inj (Option.some.inj done)
    have replayed := kept.rx
    change replay rxEvent [] (s.log ++ [.read s.appleSpiWordSize value]) =
      some rx.contents at replayed
    rw [replay_concat _ queued.rx] at replayed
    dsimp only [rxEvent] at replayed
    split at replayed
    · have same := congrArg length (Option.some.inj replayed)
      rw [length_drop, length_contents, length_contents, left] at same
      omega
    · cases replayed
  · have refused : s.rx.popBufptr s.appleSpiWordSize = none :=
      if_neg fun both => waiting both.2
    rw [refused] at done
    cases done

/-- The condition on an access, in the state it finds. -/
def Fits (s : Controller depth) : Access → Prop
  | .read addr => addr = rRxdata → s.WordReady
  | .write _ _ => True

theorem Queued.read (queued : Queued p told none s) {addr : Nat} (fits : s.Fits (.read addr)) :
    ∃ v s', s.ipodTouchSpiRead p addr = some (v, s') ∧
      Queued p (told ++ s.readEntries addr v) none s' := by
  obtain ⟨v, s', found, kept⟩ : ∃ v s', s.readReg p addr = some (v, s') ∧
      Queued p (told ++ s.readEntries addr v) none s' := by
    unfold readReg
    by_cases isData : addr = rRxdata
    · rw [if_pos isData, isData]
      exact queued.readRxdata (fits isData)
    have same : ∀ v, Queued p (told ++ s.readEntries addr v) none s := by
      intro v
      rwa [readEntries, if_neg fun found => isData found.1, append_nil]
    rw [if_neg isData]
    split
    · exact ⟨_, s, rfl, same _⟩
    · exact ⟨_, s, rfl, same _⟩
  unfold ipodTouchSpiRead
  rw [found]
  exact ⟨v, _, rfl, kept.updateIrq⟩

theorem Queued.fits_read (queued : Queued p told none s) {addr : Nat} {v : UInt32}
    (done : s.ipodTouchSpiRead p addr = some (v, s')) (kept : Queued p told' none s') :
    s.Fits (.read addr) := by
  intro isData
  subst isData
  have found : s.readReg p rRxdata = s.readRxdata p := if_pos rfl
  unfold ipodTouchSpiRead at done
  rw [found] at done
  obtain ⟨⟨r, s₁⟩, read, rest⟩ := Option.bind_eq_some_iff.mp done
  obtain ⟨-, rfl⟩ := Prod.mk.inj (Option.some.inj rest)
  exact queued.wordReady read (kept.congr rfl rfl rfl rfl)

theorem queued_create (p : Peripheral) (s5l8900 : Bool) :
    Queued p [] none (create s5l8900 : Controller depth) := ⟨rfl, rfl, rfl, rfl⟩

end Controller

open Controller

/-- The emulator runs, and what waits in the FIFOs is what the log says. -/
def Sound {depth : Nat} (p : Peripheral) (o : Option (Controller depth)) : Prop :=
  ∃ s told, o = some s ∧ Queued p told none s

/-- An access goes through: the log gets the entries of what the guest wrote or was returned, and
what waits in the FIFOs and went over the bus is what it says. -/
def Served {depth : Nat} (p : Peripheral) : Option (Controller depth) → Access → Prop
  | none, _ => False
  | some s, .read addr => ∃ v s', s.ipodTouchSpiRead p addr = some (v, s') ∧
      Queued p (s.log.filter Event.ofGuest ++ s.readEntries addr v) none s'
  | some s, .write addr data => ∃ s', s.ipodTouchSpiWrite p addr data = some s' ∧
      Queued p (s.log.filter Event.ofGuest ++ s.writeEntries addr data) none s'

/-- The condition on an access, in the state it finds. -/
def Fitting {depth : Nat} : Option (Controller depth) → Access → Prop
  | some s, a => s.Fits a
  | none, _ => True

theorem served_iff {depth : Nat} (p : Peripheral) (o : Option (Controller depth)) (a : Access)
    (sound : Sound p o) : Served p o a ↔ Fitting o a := by
  obtain ⟨s, told, rfl, queued⟩ := sound
  cases a with
  | read addr =>
    constructor
    · rintro ⟨v, s', read, kept⟩
      exact queued.fits_read read kept
    · intro fits
      rw [Served, queued.told]
      exact queued.read fits
  | write addr data =>
    refine iff_of_true ?_ trivial
    rw [Served, queued.told]
    exact queued.write addr data

theorem sound_step {depth : Nat} (p : Peripheral) (o : Option (Controller depth)) (a : Access)
    (sound : Sound p o) (fits : Fitting o a) : Sound p (step p o a) := by
  have served := (served_iff p o a sound).mpr fits
  obtain ⟨s, told, rfl, -⟩ := sound
  cases a with
  | read addr =>
    obtain ⟨v, s', read, kept⟩ := served
    exact ⟨s', _, by simp [step, read], kept⟩
  | write addr data =>
    obtain ⟨s', written, kept⟩ := served
    exact ⟨s', _, written, kept⟩

/-- After any history, a controller that runs moves all it can before it returns. -/
theorem runs_to_rest {depth : Nat} (s5l8900 : Bool) (p : Peripheral) {accesses : List Access}
    (fits : Trace.Along (step p) Fitting (some (create s5l8900 : Controller depth)) accesses) :
    ∃ s s', accesses.foldl (step p) (some (create s5l8900 : Controller depth)) = some s ∧
      s.appleSpiRun p = some s' ∧ (s.reg rCtrl &&& ctrlRun ≠ 0 → s'.AtRest) := by
  obtain ⟨s, told, reached, queued⟩ :=
    fits.keep (sound_step p) ⟨_, _, rfl, queued_create p s5l8900⟩
  obtain ⟨s', ran, -⟩ := queued.run
  exact ⟨s, s', reached, ran, fun running => appleSpiRun_atRest running ran⟩

/-- A peripheral that counts the bytes it was sent. -/
def counting : Peripheral := fun sent => UInt8.ofNat sent.length

/-- Twenty bytes are asked for and the FIFO holds sixteen. -/
theorem full_fifo_at_rest :
    let accesses := [.write rRxcnt 20, .write rCfg 1, .write rCtrl 1]
    ∃ s s', accesses.foldl (step counting) (some (create false : Controller 8)) = some s ∧
      s.appleSpiRun counting = some s' ∧ (s.reg rCtrl &&& ctrlRun ≠ 0 → s'.AtRest) :=
  runs_to_rest false counting ⟨trivial, trivial, trivial, trivial⟩

/-- One byte is received and the word size set to four: the read aborts. -/
def shortWord : List Access :=
  [.write rRxcnt 1, .write rCfg 0x10001, .write rCtrl 1, .read rRxdata]

/-- Fourteen bytes are read one by one, then a word of four from the end of the ring on. -/
def splitWord : List Access :=
  [.write rRxcnt 20, .write rCfg 0x1, .write rCtrl 1] ++ List.replicate 14 (.read rRxdata) ++
    [.write rCfg 0x10001, .read rRxdata]

end QemuIos.Spi

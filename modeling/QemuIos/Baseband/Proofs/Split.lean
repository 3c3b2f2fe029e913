import QemuIos.Baseband.Proofs.Resync
import QemuIos.Baseband.Proofs.Writes

/-!
# Input as a stream

Whether it matters how the host cuts what it sends. The end of a call of `ios_bb_input` sends an
acknowledgement that is owed, so two links that differ by one are followed through the same input
(`Link.Like`); what else a cut can change is the mode, which is read once a call.
-/

namespace QemuIos.Baseband
open CText List Slip H5Buf Baseband.Core Link

/-- A packet that carries an acknowledgement and nothing else. -/
def Wire.isAck : Wire → Bool
  | .packet pkt => pkt.getD 1 0 &&& 0x0f = 0
  | .raw _ => false

namespace Link

/-- The output but for pure acknowledgements. -/
def visible (l : Link) : List Wire := l.out.filter fun wire => !wire.isAck

/-- A link and one that may have sent the acknowledgement the first still owes. -/
structure Like (now : Int) (l l' : Link) : Prop where
  active : l'.active = l.active
  crc : l'.crc = l.crc
  txSeq : l'.txSeq = l.txSeq
  rxNext : l'.rxNext = l.rxNext
  unacked : l'.unacked = l.unacked
  txq : l'.txq = l.txq
  queued : l'.queued = l.queued
  visible : l'.visible = l.visible
  owed : (l'.needAck = l.needAck ∧ l'.lastTxMs = l.lastTxMs) ∨
    (l.active = true ∧ l.needAck = true ∧ l'.lastTxMs = now) ∨
    (l.active = false ∧ l'.lastTxMs = l.lastTxMs)

variable {now : Int} {l l' : Link}

section

variable (like : Like now l l')
include like

theorem Like.emit (wire : Wire) : Like now (l.emit wire) (l'.emit wire) := by
  refine { like with visible := ?_ }
  have before := like.visible
  unfold Link.visible at before ⊢
  simp only [Link.emit, filter_append, before]

theorem Like.h5SendPkt (type : Fin 16) (reliable : Bool) (seq : Fin 8) (data : Bytes) :
    Like now (l.h5SendPkt now type reliable seq data)
      (l'.h5SendPkt now type reliable seq data) := by
  unfold Link.h5SendPkt h5SendWire
  rw [like.crc, like.rxNext]
  split
  · exact like
  · exact { like.emit _ with owed := .inl ⟨rfl, rfl⟩ }

theorem Like.h5Queue (data : Bytes) :
    Like now (l.h5Queue data) (l'.h5Queue data) := by
  unfold Link.h5Queue
  dsimp only
  rw [like.txq]
  split
  · exact like
  · rw [like.queued]
    exact { like with txq := rfl, queued := rfl }

theorem Like.h5SendOneUnacked (data : Bytes) :
    Like now (l.h5SendOneUnacked now data) (l'.h5SendOneUnacked now data) := by
  have added : Like now { l with unacked := l.unacked ++ [⟨l.txSeq, data⟩] }
      { l' with unacked := l'.unacked ++ [⟨l'.txSeq, data⟩] } :=
    { like with unacked := by rw [like.unacked, like.txSeq] }
  have sent := added.h5SendPkt h5TypeData true l.txSeq data
  unfold Link.h5SendOneUnacked
  dsimp only
  rw [like.txSeq] at sent ⊢
  exact { sent with txSeq := rfl }

theorem Like.h5PumpFrom (left : Nat) :
    Like now (h5PumpFrom now left l) (h5PumpFrom now left l') := by
  induction left generalizing l l' with
  | zero => exact like
  | succ left ih =>
    unfold h5PumpFrom
    rw [like.txq]
    split
    · next lo hi rest _ =>
      have cut : Like now { l with txq := rest.drop (lo.toNat + 256 * hi.toNat) }
          { l' with txq := rest.drop (lo.toNat + 256 * hi.toNat) } :=
        { like with txq := rfl }
      dsimp only
      split
      · exact like
      · exact ih (cut.h5SendOneUnacked _)
    · exact like

theorem Like.h5Pump : Like now (l.h5Pump now) (l'.h5Pump now) := by
  unfold Link.h5Pump
  rw [like.active, like.unacked]
  split
  · exact like.h5PumpFrom _
  · exact like

theorem Like.h5Acked (ack : Fin 8) :
    Like now (l.h5Acked now ack) (l'.h5Acked now ack) := by
  unfold Link.h5Acked
  rw [like.unacked]
  split
  · exact like
  dsimp only
  split
  · exact Like.h5Pump { like with unacked := rfl }
  · exact like

/-- Whatever a configuration says of the check sequence, its answer pays what is owed. -/
theorem Like.h5LinkControl (p : H5Buf) :
    Like now (l.h5LinkControl now p) (l'.h5LinkControl now p) := by
  unfold Link.h5LinkControl
  split
  · exact like.h5SendPkt h5TypeLink false 0 _
  split
  · let given := 3 ≤ payloadLen p
    let crc := given && p.data 6 &&& 0x10 ≠ 0
    have agreed : Like now { l with crc } { l' with crc } := { like with crc := rfl }
    have answered := agreed.h5SendPkt h5TypeLink false 0
      [0x04, 0x7b, if given then p.data 6 else 7]
    exact Like.h5Pump { answered with active := rfl, owed := .inl ⟨rfl, rfl⟩ }
  · exact like

theorem Like.h5RxPkt (p : H5Buf) :
    Like now (l.h5RxPkt now p).1 (l'.h5RxPkt now p).1 ∧
      (l'.h5RxPkt now p).2 = (l.h5RxPkt now p).2 := by
  have acked := like.h5Acked (ack p)
  unfold Link.h5RxPkt
  by_cases ok : ok p
  · rw [if_pos ok, if_pos ok]
    dsimp only
    generalize l.h5Acked now (ack p) = a at acked ⊢
    generalize l'.h5Acked now (ack p) = a' at acked ⊢
    by_cases control : type p = h5TypeLink
    · rw [if_pos control, if_pos control]
      exact ⟨acked.h5LinkControl p, rfl⟩
    rw [if_neg control, if_neg control]
    have inactive_iff : (!a'.active) = true ↔ (!a.active) = true := by rw [acked.active]
    by_cases inactive : (!a.active) = true
    · rw [if_pos inactive, if_pos (inactive_iff.mpr inactive)]
      exact ⟨acked, rfl⟩
    rw [if_neg inactive, if_neg (mt inactive_iff.mp inactive)]
    by_cases other : (type p ≠ h5TypeData || !reliable p) = true
    · rw [if_pos other, if_pos other]
      exact ⟨acked, rfl⟩
    rw [if_neg other, if_neg other]
    by_cases next : seq p = a.rxNext
    · rw [if_pos next, if_pos (next.trans acked.rxNext.symm)]
      exact ⟨{ acked with rxNext := congrArg (· + 1) acked.rxNext }, rfl⟩
    rw [if_neg next, if_neg (fun same => next (same.trans acked.rxNext))]
    refine ⟨{ acked with owed := ?_ }, rfl⟩
    rcases acked.owed with ⟨-, time⟩ | ⟨active, -, time⟩ | ⟨-, time⟩
    · exact .inl ⟨rfl, time⟩
    · exact .inr (.inl ⟨active, rfl, time⟩)
    · exact .inl ⟨rfl, time⟩
  · rw [if_neg ok, if_neg ok]
    exact ⟨like, rfl⟩

theorem Like.stream (op : Op) : Like now (l.stream now op) (l'.stream now op) := by
  unfold Link.stream
  rw [like.active]
  split
  · exact like
  split
  · exact like.emit _
  split
  · exact like.h5Queue _
  · exact (like.h5Queue _).h5Pump

theorem Like.streams (ops : List Op) :
    Like now (ops.foldl (Link.stream now) l) (ops.foldl (Link.stream now) l') := by
  induction ops generalizing l l' with
  | nil => exact like
  | cons op ops ih => exact ih (like.stream op)
end

/-! ## The acknowledgement at the end of a call -/

/-- `ios_bb_input` sends what is still owed. -/
def settled (now : Int) (l : Link) : Link := if l.needAck then l.h5SendAck now else l

theorem isAck_h5Packet (reliable crc : Bool) (seq ack : Fin 8) :
    (Wire.packet (h5Packet h5TypeAck reliable crc seq ack [])).isAck = true := by
  have second : (h5Packet h5TypeAck reliable crc seq ack []).getD 1 0 = 0 := by
    cases crc
    · rfl
    · rfl
  show decide (getD _ 1 0 &&& 0x0f = 0) = true
  rw [second]
  decide

theorem settled_eq (now : Int) (l : Link) :
    l.settled now = { l with
      needAck := false
      lastTxMs := if l.needAck && l.active then now else l.lastTxMs
      out := (l.settled now).out } := by
  cases owes : l.needAck with
  | false =>
    have same : l.settled now = l := if_neg (by simp [owes])
    rw [same]
    cases l
    subst owes
    rfl
  | true =>
    unfold settled h5SendAck
    cases active : l.active
    · simp [active, owes]
    · simp [active, owes, h5SendPkt, h5SendWire, emit]

theorem visible_settled (now : Int) (l : Link) : (l.settled now).visible = l.visible := by
  unfold settled h5SendAck
  split
  · dsimp only
    split
    · simp [visible, h5SendPkt, h5SendWire, emit, isAck_h5Packet]
    · rfl
  · rfl

theorem like_settled (now : Int) (l : Link) : Like now l (l.settled now) := by
  have eq := settled_eq now l
  refine ⟨?_, ?_, ?_, ?_, ?_, ?_, ?_, visible_settled now l, ?_⟩
  all_goals rw [eq]
  cases owes : l.needAck
  · exact .inl ⟨rfl, rfl⟩
  · cases active : l.active
    · exact .inr (.inr ⟨rfl, rfl⟩)
    · exact .inr (.inl ⟨rfl, rfl, rfl⟩)

/-- What the two owed is paid, and they are the same but for where. -/
theorem Like.settled (like : Like now l l') :
    l'.settled now = { l.settled now with out := (l'.settled now).out } := by
  have time : (if l'.needAck && l'.active then now else l'.lastTxMs) =
      if l.needAck && l.active then now else l.lastTxMs := by
    rw [like.active]
    rcases like.owed with ⟨needs, time⟩ | ⟨active, needs, time⟩ | ⟨inactive, time⟩
    · rw [needs, time]
    · simp [active, needs, time]
    · simp [inactive, time]
  have one := settled_eq now l
  have two := settled_eq now l'
  rw [time, like.active, like.crc, like.txSeq, like.rxNext, like.unacked, like.txq,
    like.queued] at two
  rw [two, one]

end Link

namespace MuxRx

/-- In a frame longer than the buffer, which is full: every byte is dropped. -/
def Full (m : MuxRx) : Prop := m.Stuck ∧ m.buf.len = mxBufSize

theorem step_full {m : MuxRx} (full : m.Full) (b : UInt8) : m.step b = (m, none) := by
  obtain ⟨⟨atData, long⟩, len⟩ := full
  have pushed : m.buf.push b = m.buf := Buf.push_full (by omega) b
  have dropped : m.dataByte b = m := by
    unfold dataByte
    rw [pushed, if_neg]
    show ¬ m.len ≤ m.buf.len
    omega
  unfold step
  split
  all_goals simp_all

/-- Any other receiver can be moved without completing a frame. -/
theorem exists_step_ne {m : MuxRx} (notFull : ¬ m.Full) :
    ∃ b, (m.step b).1 ≠ m ∧ (m.step b).2 = none := by
  have moved : ∀ b, (m.step b).1.state ≠ m.state → (m.step b).2 = none →
      ∃ b, (m.step b).1 ≠ m ∧ (m.step b).2 = none :=
    fun b state silent => ⟨b, fun same => state (congrArg MuxRx.state same), silent⟩
  cases here : m.state with
  | search =>
    apply moved 0x01
    · simp [step, here, addrByte, mxFlag, mxEa]
    · simp [step, here, mxFlag]
  | addr =>
    apply moved 0x01
    · simp [step, here, addrByte, mxFlag, mxEa]
    · simp [step, here]
  | ctrl =>
    apply moved 0
    · simp [step, here]
    · simp [step, here]
  | len0 =>
    apply moved 0x01
    · simp [step, here, lengthKnown, mxEa]
    · simp [step, here, mxEa]
  | len1 =>
    apply moved 0
    · simp only [step, here, lengthKnown]
      split
      · simp
      · simp
    · simp [step, here]
  | data =>
    have silent : (m.step 0).2 = none := by simp [step, here]
    by_cases complete : m.len ≤ (m.buf.push 0).len
    · apply moved 0 _ silent
      simp [step, here, dataByte, complete]
    refine ⟨0, fun same => ?_, silent⟩
    have len := congrArg (fun m => m.buf.len) same
    simp only [step, here, dataByte, complete, if_false] at len
    have full : ¬ m.buf.len < mxBufSize := by
      intro room
      rw [Buf.push_len room] at len
      omega
    rw [Buf.push_full full] at complete
    have bound := m.buf.bound
    exact notFull ⟨⟨here, by omega⟩, by omega⟩
  | fcs =>
    apply moved m.fcs
    · simp [step, here]
    · simp only [step, here, UInt8.xor_self]
      rfl

end MuxRx

namespace Core

variable {c c' d : Core} {x : Bytes}

/-- A core and one whose link may have sent the acknowledgement the first still owes. -/
def Like (c c' : Core) : Prop := ∃ l, c' = c.withLink l ∧ c.link.Like c.now l

theorem Like.plays {f : Core → Core} (like : Like c c') {heard : Prop} (speaks : Speaks f c heard) :
    Like (f c) (f c') := by
  obtain ⟨l, rfl, like⟩ := like
  obtain ⟨d, ops, ⟨now, run⟩, -, -⟩ := speaks
  have once : f c = d.withLink (ops.foldl (stream c.now) c.link) := run c.link
  refine ⟨ops.foldl (stream c.now) l, ?_, ?_⟩
  · rw [once, run l]
    rfl
  · rw [once]
    show (ops.foldl (Link.stream c.now) c.link).Like d.now _
    rw [now]
    exact like.streams ops

theorem Like.h5RxPkt (like : Like c c') (host : Host) (p : H5Buf) :
    Like (c.h5RxPkt host p) (c'.h5RxPkt host p) := by
  obtain ⟨l, rfl, like⟩ := like
  obtain ⟨links, payload⟩ := like.h5RxPkt p
  have before : Like (c.withLink (c.link.h5RxPkt c.now p).1)
      (c.withLink (l.h5RxPkt c.now p).1) := ⟨_, rfl, links⟩
  replace payload : ((c.withLink l).link.h5RxPkt (c.withLink l).now p).2 = _ := payload
  rw [h5RxPkt_eq, h5RxPkt_eq, payload]
  cases (c.link.h5RxPkt c.now p).2 with
  | some data => exact before.plays (speaks_h5RxPayload host _ data)
  | none => exact before

theorem Like.h5Byte (like : Like c c') (host : Host) (b : UInt8) :
    Like (c.h5Byte host b) (c'.h5Byte host b) := by
  obtain ⟨l, rfl, like⟩ := like
  have taken : Like { c with rx := (c.rx.step b).1 }
      ({ c with rx := (c.rx.step b).1 }.withLink l) := ⟨l, rfl, like⟩
  dsimp only [Core.h5Byte, withLink]
  cases (c.rx.step b).2 with
  | some p => exact taken.h5RxPkt host p
  | none => exact taken

theorem Like.h5Input (like : Like c c') (host : Host) (data : Bytes) :
    Like (c.h5Input host data) (c'.h5Input host data) := by
  induction data generalizing c c' with
  | nil => exact like
  | cons b rest ih => exact ih (like.h5Byte host b)

theorem Like.rawInput (like : Like c c') (host : Host) (data : Bytes) :
    Like (c.rawInput host data) (c'.rawInput host data) := by
  have text : Like
      (if data.takeWhile (· ≠ delimiter) = [] then c
        else c.atChanInput host 0 false (data.takeWhile (· ≠ delimiter)))
      (if data.takeWhile (· ≠ delimiter) = [] then c'
        else c'.atChanInput host 0 false (data.takeWhile (· ≠ delimiter))) := by
    split
    · exact like
    · exact like.plays (speaks_atChanInput host c 0 false _)
  unfold Core.rawInput
  dsimp only
  split
  · exact text
  · refine Like.h5Input ?_ host _
    exact text.plays (speaks_startH5 _)

/-- A call of `ios_bb_input` up to the acknowledgement at its end, in the mode it starts in. -/
def modeInput (host : Host) (c : Core) (data : Bytes) : Core :=
  if !c.h5 && c.mux then c.mxInput host data
  else if !c.h5 then c.rawInput host data
  else c.h5Input host data

variable (host : Host)

theorem iosBbInput_of_on (on : c.off = false) (data : Bytes) :
    c.iosBbInput host data = (c.modeInput host data).pendingAck := by
  unfold iosBbInput
  rw [if_neg (by simp [on])]
  rfl

theorem iosBbInput_of_off (off : c.off = true) (data : Bytes) :
    c.iosBbInput host data = c :=
  if_pos off

/-- The same state, and the same output up to pure acknowledgements. -/
structure Same (c c' : Core) : Prop where
  state : c' = c.withLink { c.link with out := c'.link.out }
  output : c'.link.visible = c.link.visible

theorem Same.refl (c : Core) : Same c c := ⟨rfl, rfl⟩

theorem pendingAck_eq (c : Core) : c.pendingAck = c.withLink (c.link.settled c.now) := by
  unfold pendingAck settled
  split
  · rfl
  · rfl

theorem like_pendingAck : Like c c.pendingAck :=
  ⟨_, pendingAck_eq c, like_settled c.now c.link⟩

theorem Like.pendingAck (like : Like c c') : Same c.pendingAck c'.pendingAck := by
  obtain ⟨l, rfl, like⟩ := like
  rw [pendingAck_eq, pendingAck_eq]
  constructor
  · show c.withLink (l.settled c.now) = c.withLink _
    exact congrArg c.withLink like.settled
  · show (l.settled c.now).visible = (c.link.settled c.now).visible
    rw [visible_settled, visible_settled, like.visible]

/-! ## One call for two -/

section

variable (host : Host)

theorem atBytes_data0 (data : Bytes) (zeroed : Bool) (none : (c.modem.chans 0).dataCid = 0) :
    ((atBytes host 0 false zeroed data c).modem.chans 0).dataCid = 0 := by
  induction data generalizing c zeroed with
  | nil => exact none
  | cons b rest ih =>
    refine ih _ ?_
    rw [runOut_modem]
    exact (keeps_atByte c.mode c.modem 0 _).data0 none

/-- On the default channel no command leaves zeros for the rest. -/
theorem atBytes_append (first second : Bytes) (c : Core) :
    atBytes host 0 false false (first ++ second) c =
      atBytes host 0 false false second (atBytes host 0 false false first c) := by
  induction first generalizing c with
  | nil => rfl
  | cons b rest ih => exact ih _

theorem atChanInput_append (none : (c.modem.chans 0).dataCid = 0) (first second : Bytes) :
    c.atChanInput host 0 false (first ++ second) =
      (c.atChanInput host 0 false first).atChanInput host 0 false second := by
  have lines : ∀ {c : Core}, (c.modem.chans 0).dataCid = 0 → ∀ data,
      c.atChanInput host 0 false data = atBytes host 0 false false data c := by
    intro c none data
    exact if_neg (not_not.mpr none)
  rw [lines none, lines none, lines (atBytes_data0 host first false none), atBytes_append]

theorem Prim.h5_on {host : Host} (step : Prim host c c') (on : c.h5 = true) : c'.h5 = true := by
  cases step with
  | stream data =>
    rw [(plays_h5Stream c data).eq]
    exact on
  | startH5 => rfl
  | _ => exact on

theorem MuxMoves.h5_on {host : Host} (moves : MuxMoves host c c') (on : c.h5 = true) :
    c'.h5 = true := by
  induction moves with
  | refl => exact on
  | tail _ step ih =>
    cases step with
    | prim step => exact step.h5_on ih
    | _ => exact ih

theorem h5Byte_on (on : c.h5 = true) (b : UInt8) : (c.h5Byte host b).h5 = true := by
  unfold h5Byte
  dsimp only
  split
  · unfold h5RxPkt
    dsimp only
    split
    · exact (muxMoves_h5RxPayload _ _).h5_on on
    · exact on
  · exact on

/-- Nothing in a packet ends H5. -/
theorem h5Input_on (on : c.h5 = true) (data : Bytes) :
    (c.h5Input host data).h5 = true := by
  induction data generalizing c with
  | nil => exact on
  | cons b rest ih => exact ih (h5Byte_on host on b)

theorem atChanInput_nil (ch : Nat) (fromMux : Bool) :
    c.atChanInput host ch fromMux [] = c := by
  unfold atChanInput
  split
  · rfl
  · rfl

theorem rawInput_eq (data : Bytes) :
    c.rawInput host data =
      if data.dropWhile (· ≠ Slip.delimiter) = [] then
        c.atChanInput host 0 false (data.takeWhile (· ≠ Slip.delimiter))
      else
        { c.atChanInput host 0 false (data.takeWhile (· ≠ Slip.delimiter)) with h5 := true }.h5Input
          host (data.dropWhile (· ≠ Slip.delimiter)) := by
  unfold rawInput
  dsimp only
  by_cases empty : data.takeWhile (· ≠ delimiter) = []
  · rw [if_pos empty, empty, atChanInput_nil]
  · rw [if_neg empty]

/-- Text, then whatever comes. -/
theorem rawInput_text (none : (c.modem.chans 0).dataCid = 0) (text : Slip.delimiter ∉ x)
    (y : Bytes) : c.rawInput host (x ++ y) = (c.rawInput host x).rawInput host y := by
  have plain : ∀ b ∈ x, decide (b ≠ delimiter) = true := by
    intro b inside
    exact decide_eq_true fun same => text (same ▸ inside)
  have alone : c.rawInput host x = c.atChanInput host 0 false x := by
    rw [rawInput_eq, dropWhile_eq_nil_iff.mpr plain, takeWhile_eq_self_iff.mpr plain,
      if_pos rfl]
  rw [alone, rawInput_eq, rawInput_eq, takeWhile_append_of_pos plain,
    dropWhile_append_of_pos plain, atChanInput_append host none]

/-- From the first delimiter on everything is packets. -/
theorem rawInput_framed (c : Core) (framed : Slip.delimiter ∈ x) (y : Bytes) :
    (c.rawInput host x).h5 = true ∧
      c.rawInput host (x ++ y) = (c.rawInput host x).h5Input host y := by
  have found : x.dropWhile (· ≠ delimiter) ≠ [] := by
    intro all
    have plain := dropWhile_eq_nil_iff.mp all delimiter framed
    simp at plain
  have taken : (x ++ y).takeWhile (· ≠ delimiter) = x.takeWhile (· ≠ delimiter) := by
    rw [takeWhile_append, if_neg]
    intro whole
    apply found
    have parts := congrArg length (takeWhile_append_dropWhile (p := (· ≠ delimiter))
      (l := x))
    rw [length_append] at parts
    exact eq_nil_of_length_eq_zero (by omega)
  have dropped : (x ++ y).dropWhile (· ≠ delimiter) =
      x.dropWhile (· ≠ delimiter) ++ y := by
    rw [dropWhile_append, if_neg (by simpa using found)]
  rw [rawInput_eq, rawInput_eq, if_neg found, dropped, taken,
    if_neg (append_ne_nil_of_left_ne_nil found y)]
  exact ⟨h5Input_on host rfl _, foldl_append⟩
end

/-! ## What a cut changes

A second call in another mode shows in the receiver of the mode it should have been. -/

theorem pendingAck_rx (c : Core) : c.pendingAck.rx = c.rx := by
  rw [pendingAck_eq]
  rfl

theorem h5Input_rx (c : Core) (data : Bytes) :
    (c.h5Input host data).rx = (c.rx.feed data).1 :=
  (observe_h5Calls host c data).2

theorem rawInput_delimiter (rest : Bytes) :
    (c.rawInput host (Slip.delimiter :: rest)).rx = (c.rx.feed (Slip.delimiter :: rest)).1 := by
  rw [rawInput_eq, if_neg (by simp)]
  simp [h5Input_rx, atChanInput_nil]

theorem mxInput_rx (c : Core) (data : Bytes) : (c.mxInput host data).rx = c.rx :=
  (muxMoves_mxInput c data).rx_eq

theorem rawInput_rx (c : Core) {data : Bytes} (text : Slip.delimiter ∉ data) :
    (c.rawInput host data).rx = c.rx := by
  have plain : ∀ b ∈ data, decide (b ≠ delimiter) = true := by
    intro b inside
    exact decide_eq_true fun same => text (same ▸ inside)
  rw [rawInput_eq, dropWhile_eq_nil_iff.mpr plain, if_pos rfl]
  exact (moves_atChanInput c (by decide) false _).muxMoves.rx_eq

theorem Same.rx (same : Same c c') : c'.rx = c.rx := by
  rw [same.state]
  rfl

section SecondCall

variable (host : Host) {d : Core} (y : Bytes)

theorem second_off (off : d.off = true) : d.pendingAck.iosBbInput host y = d.pendingAck := by
  apply iosBbInput_of_off
  rw [pendingAck_eq]
  exact off

theorem second_on (on : d.off = false) :
    d.pendingAck.iosBbInput host y = (if d.h5 = false then
      if d.mux = false then d.pendingAck.rawInput host y else d.pendingAck.mxInput host y
      else d.pendingAck.h5Input host y).pendingAck := by
  have same : d.pendingAck.off = d.off ∧ d.pendingAck.h5 = d.h5 ∧ d.pendingAck.mux = d.mux := by
    rw [pendingAck_eq]
    exact ⟨rfl, rfl, rfl⟩
  rw [iosBbInput_of_on host (same.1.trans on), modeInput, same.2.1, same.2.2]
  cases d.h5 <;> cases d.mux <;> rfl

end SecondCall

/-- In H5 a cut only loses what comes after the modem switched itself off. -/
theorem h5_cut_iff (inH5 : d.h5 = true) :
    (∀ y, Same (d.h5Input host y).pendingAck (d.pendingAck.iosBbInput host y)) ↔ d.off = false := by
  constructor
  · intro same
    by_contra on
    have lost := (same [0x41]).rx
    rw [second_off host _ ((Bool.not_eq_false _).mp on), pendingAck_rx, pendingAck_rx,
      h5Input_rx] at lost
    exact Slip.Rx.step_ne d.rx (by decide) (by decide) lost.symm
  · intro on y
    rw [second_on host y on, if_neg (by simp [inH5])]
    exact (like_pendingAck.h5Input host y).pendingAck

/-- On the raw stream the second call has to be a raw one. -/
theorem raw_cut_iff (d : Core) :
    (∀ y, Same (d.rawInput host y).pendingAck (d.pendingAck.iosBbInput host y)) ↔
      d.off = false ∧ d.h5 = false ∧ d.mux = false := by
  obtain ⟨rest, moved⟩ := Slip.Rx.exists_feed_ne d.rx (by decide)
  constructor
  · intro same
    have packets := (same (delimiter :: rest)).rx
    rw [pendingAck_rx, rawInput_delimiter] at packets
    have on : d.off = false := by
      by_contra on
      rw [second_off host _ ((Bool.not_eq_false _).mp on), pendingAck_rx] at packets
      exact moved packets.symm
    have bare : d.h5 = false := by
      by_contra bare
      have text := (same [0x41]).rx
      rw [second_on host _ on, if_neg bare, pendingAck_rx, pendingAck_rx,
        h5Input_rx, pendingAck_rx, rawInput_rx host d (by decide)] at text
      exact Slip.Rx.step_ne d.rx (by decide) (by decide) text
    refine ⟨on, bare, ?_⟩
    by_contra raw
    rw [second_on host _ on, if_pos bare, if_neg raw, pendingAck_rx, mxInput_rx,
      pendingAck_rx] at packets
    exact moved packets.symm
  · rintro ⟨on, bare, raw⟩ y
    rw [second_on host y on, if_pos bare, if_pos raw]
    exact (like_pendingAck.rawInput host y).pendingAck

/-- The multiplexer's bytes pass a switched-off modem by either way only if its receiver drops
them. -/
theorem off_cut_iff (off : d.off = true) (staying : d.muxLeave = false) :
    (∀ y, Same (d.mxInput host y).pendingAck (d.pendingAck.iosBbInput host y)) ↔ d.muxrx.Full := by
  constructor
  · intro same
    by_contra notFull
    obtain ⟨b, moved, silent⟩ := MuxRx.exists_step_ne notFull
    have stepped : d.mxInput host [b] = { d with muxrx := (d.muxrx.step b).1 } :=
      mxByte_silent host staying silent
    have lost := congrArg muxrx (same [b]).state
    rw [second_off host _ off, stepped, pendingAck_eq, pendingAck_eq] at lost
    exact moved lost.symm
  · intro full y
    have still : d.mxInput host y = d := by
      induction y with
      | nil => rfl
      | cons b rest ih =>
        have step := MuxRx.step_full full b
        have stepped : d.mxByte host b = d := by
          rw [mxByte_silent host staying (by rw [step]), step]
        show (d.mxByte host b).mxInput host rest = d
        rw [stepped, ih]
    rw [still, second_off host y off]
    exact .refl _

/-- On the multiplexer's bare stream the second call has to be one of the multiplexer. -/
theorem mux_cut_iff (staying : d.off = true → d.muxLeave = false) :
    (∀ y, Same (d.mxInput host y).pendingAck (d.pendingAck.iosBbInput host y)) ↔
      (d.off = false ∧ d.h5 = false ∧ d.mux = true) ∨ (d.off = true ∧ d.muxrx.Full) := by
  cases power : d.off with
  | true => simpa using off_cut_iff host power (staying power)
  | false =>
    have unmoved : ∀ y, (d.mxInput host y).pendingAck.rx = d.rx :=
      fun y => (pendingAck_rx _).trans (mxInput_rx host d y)
    constructor
    · intro same
      have bare : d.h5 = false := by
        by_contra bare
        have moved := (same [0x41]).rx
        rw [second_on host _ power, if_neg bare, pendingAck_rx, h5Input_rx,
          unmoved, pendingAck_rx] at moved
        exact Slip.Rx.step_ne d.rx (by decide) (by decide) moved
      refine .inl ⟨rfl, bare, ?_⟩
      by_contra left
      obtain ⟨rest, moved⟩ := Slip.Rx.exists_feed_ne d.rx (by decide)
      have seen := (same (delimiter :: rest)).rx
      rw [second_on host _ power, if_pos bare, if_pos (by simpa using left), pendingAck_rx,
        rawInput_delimiter, unmoved, pendingAck_rx] at seen
      exact moved seen
    · intro condition y
      obtain ⟨-, bare, mux⟩ := condition.resolve_right fun ⟨off, _⟩ => Bool.false_ne_true off
      rw [second_on host y power, if_pos bare, if_neg (by simp [mux])]
      exact (like_pendingAck.plays (speaks_mxInput host y d)).pendingAck

theorem mxInput_staying (c : Core) (nonempty : x ≠ []) :
    (c.mxInput host x).muxLeave = false := by
  obtain ⟨first, b, rfl⟩ := eq_nil_or_concat x |>.resolve_left nonempty
  unfold mxInput
  rw [concat_eq_append, foldl_append]
  show (mxByte host _ b).muxLeave = false
  unfold mxByte leaveMux
  split
  · rfl
  · next staying => simpa using staying

/-! ## The theorem -/

/-- It makes no difference to cut behind `x`, after which the core is `c₁`: it left the modem on,
and on the bare stream in the mode it was; or the modem was off before, or is off with a
multiplexer's receiver that drops everything. -/
def Cuttable (c : Core) (x : Bytes) (c₁ : Core) : Prop :=
  c.off = true ∨
    if c.h5 = true ∨ (c.mux = false ∧ Slip.delimiter ∈ x) then c₁.off = false
    else (c₁.off = false ∧ c₁.mode = c.mode) ∨ (c.mux = true ∧ c₁.off = true ∧ c₁.muxrx.Full)

section FirstCall

variable (host : Host) {c : Core}

/-- What is left of a call that is in H5 at the cut. -/
theorem first_h5 {x : Bytes} (framed : c.h5 = true ∨ (c.mux = false ∧ Slip.delimiter ∈ x)) :
    (c.modeInput host x).h5 = true ∧
      ∀ y, c.modeInput host (x ++ y) = (c.modeInput host x).h5Input host y := by
  cases inH5 : c.h5 with
  | true =>
    simp only [modeInput, inH5, Bool.not_true, Bool.false_and, Bool.false_eq_true, if_false]
    exact ⟨h5Input_on host inH5 x, fun y => foldl_append⟩
  | false =>
    obtain ⟨raw, delimited⟩ := framed.resolve_left (by simp [inH5])
    simp only [modeInput, inH5, raw, Bool.and_false, Bool.false_eq_true, if_false, Bool.not_false,
      if_true]
    exact ⟨(rawInput_framed host c delimited []).1,
      fun y => (rawInput_framed host c delimited y).2⟩

theorem first_mux (bare : c.h5 = false) (mux : c.mux = true) (x : Bytes) :
    c.modeInput host x = c.mxInput host x ∧
      ∀ y, c.modeInput host (x ++ y) = (c.mxInput host x).mxInput host y := by
  simp only [modeInput, bare, mux, Bool.not_false, Bool.and_true, if_true]
  exact ⟨trivial, fun y => foldl_append⟩

theorem first_raw (default : (c.modem.chans 0).dataCid = 0) (bare : c.h5 = false)
    (raw : c.mux = false) {x : Bytes} (text : Slip.delimiter ∉ x) (y : Bytes) :
    c.modeInput host (x ++ y) = (c.modeInput host x).rawInput host y := by
  simp only [modeInput, bare, raw, Bool.and_false, Bool.false_eq_true, if_false, Bool.not_false,
    if_true]
  exact rawInput_text host default text y

end FirstCall

end Core

/-- `ios_bb_input` takes a stream: from a core whose default channel carries no packet data, how
the bytes behind `x` are cut off from it makes no difference to the state or to the output up to
pure acknowledgements, exactly if `x` did not switch modes on the bare stream or the modem off. -/
theorem input_is_stream_iff (host : Host) (c : Core) (default : (c.modem.chans 0).dataCid = 0)
    (x : Bytes) :
    (∀ y, Core.Same (c.iosBbInput host (x ++ y)) ((c.iosBbInput host x).iosBbInput host y)) ↔
      c.Cuttable x (c.iosBbInput host x) := by
  unfold Core.Cuttable
  cases power : c.off with
  | true =>
    have off : ∀ data, c.iosBbInput host data = c := iosBbInput_of_off host power
    simp only [off, true_or, iff_true]
    exact fun _ => .refl c
  | false =>
    have first : c.iosBbInput host x = (c.modeInput host x).pendingAck :=
      iosBbInput_of_on host power x
    have whole : ∀ y, c.iosBbInput host (x ++ y) = (c.modeInput host (x ++ y)).pendingAck :=
      fun y => iosBbInput_of_on host power (x ++ y)
    have same : (c.modeInput host x).pendingAck = (c.modeInput host x).withLink _ :=
      pendingAck_eq _
    simp only [first, whole, Bool.false_eq_true, false_or]
    by_cases framed : c.h5 = true ∨ (c.mux = false ∧ delimiter ∈ x)
    · obtain ⟨inH5, rest⟩ := first_h5 host framed
      simp only [rest, if_pos framed]
      rw [h5_cut_iff host inH5, same]
      rfl
    · rw [if_neg framed]
      have bare : c.h5 = false := by
        by_contra inH5
        exact framed (.inl ((Bool.not_eq_false _).mp inH5))
      cases mux : c.mux with
      | true =>
        obtain ⟨once, rest⟩ := first_mux host bare mux x
        have staying : (c.mxInput host x).off = true → (c.mxInput host x).muxLeave = false := by
          intro off
          apply mxInput_staying
          rintro rfl
          exact Bool.false_ne_true (power.symm.trans off)
        simp only [rest, once] at same ⊢
        rw [mux_cut_iff host staying, same]
        simp [mode, withLink, bare, mux]
      | false =>
        have text : delimiter ∉ x := fun inside => framed (.inr ⟨mux, inside⟩)
        simp only [first_raw host default bare mux text]
        rw [raw_cut_iff, same]
        simp [mode, withLink, bare, mux]

/-- A cut between two commands. -/
theorem commands_cut :
    ((Core.iosBbInit {}).modem.chans 0).dataCid = 0 ∧
      Core.Same ((Core.iosBbInit {}).iosBbInput bareHost
          (ascii "AT\r" ++ ascii "AT+CMUX=0\r"))
        (((Core.iosBbInit {}).iosBbInput bareHost
          (ascii "AT\r")).iosBbInput bareHost
          (ascii "AT+CMUX=0\r")) := by
  refine ⟨rfl, (input_is_stream_iff _ _ rfl (ascii "AT\r")).mpr (.inr ?_) _⟩
  rw [if_neg (by decide +kernel)]
  exact .inl ⟨by decide +kernel, by decide +kernel⟩

/-- The command that starts the multiplexer and the first frame for it: cut between them, the
frame is answered; in one call it is taken for text, and there is no answer. -/
theorem cmux_cut_changes_output :
    ¬ Core.Same ((Core.iosBbInit {}).iosBbInput bareHost
        (ascii "AT+CMUX=0\r" ++ mxEncode (mxFrame (mxAddr 0 true) (mxSabm ||| mxPf) [])))
      (((Core.iosBbInit {}).iosBbInput bareHost
        (ascii "AT+CMUX=0\r")).iosBbInput bareHost
        (mxEncode (mxFrame (mxAddr 0 true) (mxSabm ||| mxPf) []))) := by
  intro same
  have answers := congrArg length same.output
  revert answers
  decide +kernel

end QemuIos.Baseband

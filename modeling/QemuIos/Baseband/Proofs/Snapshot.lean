import QemuIos.Baseband.Snapshot
import QemuIos.Baseband.Proofs.Sound
import QemuIos.Baseband.Proofs.Window
import QemuIos.Lib.Ends

/-!
# A restored baseband is safe to run

If the queue of the H5 link that a snapshot brings holds whole records, none longer than the
largest payload, no later input, tick or event of the host makes a copy run past its destination
or looks up a channel that does not exist. `iosbb_post_load` checks how long the queue is, not the
records in it: from a queue with a longer record `h5_pump` copies past the end of an entry of
`h5_unacked`.
-/

namespace QemuIos.Baseband
open CText Nat Baseband.Core

variable {σ ε : Type}

/-- The operations of an engine keep its reports on channels that exist. -/
structure Engine.Lawful (engine : Engine σ ε) : Prop where
  setLine {m : σ} (ch : Nat) (line : Buf 599) (ok : engine.ChannelsOk m) :
    engine.ChannelsOk (engine.setLine m ch line)
  opened {m : σ} (ch : Nat) (ok : engine.ChannelsOk m) : engine.ChannelsOk (engine.opened m ch)
  poked {m : σ} (ch : Nat) (ok : engine.ChannelsOk m) : engine.ChannelsOk (engine.poked m ch)
  closed {m : σ} (ch : Nat) (ok : engine.ChannelsOk m) : engine.ChannelsOk (engine.closed m ch)
  byte {m : σ} {ch : Nat} (channel : ch < maxCh) (mode : Mode) (b : UInt8)
    (ok : engine.ChannelsOk m) : engine.ChannelsOk (engine.byte mode m ch b).1
  clock {m : σ} (now : Int) (ok : engine.ChannelsOk m) : engine.ChannelsOk (engine.clock m now)
  tick {m : σ} (ok : engine.ChannelsOk m) : engine.ChannelsOk (engine.tick m).1
  gps {m : σ} (ok : engine.ChannelsOk m) : engine.ChannelsOk (engine.gps m).1
  event {m : σ} (e : ε) (ok : engine.ChannelsOk m) : engine.ChannelsOk (engine.event m e).1
  reset {m : σ} (ok : engine.ChannelsOk m) : engine.ChannelsOk (engine.reset m)

/-- Whole records, none longer than the largest payload. -/
def WholeRecords (txq : Bytes) : Prop :=
  ∃ items : List Bytes, (∀ data ∈ items, data.length ≤ h5MaxPayload) ∧
    txq = items.flatMap Link.record

namespace Restored

/-- The buffers are as full as they may be. -/
structure Within (engine : Engine σ ε) (s : Restored σ) : Prop where
  channels : engine.ChannelsOk s.engine
  window : s.unacked.length ≤ h5Window
  txq : s.txq.length ≤ h5TxqSize
  ipRx : s.ipRx.length ≤ Core.ipRxSize

/-- And the records that wait to be sent fit where they will be copied to. -/
structure Inv (engine : Engine σ ε) (s : Restored σ) : Prop extends Within engine s where
  whole : WholeRecords s.txq

/-- Nothing that is copied to has changed. -/
structure Same (s s' : Restored σ) : Prop where
  engine : s'.engine = s.engine
  unacked : s'.unacked = s.unacked
  txq : s'.txq = s.txq
  ipRx : s'.ipRx = s.ipRx

variable {engine : Engine σ ε} {s s' : Restored σ}

theorem Within.of_same (within : s.Within engine) (same : Same s s') : s'.Within engine :=
  ⟨same.engine ▸ within.channels, same.unacked ▸ within.window, same.txq ▸ within.txq,
    same.ipRx ▸ within.ipRx⟩

theorem Inv.of_same (inv : s.Inv engine) (same : Same s s') : s'.Inv engine :=
  ⟨inv.toWithin.of_same same, same.txq ▸ inv.whole⟩

/-! ## The link -/

theorem same_h5SendPkt (engine : Engine σ ε) (s : Restored σ) (type : Fin 16) (reliable : Bool)
    (seq : UInt8) (data : Bytes) : Same s (s.h5SendPkt engine type reliable seq data) := by
  unfold h5SendPkt
  split
  · exact ⟨rfl, rfl, rfl, rfl⟩
  · exact ⟨rfl, rfl, rfl, rfl⟩

theorem same_h5SendAck : Same s (s.h5SendAck engine) := by
  unfold h5SendAck
  dsimp only
  split
  · have sent := same_h5SendPkt engine s h5TypeAck false 0 []
    exact ⟨sent.engine, sent.unacked, sent.txq, sent.ipRx⟩
  · exact ⟨rfl, rfl, rfl, rfl⟩

theorem same_h5Retransmit (engine : Engine σ ε) (s : Restored σ) :
    Same s (s.h5Retransmit engine) := by
  have packets : ∀ (ps : List (UInt8 × Bytes)) (s' : Restored σ), Same s s' →
      Same s (ps.foldl (fun s p => s.h5SendPkt engine h5TypeData true p.1 p.2) s') := by
    intro ps
    induction ps with
    | nil => exact fun _ same => same
    | cons p ps ih =>
      intro s' same
      have sent := same_h5SendPkt engine s' h5TypeData true p.1 p.2
      exact ih _ ⟨sent.engine.trans same.engine, sent.unacked.trans same.unacked,
        sent.txq.trans same.txq, sent.ipRx.trans same.ipRx⟩
  exact packets s.unacked s ⟨rfl, rfl, rfl, rfl⟩

theorem ends_copyTo {cap : Nat} (dest : Overrun) {held data : Bytes}
    (fits : held.length + data.length ≤ cap) :
    Ends (· = held ++ data) (copyTo cap dest held data) := by
  rw [copyTo, if_pos fits]
  exact .ok rfl

section

variable (inv : s.Inv engine)
include inv

theorem ends_h5Queue (data : Bytes) : Ends (Inv engine) (s.h5Queue data) := by
  unfold h5Queue
  dsimp only
  refine .ite (fun _ => .ok inv) fun room => ?_
  set cut := data.take h5MaxPayload
  have short : cut.length ≤ h5MaxPayload := List.length_take_le _ _
  refine (ends_copyTo .txq (by simp only [List.length_cons, List.length_nil]; omega)).bind ?_
  rintro _ rfl
  refine (ends_copyTo .txq
    (by simp only [List.length_append, List.length_cons, List.length_nil]; omega)).bind ?_
  rintro _ rfl
  refine .ok ⟨⟨inv.channels, inv.window, ?_, inv.ipRx⟩, ?_⟩
  · simp only [List.length_append, List.length_cons, List.length_nil]
    omega
  · obtain ⟨items, sizes, txq⟩ := inv.whole
    refine ⟨items ++ [cut], ?_, by simp [txq, Link.record]⟩
    intro item inside
    rcases List.mem_append.mp inside with before | last
    · exact sizes item before
    · rw [List.mem_singleton.mp last]
      exact short

/-- The record at the front fits into an entry of `h5_unacked`. -/
theorem ends_h5SendOneUnacked (room : s.unacked.length < h5Window)
    {data : Bytes} (short : data.length ≤ h5MaxPayload) :
    Ends (fun s' => s'.Within engine ∧ s'.unacked.length = s.unacked.length + 1)
      (s.h5SendOneUnacked engine data) := by
  unfold h5SendOneUnacked
  rw [if_neg (not_le.mpr room)]
  refine (ends_copyTo .unacked (by simpa using short)).bind ?_
  rintro kept -
  have same := same_h5SendPkt engine { s with unacked := s.unacked ++ [(s.txSeq, kept)] } h5TypeData
    true s.txSeq data
  dsimp only
  generalize h5SendPkt engine _ h5TypeData true s.txSeq data = sent at same ⊢
  obtain ⟨engine', unacked, txq, ipRx⟩ := same
  have length : sent.unacked.length = s.unacked.length + 1 := by
    rw [unacked, List.length_append, List.length_singleton]
  refine .ok ⟨⟨?_, length.le.trans room, ?_, ?_⟩, length⟩
  · rw [engine']
    exact inv.channels
  · rw [txq]
    exact inv.txq
  · rw [ipRx]
    exact inv.ipRx

omit inv in
theorem ends_h5PumpFrom (left : Nat) (inv : s.Inv engine)
    (room : s.unacked.length + left ≤ h5Window) : Ends (Inv engine) (h5PumpFrom engine left s) := by
  induction left generalizing s with
  | zero => exact .ok inv
  | succ left ih =>
    obtain ⟨items, sizes, txq⟩ := inv.whole
    match items with
    | [] =>
      unfold h5PumpFrom
      rw [txq, List.flatMap_nil]
      exact .ok inv
    | data :: items =>
      obtain ⟨short, sizes⟩ := List.forall_mem_cons.mp sizes
      unfold h5PumpFrom
      rw [txq, List.flatMap_cons]
      simp only [Link.record, List.cons_append, List.nil_append, Link.record_len short]
      rw [if_neg (by simp), List.drop_left, List.take_left]
      refine (ends_h5SendOneUnacked inv (by omega) short).bind ?_
      rintro sent ⟨within, length⟩
      have fewer : (items.flatMap Link.record).length ≤ s.txq.length := by
        rw [txq, List.flatMap_cons, List.length_append]
        exact le_add_left _ _
      refine ih ⟨⟨within.channels, within.window, fewer.trans inv.txq, within.ipRx⟩,
        items, sizes, rfl⟩ ?_
      show sent.unacked.length + left ≤ h5Window
      omega

theorem ends_h5Pump : Ends (Inv engine) (s.h5Pump engine) := by
  unfold h5Pump
  refine .ite (fun _ => ends_h5PumpFrom _ inv ?_) fun _ => .ok inv
  have window := inv.window
  omega

theorem ends_h5Acked (ack : UInt8) : Ends (Inv engine) (s.h5Acked engine ack) := by
  unfold h5Acked
  split
  · exact .ok inv
  refine .ite (fun _ => ends_h5Pump ⟨⟨inv.channels, ?_, inv.txq, inv.ipRx⟩, inv.whole⟩)
    fun _ => .ok inv
  rw [List.length_drop]
  exact (sub_le _ _).trans inv.window

/-! ## Output -/

theorem ends_h5Stream (data : Bytes) :
    Ends (Inv engine) (s.h5Stream engine data) := by
  unfold h5Stream
  refine .ite (fun _ => .ok inv) fun _ => .ite (fun _ => .ok ?_) fun _ => ?_
  · exact inv.of_same ⟨rfl, rfl, rfl, rfl⟩
  · refine .ite (fun _ => ends_h5Queue inv data) fun _ => ?_
    exact (ends_h5Queue inv data).bind fun _ queued => ends_h5Pump queued

theorem ends_mxSend (dlci : Nat) (cr : Bool) (ctrl : UInt8) (data : Bytes) :
    Ends (Inv engine) (s.mxSend engine dlci cr ctrl data) :=
  ends_h5Stream inv _

theorem Inv.withEngine {m : σ} (ok : engine.ChannelsOk m) :
    Inv engine { s with engine := m } :=
  ⟨⟨ok, inv.window, inv.txq, inv.ipRx⟩, inv.whole⟩

end

/-- What holds of a state whatever the engine has it do: it sees nothing but what is copied to, and
whether the modem is off. -/
structure Carried (engine : Engine σ ε) (I : Restored σ → Prop) : Prop where
  channels {s : Restored σ} : I s → engine.ChannelsOk s.engine
  update {s : Restored σ} {m : σ} : I s → engine.ChannelsOk m → I { s with engine := m }
  ipReset {s : Restored σ} : I s → I { s with ipRx := [] }
  same {s s' : Restored σ} : I s → Same s s' → (s.off = true → s'.off = true) → I s'
  stream {s : Restored σ} : I s → ∀ data, Ends I (s.h5Stream engine data)

theorem carried_inv : Carried engine (Inv engine) where
  channels inv := inv.channels
  update inv := inv.withEngine
  ipReset inv := ⟨⟨inv.channels, inv.window, inv.txq, zero_le _⟩, inv.whole⟩
  same inv same _ := inv.of_same same
  stream := ends_h5Stream

namespace Carried

variable {I : Restored σ → Prop} (carried : Carried engine I)
include carried

theorem act (s : Restored σ) (act : Act) (inv : I s) : Ends I (s.act engine act) := by
  cases act with
  | write ch text => exact .ite (fun _ => carried.stream inv _) fun _ => carried.stream inv text
  | msc dlci dv => exact carried.stream inv _
  | ipReset => exact .ok (carried.ipReset inv)
  | startH5 | startMux => exact .ok (carried.same inv ⟨rfl, rfl, rfl, rfl⟩ id)
  | powerOff => exact .ok (carried.same inv ⟨rfl, rfl, rfl, rfl⟩ fun _ => rfl)

theorem runOut (inv : I s) {o : σ × List Act}
    (keeps : engine.ChannelsOk s.engine → engine.ChannelsOk o.1) : Ends I (s.runOut engine o) := by
  have ok := carried.channels inv
  rw [Restored.runOut, if_pos ok]
  exact .foldlM carried.act (carried.update inv (keeps ok)) _

theorem iosBbDataInput (inv : I s) (pkt : Bytes) : Ends I (s.iosBbDataInput engine pkt) := by
  unfold Restored.iosBbDataInput
  split
  · exact .foldlM (fun s k inv => carried.stream inv _) inv _
  · exact .ok inv

end Carried

/-! ## Channels -/

theorem length_ipPackets (fuel : Nat) (buf : Bytes) :
    (ipPackets fuel buf).2.length ≤ buf.length := by
  induction fuel generalizing buf with
  | zero => exact le_rfl
  | succ fuel ih =>
    unfold ipPackets
    dsimp only
    repeat' split
    · exact le_rfl
    · exact zero_le _
    · exact le_rfl
    · refine (ih _).trans ?_
      rw [List.length_drop]
      exact sub_le _ _

theorem ends_dataChanFrom (fuel : Nat) (inv : s.Inv engine) (data : Bytes) :
    Ends (Inv engine) (dataChanFrom fuel s data) := by
  induction fuel generalizing s data with
  | zero => exact .ok inv
  | succ fuel ih =>
    unfold dataChanFrom
    refine .ite (fun _ => .ok inv) fun _ => ?_
    have full := inv.ipRx
    have fits : s.ipRx.length + (data.take (ipRxSize - s.ipRx.length)).length ≤
        ipRxSize := by
      rw [List.length_take]
      omega
    refine (ends_copyTo .ipRx fits).bind ?_
    rintro buf rfl
    have left : ∀ fuel, (ipPackets fuel (s.ipRx ++ data.take _)).2.length ≤ ipRxSize :=
      fun fuel => (length_ipPackets fuel _).trans ((List.length_append ..).le.trans fits)
    apply ih
    exact ⟨⟨inv.channels, inv.window, inv.txq, left _⟩, inv.whole⟩

variable (lawful : engine.Lawful) {ch : Nat} (channel : ch < maxCh)

include lawful

include channel

theorem ends_atBytes (fromMux zeroed : Bool) (data : Bytes) (inv : s.Inv engine) :
    Ends (Inv engine) (atBytes engine ch fromMux zeroed data s) := by
  induction data generalizing s zeroed with
  | nil => exact .ok inv
  | cons b rest ih =>
    unfold atBytes
    exact (carried_inv.runOut inv (lawful.byte channel _ _)).bind fun _ inv' => ih _ inv'

theorem ends_atChanInput (inv : s.Inv engine) (fromMux : Bool) (data : Bytes) :
    Ends (Inv engine) (s.atChanInput engine ch fromMux data) := by
  rw [atChanInput, if_neg (not_le.mpr channel)]
  exact .ite (fun _ => ends_dataChanFrom _ inv data)
    fun _ => ends_atBytes lawful channel fromMux false data inv

omit channel

/-! ## The multiplexer -/

section

variable (inv : s.Inv engine)
include inv

omit lawful in
theorem ends_mxControl (data : Bytes) :
    Ends (Inv engine) (s.mxControl engine data) := by
  unfold mxControl
  split
  · refine .ite (fun _ => .ok inv) fun _ => ?_
    have noted : ∀ type, (s.noteClose type).Inv engine := by
      intro type
      unfold noteClose
      split
      · exact inv.of_same ⟨rfl, rfl, rfl, rfl⟩
      · exact inv
    refine (ends_mxSend (noted _) 0 false mxUih _).bind fun _ sent => ?_
    exact .ite (fun _ => ends_mxSend sent 0 false mxUih _) fun _ => .ok sent
  · exact .ok inv

theorem ends_mxRxFrame (addr ctrl : UInt8) (data : Bytes) :
    Ends (Inv engine) (s.mxRxFrame engine addr ctrl data) := by
  unfold mxRxFrame
  dsimp only
  refine .ite (fun _ => ?_) fun _ => .ite (fun _ => ?_) fun _ => .ite (fun _ => ?_) fun _ => .ok inv
  · refine (ends_mxSend (inv.withEngine (lawful.opened _ inv.channels)) _ _ _ _).bind ?_
    exact fun _ sent => .ok (sent.withEngine (lawful.poked _ sent.channels))
  · exact ends_mxSend (inv.withEngine (lawful.closed _ inv.channels)) _ _ _ _
  · refine .ite (fun _ => ends_mxControl inv data) fun _ => .ite (fun _ => .ok inv) fun below => ?_
    refine .ite (fun _ => ?_) fun _ => ends_mxSend inv _ _ _ _
    exact ends_atChanInput lawful (not_le.mp below) inv true data

theorem ends_mxEvent (event : Option MuxEvent) :
    Ends (Inv engine) (s.mxEvent engine event) := by
  cases event with
  | none => exact .ok inv
  | some event =>
    cases event with
    | wake => exact ends_h5Stream inv _
    | frame addr ctrl data => exact ends_mxRxFrame lawful inv addr ctrl data

theorem ends_mxReceive (b : UInt8) :
    Ends (Inv engine) (s.mxReceive engine b) := by
  refine .ite (fun _ => .ok (inv.of_same ⟨rfl, rfl, rfl, rfl⟩)) fun _ => ?_
  have received : Inv engine { s with muxrx := (s.muxrx.step b).1 } :=
    inv.of_same ⟨rfl, rfl, rfl, rfl⟩
  exact ends_mxEvent lawful received _
end

theorem ends_mxByte (s : Restored σ) (b : UInt8) (inv : s.Inv engine) :
    Ends (Inv engine) (s.mxByte engine b) := by
  refine (ends_mxReceive lawful inv b).bind fun s' inv' => .ok ?_
  unfold leaveMux
  split
  · exact inv'.of_same ⟨rfl, rfl, rfl, rfl⟩
  · exact inv'

/-! ## Input -/

section

variable (inv : s.Inv engine)
include inv

theorem ends_h5RxPayload (data : Bytes) :
    Ends (Inv engine) (s.h5RxPayload engine data) :=
  .ite (fun _ => .foldlM (ends_mxByte lawful) inv data)
    fun _ => ends_atChanInput lawful (by decide) inv false data

omit lawful in
theorem ends_h5LinkControl (p : H5Buf) :
    Ends (Inv engine) (s.h5LinkControl engine p) := by
  unfold h5LinkControl
  refine .ite (fun _ => .ok (inv.of_same (same_h5SendPkt engine s _ _ _ _))) fun _ => ?_
  refine .ite (fun _ => ends_h5Pump ?_) fun _ => .ok inv
  dsimp only
  have asked : Inv engine { s with crc := 3 ≤ H5Buf.payloadLen p && p.data 6 &&& 0x10 ≠ 0 } :=
    inv.of_same ⟨rfl, rfl, rfl, rfl⟩
  have answered := asked.of_same (same_h5SendPkt engine _ h5TypeLink false 0
    [0x04, 0x7b, if 3 ≤ H5Buf.payloadLen p then p.data 6 else 7])
  exact answered.of_same ⟨rfl, rfl, rfl, rfl⟩

theorem ends_h5RxPkt (p : H5Buf) :
    Ends (Inv engine) (s.h5RxPkt engine p) := by
  unfold h5RxPkt
  refine .ite (fun _ => (ends_h5Acked inv _).bind fun s' inv' => ?_) fun _ => .ok inv
  refine .ite (fun _ => ends_h5LinkControl inv' p) fun _ => .ite (fun _ => .ok inv') fun _ => ?_
  refine .ite (fun _ => .ok inv') fun _ => .ite (fun _ => ?_) fun _ => ?_
  · have next : Inv engine { s' with rxNext := ((p.data 0 &&& 7) + 1) &&& 7 } :=
      inv'.of_same ⟨rfl, rfl, rfl, rfl⟩
    exact ends_h5RxPayload lawful next _
  · exact .ok (inv'.of_same ⟨rfl, rfl, rfl, rfl⟩)

omit inv in
theorem ends_h5Byte (s : Restored σ) (b : UInt8) (inv : s.Inv engine) :
    Ends (Inv engine) (s.h5Byte engine b) := by
  have received : Inv engine { s with rx := (s.rx.step b).1 } :=
    inv.of_same ⟨rfl, rfl, rfl, rfl⟩
  unfold h5Byte
  split
  · exact ends_h5RxPkt lawful received _
  · exact .ok received

theorem ends_rawText (text : Bytes) :
    Ends (Inv engine) (s.rawText engine text) :=
  .ite (fun _ => .ok inv) fun _ => ends_atChanInput lawful (by decide) inv false text

theorem ends_rawFrames (frames : Bytes) :
    Ends (Inv engine) (s.rawFrames engine frames) := by
  refine .ite (fun _ => .ok inv) fun _ => .foldlM (ends_h5Byte lawful) ?_ frames
  exact inv.of_same ⟨rfl, rfl, rfl, rfl⟩

theorem ends_modeInput (data : Bytes) :
    Ends (Inv engine) (s.modeInput engine data) := by
  refine .ite (fun _ => .foldlM (ends_mxByte lawful) inv data) fun _ =>
    .ite (fun _ => ?_) fun _ => ?_
  · exact (ends_rawText lawful inv _).bind fun _ inv' => ends_rawFrames lawful inv' _
  · exact .foldlM (ends_h5Byte lawful) inv data

theorem ends_iosBbInput (data : Bytes) :
    Ends (Inv engine) (s.iosBbInput engine data) := by
  refine .ite (fun _ => .ok inv) fun _ => (ends_modeInput lawful inv data).bind fun s' inv' =>
    .ok ?_
  split
  · exact inv'.of_same same_h5SendAck
  · exact inv'
end

/-! ## Events -/

theorem Inv.atTime (inv : s.Inv engine) (now : Int) : (s.atTime engine now).Inv engine :=
  ⟨⟨lawful.clock now inv.channels, inv.window, inv.txq, inv.ipRx⟩, inv.whole⟩

omit lawful in
theorem same_retransmit : Same s (s.retransmit engine) := by
  unfold retransmit
  split
  · have sent := same_h5Retransmit engine s
    exact ⟨sent.engine, sent.unacked, sent.txq, sent.ipRx⟩
  · exact ⟨rfl, rfl, rfl, rfl⟩

theorem ends_iosBbTick (inv : s.Inv engine) (now : Int) :
    Ends (Inv engine) (s.iosBbTick engine now) := by
  have timed := inv.atTime lawful now
  refine .ite (fun _ => .ok timed) fun _ => ?_
  refine (carried_inv.runOut timed fun ok => lawful.tick ok).bind fun s' inv' => ?_
  exact carried_inv.runOut (inv'.of_same same_retransmit) fun ok => lawful.gps ok

theorem inv_iosBbReset (ok : engine.ChannelsOk s.engine) : (s.iosBbReset engine).Inv engine where
  channels := lawful.reset ok
  window := zero_le _
  txq := zero_le _
  ipRx := zero_le _
  whole := ⟨[], nofun, rfl⟩

theorem ends_spiXfer (inv : s.Inv engine) {n : Nat} (mosi : Option (Vector UInt8 n))
    (miso : Bool) : Ends (Inv engine) (s.spiXfer engine mosi miso) := by
  have clocked : ∀ x : Ifx, Inv engine { s with ifx := some x } :=
    fun _ => inv.of_same ⟨rfl, rfl, rfl, rfl⟩
  unfold spiXfer
  split
  · exact .ok inv
  · exact .ite (fun _ => .ok (clocked _)) fun _ => ends_iosBbInput lawful (clocked _) _

theorem ends_handle (inv : s.Inv engine) (e : Later ε) : Ends (Inv engine) (s.handle engine e) := by
  cases e with
  | input now bytes => exact ends_iosBbInput lawful (inv.atTime lawful now) bytes
  | tick now => exact ends_iosBbTick lawful inv now
  | event e => exact carried_inv.runOut inv (lawful.event e)
  | data packet => exact carried_inv.iosBbDataInput inv packet
  | reset => exact .ok (inv_iosBbReset lawful inv.channels)
  | xfer now mosi miso => exact ends_spiXfer lawful (inv.atTime lawful now) mosi miso
  | unsent miso => exact .ok (inv.of_same ⟨rfl, rfl, rfl, rfl⟩)

/-! ## A switched-off modem -/

/-- Off, whatever waits to be sent. -/
structure Silent (engine : Engine σ ε) (s : Restored σ) : Prop extends Within engine s where
  off : s.off = true

section

variable (silent : s.Silent engine)
include silent

omit lawful in
theorem Silent.of_same (same : Same s s') (off : s'.off = true) :
    s'.Silent engine :=
  ⟨silent.toWithin.of_same same, off⟩

omit lawful silent in
theorem carried_silent : Carried engine (Silent engine) where
  channels silent := silent.channels
  update silent ok := ⟨⟨ok, silent.window, silent.txq, silent.ipRx⟩, silent.off⟩
  ipReset silent := ⟨⟨silent.channels, silent.window, silent.txq, zero_le _⟩, silent.off⟩
  same silent same off := silent.of_same same (off silent.off)
  stream silent _ := ⟨_, if_pos silent.off, silent⟩

theorem Silent.atTime (now : Int) :
    (s.atTime engine now).Silent engine :=
  ⟨⟨lawful.clock now silent.channels, silent.window, silent.txq, silent.ipRx⟩, silent.off⟩

omit lawful in
theorem Silent.iosBbInput (data : Bytes) :
    s.iosBbInput engine data = .ok s :=
  if_pos silent.off

omit lawful in
theorem silent_spiXfer {n : Nat} (mosi : Option (Vector UInt8 n)) (miso : Bool) :
    Ends (Silent engine) (s.spiXfer engine mosi miso) := by
  have clocked : ∀ x : Ifx, Silent engine { s with ifx := some x } :=
    fun _ => silent.of_same ⟨rfl, rfl, rfl, rfl⟩ silent.off
  unfold spiXfer
  split
  · exact .ok silent
  · exact .ite (fun _ => .ok (clocked _)) fun _ => ⟨_, (clocked _).iosBbInput _, clocked _⟩

/-- A modem that is off stays off until it is reset. -/
theorem silent_handle (e : Later ε) :
    Ends (fun s' => s'.Inv engine ∨ s'.Silent engine) (s.handle engine e) := by
  have stays : ∀ {r : Checked (Restored σ)}, Ends (Silent engine) r →
      Ends (fun s' => s'.Inv engine ∨ s'.Silent engine) r :=
    fun ends => ends.mono fun _ => .inr
  cases e with
  | input now bytes =>
    have timed := silent.atTime lawful now
    exact stays ⟨_, timed.iosBbInput bytes, timed⟩
  | tick now =>
    have timed := silent.atTime lawful now
    exact stays ⟨_, if_pos timed.off, timed⟩
  | event e => exact stays (carried_silent.runOut silent (lawful.event e))
  | data packet => exact stays (carried_silent.iosBbDataInput silent packet)
  | reset => exact .ok (.inl (inv_iosBbReset lawful silent.channels))
  | xfer now mosi miso => exact stays (silent_spiXfer (silent.atTime lawful now) mosi miso)
  | unsent miso => exact stays (.ok (silent.of_same ⟨rfl, rfl, rfl, rfl⟩ silent.off))
end

theorem ends_run (start : s.Inv engine ∨ s.Silent engine) (events : List (Later ε)) :
    Ends (fun s' => s'.Inv engine ∨ s'.Silent engine) (s.run engine events) := by
  refine Ends.foldlM (p := fun s' : Restored σ => s'.Inv engine ∨ s'.Silent engine) ?_ start events
  rintro s e (inv | silent)
  · exact (ends_handle lawful inv e).mono fun _ => .inl
  · exact silent_handle lawful silent e

end Restored

/-! ## The modem as an engine -/

theorem channelsOk_modem {host : Host} {m : Modem} :
    (modemEngine host).ChannelsOk m ↔ Channels m := by
  simp only [Engine.ChannelsOk, modemEngine, Channels, Modem.ports, List.forall_mem_cons,
    List.forall_mem_append, Int.natCast_nonneg, true_and]
  by_cases closed : m.gps.ch < 0
  · have below : m.gps.ch < 16 := closed.trans (by decide)
    simp [closed, below]
  · simp [closed, Int.not_lt.mp closed, and_assoc]

theorem lawful_modemEngine (host : Host) : (modemEngine host).Lawful := by
  have step : ∀ {m m' : Modem}, EngineStep host m m' → (modemEngine host).ChannelsOk m →
      (modemEngine host).ChannelsOk m' := by
    intro m m' step ok
    exact channelsOk_modem.mpr ((sound_step step).channels (channelsOk_modem.mp ok))
  have attempted : ∀ {m : Modem} {o : Option Out}, (∀ out, o = some out → EngineStep host m out.1) →
      (modemEngine host).ChannelsOk m → (modemEngine host).ChannelsOk (o.getD (m, [])).1 := by
    intro m o accepted ok
    cases given : o with
    | none => exact ok
    | some out => exact step (accepted out given) ok
  constructor
  case setLine => exact fun ch line ok => step (.buffer _ ch line) ok
  case opened | closed | poked =>
    intro m ch ok
    show (modemEngine host).ChannelsOk (if _ then _ else m)
    split
    · first
      | exact step (.opened m ch) ok
      | exact step (.closed m ch) ok
      | exact step (.poke m) ok
    · exact ok
  case byte => exact fun channel mode b ok => (steps_atByte mode _ channel b).keep step ok
  case clock => exact fun now ok => step (.clock _ now) ok
  case tick => exact fun ok => step (.tick _) ok
  case gps => exact fun ok => step (.gps _) ok
  case event =>
    intro m e ok
    cases e with
    | call number => exact attempted (fun _ given => .call given) ok
    | sms number text => exact attempted (fun _ given => .sms given) ok
    | remoteAnswer => exact step (.remoteAnswer m) ok
    | remoteHangup => exact step (.remoteHangup m) ok
    | control change => exact attempted (fun _ given => .control given) ok
  case reset =>
    intro m _
    refine channelsOk_modem.mpr ?_
    show Channels m.reset
    simp [Channels, Modem.ports, Modem.reset, gpsReset]

/-! ## Restored devices -/

theorem within_postLoad {engine : Engine σ ε} (lawful : engine.Lawful) {ifx : Option Ifx}
    {now : Int}
    {saved : Saved σ} {s : Restored σ} (loaded : saved.postLoad engine ifx now = some s) :
    s.Within engine ∧ s.off = saved.off ∧ s.txq = bytesOf saved.h5Txq saved.h5TxqLen := by
  unfold Saved.postLoad at loaded
  split at loaded
  · next ok =>
    obtain rfl := Option.some.inj loaded
    refine ⟨⟨List.foldlRecOn _ _ (lawful.clock now ok.channels) fun _ ok ch _ =>
      lawful.setLine ch _ ok, ?_, ?_, ?_⟩, rfl, rfl⟩
    · simpa using ok.h5Nunacked
    · simpa [bytesOf] using ok.h5TxqLen
    · simpa [bytesOf] using ok.ipRxlen
  · cases loaded

/-- Whatever happens to a restored device, no copy runs past its destination and every channel that
is looked up exists, if the queue of the link holds whole records that are not too long, or the
modem is off. -/
theorem restored_safe {engine : Engine σ ε} (lawful : engine.Lawful) (ifx : Option Ifx) (now : Int)
    {saved : Saved σ} {s : Restored σ} (loaded : saved.postLoad engine ifx now = some s)
    (whole : saved.off = true ∨ WholeRecords (bytesOf saved.h5Txq saved.h5TxqLen))
    (events : List (Restored.Later ε)) : ∃ s', s.run engine events = .ok s' := by
  obtain ⟨within, off, txq⟩ := within_postLoad lawful loaded
  have start : s.Inv engine ∨ s.Silent engine := by
    rcases whole with silent | whole
    · exact .inr ⟨within, off.trans silent⟩
    · exact .inl ⟨within, txq ▸ whole⟩
  obtain ⟨s', done, -⟩ := Restored.ends_run lawful start events
  exact ⟨s', done⟩

/-- A link in use, with one record waiting. -/
def waiting (len : Nat) : Saved Modem :=
  { engine := {}
    h5 := true
    h5Txq := fun i =>
      if i = 0 then UInt8.ofNat len else if i = 1 then UInt8.ofNat (len / 256) else 0
    h5TxqLen := 2 + len }

/-- A `CONFIG` of the link, in its frame. -/
def configFrame : Bytes := [0xc0, 0x00, 0x2f, 0x00, 0xd0, 0x03, 0xfc, 0xc0]

/-- A record that fits is sent when the link comes up. -/
theorem short_record_sent :
    ∃ s s', (waiting 3).postLoad (modemEngine bareHost) none 0 = some s ∧
      s.run (modemEngine bareHost) [.input 1 configFrame, .tick 2] = .ok s' := by
  obtain ⟨s, loaded⟩ : ∃ s, (waiting 3).postLoad (modemEngine bareHost) none 0 = some s :=
    Option.isSome_iff_exists.mp (by decide +kernel)
  obtain ⟨s', done⟩ := restored_safe (lawful_modemEngine bareHost) none 0 loaded
    (.inr ⟨[[0, 0, 0]], by decide, by decide⟩) [.input 1 configFrame, .tick 2]
  exact ⟨s, s', loaded, done⟩

/-- A record longer than the largest payload passes `iosbb_post_load`, and is copied past the end of
an entry of `h5_unacked` when the link comes up. -/
theorem long_record_overruns :
    ¬ ∀ (host : Host) (ifx : Option Ifx) (now : Int) (saved : Saved Modem)
    (s : Restored Modem), saved.postLoad (modemEngine host) ifx now = some s →
      ∀ events, ∃ s', s.run (modemEngine host) events = .ok s' := by
  intro all
  obtain ⟨s, loaded⟩ : ∃ s, (waiting 1025).postLoad (modemEngine bareHost) none 0 = some s :=
    Option.isSome_iff_exists.mp (by decide +kernel)
  obtain ⟨s', done⟩ := all bareHost none 0 (waiting 1025) s loaded [.input 1 configFrame]
  have overrun : (((waiting 1025).postLoad (modemEngine bareHost) none 0).map fun s =>
      (s.run (modemEngine bareHost) [.input 1 configFrame]).toOption.isNone) = some true := by
    decide +kernel
  rw [loaded, Option.map_some, done] at overrun
  cases overrun

end QemuIos.Baseband

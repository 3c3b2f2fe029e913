import QemuIos.Baseband.Core
import QemuIos.Baseband.Ifx

/-!
# A restored baseband

`hw/misc/ios_baseband.c:754-823` and `906-983`: what a snapshot brings back, what `iosbb_post_load`
checks of it, and how the transport of `hw/misc/ios_baseband_core.c` goes on from there. The stream
is not trusted: sequence numbers are any bytes and the multiplexer's state is any number. A copy
that does not fit its destination ends the run, as does a report on a channel outside `bb.ch[]`.
Bytes that are stored one at a time are stored in a `Buf`, which has no place for one too many.

The transport never looks inside the engine, so the engine is any state with its operations.
-/

namespace QemuIos.Baseband
open CText

/-- The AT engine as the transport sees it: `ports` are the channels of `bb.ch[]` that it looks up
by number, `ε` are the host's events. -/
structure Engine (σ ε : Type) where
  ports : σ → List Int
  isOpen : σ → Nat → Bool
  dataCid : σ → Nat → Int
  setLine : σ → Nat → Buf 599 → σ
  /-- A DLCI is opened (`SABM`) or closed (`DISC`). -/
  opened : σ → Nat → σ
  closed : σ → Nat → σ
  /-- The host is told about the SIM once the SIM's channel exists. -/
  poked : σ → Nat → σ
  /-- A byte on a channel in command mode. -/
  byte : Mode → σ → Nat → UInt8 → σ × List Act
  now : σ → Int
  clock : σ → Int → σ
  tick : σ → σ × List Act
  gps : σ → σ × List Act
  event : σ → ε → σ × List Act
  reset : σ → σ

/-- `IOSBB_CH_OK` of every channel the engine reports on. -/
def Engine.ChannelsOk {σ ε : Type} (engine : Engine σ ε) (m : σ) : Prop :=
  ∀ ch ∈ engine.ports m, 0 ≤ ch ∧ ch < maxCh

instance {σ ε : Type} (engine : Engine σ ε) (m : σ) : Decidable (engine.ChannelsOk m) :=
  inferInstanceAs (Decidable (∀ ch ∈ engine.ports m, _))

/-- A copy past the end of its destination, or an index outside `bb.ch[]`. -/
inductive Overrun where
  | unacked
  | txq
  | ipRx
  | channel
  deriving DecidableEq, Repr

abbrev Checked := Except Overrun

/-- A copy behind what a buffer holds. -/
def copyTo (cap : Nat) (dest : Overrun) (held data : Bytes) : Checked Bytes :=
  if held.length + data.length ≤ cap then .ok (held ++ data) else .error dest

/-- The fields of the stream that `iosbb_post_load` checks, and those next to them. -/
structure Saved (σ : Type) where
  engine : σ
  off : Bool := false
  h5 : Bool := false
  h5Active : Bool := false
  h5Crc : Bool := false
  h5InFrame : Bool := false
  h5Esc : Bool := false
  h5Rx : Nat → UInt8 := fun _ => 0
  h5Rxlen : Nat := 0
  h5TxSeq : UInt8 := 0
  h5RxNext : UInt8 := 0
  h5NeedAck : Bool := false
  /-- `seq`, `len` and `data` of the entries of `h5_unacked`. -/
  h5Unacked : Nat → UInt8 × Nat × (Nat → UInt8) := fun _ => (0, 0, fun _ => 0)
  h5Nunacked : Nat := 0
  h5LastTxMs : Int := 0
  h5Txq : Nat → UInt8 := fun _ => 0
  h5TxqLen : Nat := 0
  mux : Bool := false
  muxLeave : Bool := false
  muxState : Int := 0
  muxFlagsRun : Nat := 0
  muxAddr : UInt8 := 0
  muxCtrl : UInt8 := 0
  muxLen : Nat := 0
  muxCnt : Nat := 0
  muxBuf : Nat → UInt8 := fun _ => 0
  muxFcs : UInt8 := 0
  /-- `line` and `len` of the channels. -/
  lines : Nat → (Nat → UInt8) × Nat := fun _ => (fun _ => 0, 0)
  ipRx : Nat → UInt8 := fun _ => 0
  ipRxlen : Nat := 0
  ifxCreditsOut : Int32 := 0
  ifxTxq : Nat → UInt8 := fun _ => 0
  ifxTxqLen : Nat := 0

/-- The checks of `iosbb_post_load` that the transport depends on. -/
structure Saved.PostLoadOk {σ ε : Type} (engine : Engine σ ε) (s : Saved σ) : Prop where
  ifxTxqLen : s.ifxTxqLen ≤ ifxTxqSize
  h5Rxlen : s.h5Rxlen ≤ h5RxSize
  h5TxqLen : s.h5TxqLen ≤ h5TxqSize
  h5Nunacked : s.h5Nunacked ≤ h5Window
  ipRxlen : s.ipRxlen ≤ Core.ipRxSize
  muxCnt : s.muxCnt ≤ mxBufSize
  channels : engine.ChannelsOk s.engine
  unacked : ∀ i < h5Window, (s.h5Unacked i).2.1 ≤ h5MaxPayload
  lines : ∀ i < maxCh, (s.lines i).2 < 600 ∧ (s.lines i).1 599 = 0

instance {σ ε : Type} (engine : Engine σ ε) (s : Saved σ) : Decidable (s.PostLoadOk engine) :=
  decidable_of_iff
    (s.ifxTxqLen ≤ ifxTxqSize ∧ s.h5Rxlen ≤ h5RxSize ∧ s.h5TxqLen ≤ h5TxqSize ∧
      s.h5Nunacked ≤ h5Window ∧ s.ipRxlen ≤ Core.ipRxSize ∧ s.muxCnt ≤ mxBufSize ∧
      engine.ChannelsOk s.engine ∧ (∀ i < h5Window, (s.h5Unacked i).2.1 ≤ h5MaxPayload) ∧
      ∀ i < maxCh, (s.lines i).2 < 600 ∧ (s.lines i).1 599 = 0)
    ⟨fun ⟨a, b, c, d, e, f, g, h, i⟩ => ⟨a, b, c, d, e, f, g, h, i⟩,
      fun ⟨a, b, c, d, e, f, g, h, i⟩ => ⟨a, b, c, d, e, f, g, h, i⟩⟩

/-- The first bytes of an array. -/
def bytesOf (data : Nat → UInt8) (len : Nat) : Bytes := (List.range len).map data

/-- The running device. `ifx` is there on an SPI board. -/
structure Restored (σ : Type) where
  engine : σ
  off : Bool
  h5 : Bool
  active : Bool
  crc : Bool
  rx : Slip.Rx h5RxSize
  txSeq : UInt8
  rxNext : UInt8
  needAck : Bool
  unacked : List (UInt8 × Bytes)
  lastTxMs : Int
  txq : Bytes
  mux : Bool
  muxLeave : Bool
  /-- The state is none of the receiver's. -/
  muxLost : Bool
  muxrx : MuxRx
  ipRx : Bytes
  ifx : Option Ifx

def MxState.ofCode : Int → Option MxState
  | 0 => some .search
  | 1 => some .addr
  | 2 => some .ctrl
  | 3 => some .len0
  | 4 => some .len1
  | 5 => some .data
  | 6 => some .fcs
  | _ => none

/-- A line that is not too long for its array. -/
def lineOf (line : (Nat → UInt8) × Nat) : Buf 599 :=
  if bound : line.2 ≤ 599 then ⟨line.1, line.2, bound⟩ else .zero

/-- `iosbb_post_load` on a device with the given framing, at the given time. -/
def Saved.postLoad {σ ε : Type} (engine : Engine σ ε) (ifx : Option Ifx) (now : Int)
    (s : Saved σ) : Option (Restored σ) :=
  if ok : s.PostLoadOk engine then
    some
      { engine := (List.range maxCh).foldl
          (fun m ch => engine.setLine m ch (lineOf (s.lines ch))) (engine.clock s.engine now)
        off := s.off, h5 := s.h5, active := s.h5Active, crc := s.h5Crc
        rx := ⟨s.h5InFrame, s.h5Esc, s.h5Rx, s.h5Rxlen, ok.h5Rxlen⟩
        txSeq := s.h5TxSeq, rxNext := s.h5RxNext, needAck := s.h5NeedAck
        unacked := (List.range s.h5Nunacked).map fun i =>
          ((s.h5Unacked i).1, bytesOf (s.h5Unacked i).2.2 (s.h5Unacked i).2.1)
        lastTxMs := s.h5LastTxMs
        txq := bytesOf s.h5Txq s.h5TxqLen
        mux := s.mux, muxLeave := s.muxLeave
        muxLost := (MxState.ofCode s.muxState).isNone
        muxrx :=
          { state := (MxState.ofCode s.muxState).getD .search, flagsRun := s.muxFlagsRun
            addr := s.muxAddr, ctrl := s.muxCtrl, len := s.muxLen
            buf := ⟨s.muxBuf, s.muxCnt, ok.muxCnt⟩, fcs := s.muxFcs }
        ipRx := bytesOf s.ipRx s.ipRxlen
        ifx := ifx.map fun x =>
          { x with
            creditsOut := s.ifxCreditsOut
            txq := bytesOf s.ifxTxq s.ifxTxqLen
            txq_le := by simpa [bytesOf] using ok.ifxTxqLen } }
  else none

namespace Restored

variable {σ ε : Type} (engine : Engine σ ε) (s : Restored σ)

/-! ## The link -/

/-- `out`: an SPI board queues for the next frame. -/
def out (bytes : Bytes) : Restored σ :=
  { s with ifx := s.ifx.map fun x => x.queue bytes }

def h5SendPkt (type : Fin 16) (reliable : Bool) (seq : UInt8) (data : Bytes) : Restored σ :=
  if h5MaxPayload < data.length then s
  else
    let crc := s.crc && type ≠ h5TypeLink
    { s.out (Slip.encode (packetOf type reliable crc seq s.rxNext data)) with
      needAck := false, lastTxMs := engine.now s.engine }

def h5SendAck : Restored σ :=
  let s := if s.active then s.h5SendPkt engine h5TypeAck false 0 [] else s
  { s with needAck := false }

def h5Queue (data : Bytes) : Checked (Restored σ) :=
  let data := data.take h5MaxPayload
  if h5TxqSize < s.txq.length + 2 + data.length then .ok s
  else do
    let txq ← copyTo h5TxqSize .txq s.txq
      [UInt8.ofNat data.length, UInt8.ofNat (data.length / 256)]
    let txq ← copyTo h5TxqSize .txq txq data
    .ok { s with txq }

def h5SendOneUnacked (data : Bytes) : Checked (Restored σ) :=
  if h5Window ≤ s.unacked.length then .error .unacked
  else do
    let kept ← copyTo h5MaxPayload .unacked [] data
    let sent := { s with unacked := s.unacked ++ [(s.txSeq, kept)] }.h5SendPkt engine h5TypeData
      true s.txSeq data
    .ok { sent with txSeq := (s.txSeq + 1) &&& 7 }

/-- The loop of `h5_pump`, with so many packets left in the window. -/
def h5PumpFrom : Nat → Restored σ → Checked (Restored σ)
  | 0, s => .ok s
  | left + 1, s =>
    match s.txq with
    | lo :: hi :: rest =>
      let len := lo.toNat + 256 * hi.toNat
      if rest.length < len then .ok s
      else do
        let sent ← s.h5SendOneUnacked engine (rest.take len)
        h5PumpFrom left { sent with txq := rest.drop len }
    | _ => .ok s

def h5Pump : Checked (Restored σ) :=
  if s.active then h5PumpFrom engine (h5Window - s.unacked.length) s else .ok s

def h5Retransmit : Restored σ :=
  s.unacked.foldl (fun s p => s.h5SendPkt engine h5TypeData true p.1 p.2) s

/-- Any packet advances the window for whatever it acknowledges. -/
def h5Acked (ack : UInt8) : Checked (Restored σ) :=
  match s.unacked with
  | [] => .ok s
  | first :: _ =>
    let d := ((ack - first.1) &&& 7).toNat
    if d ≤ s.unacked.length then { s with unacked := s.unacked.drop d }.h5Pump engine else .ok s

/-! ## Output -/

def h5Stream (data : Bytes) : Checked (Restored σ) :=
  if s.off then .ok s
  else if !s.h5 then .ok (s.out data)
  else if !s.active then s.h5Queue data
  else do
    let s ← s.h5Queue data
    s.h5Pump engine

def mxSend (dlci : Nat) (cr : Bool) (ctrl : UInt8) (data : Bytes) : Checked (Restored σ) :=
  s.h5Stream engine (mxEncode (mxFrame (mxAddr dlci cr) ctrl data))

def mxSendFrameCanned (dlci : Nat) (ctrl : UInt8) : Checked (Restored σ) :=
  s.mxSend engine dlci (!s.h5) ctrl []

def mxMsc (dlci : Nat) (dv : Bool) : Checked (Restored σ) :=
  s.mxSend engine 0 false mxUih [0xe3, 0x05, mxAddr dlci true, if dv then 0x8d else 0x0d]

def act : Act → Checked (Restored σ)
  | .write ch text =>
    if s.mux && 0 < ch then s.mxSend engine ch false mxUih text else s.h5Stream engine text
  | .msc dlci dv => s.mxMsc engine dlci dv
  | .ipReset => .ok { s with ipRx := [] }
  | .startH5 => .ok { s with h5 := true }
  | .startMux => .ok { s with mux := true, muxLost := false, muxrx := {} }
  | .powerOff => .ok { s with off := true }

/-- The engine's next state and its actions; it looks up the channels it reports on. -/
def runOut (o : σ × List Act) : Checked (Restored σ) :=
  if engine.ChannelsOk s.engine then o.2.foldlM (act engine) { s with engine := o.1 }
  else .error .channel

/-! ## Channels -/

/-- The loop of `data_chan_input`. -/
def dataChanFrom : Nat → Restored σ → Bytes → Checked (Restored σ)
  | 0, s, _ => .ok s
  | fuel + 1, s, data =>
    if data = [] then .ok s
    else do
      let n := Core.ipRxSize - s.ipRx.length
      let buf ← copyTo Core.ipRxSize .ipRx s.ipRx (data.take n)
      dataChanFrom fuel { s with ipRx := (Core.ipPackets buf.length buf).2 } (data.drop n)

/-- The loop of `at_chan_input`, as in `Core.atBytes`. -/
def atBytes (ch : Nat) (fromMux : Bool) : Bool → Bytes → Restored σ → Checked (Restored σ)
  | _, [], s => .ok s
  | zeroed, b :: rest, s => do
      let o := engine.byte ⟨s.h5, s.mux⟩ s.engine ch (if zeroed then 0 else b)
      let s ← s.runOut engine o
      atBytes ch fromMux (zeroed || (fromMux && o.2.contains .startMux)) rest s

def atChanInput (ch : Nat) (fromMux : Bool) (data : Bytes) : Checked (Restored σ) :=
  if maxCh ≤ ch then .error .channel
  else if engine.dataCid s.engine ch ≠ 0 then dataChanFrom (data.length + 1) s data
  else atBytes engine ch fromMux false data s

/-! ## The multiplexer -/

/-- A `CLD` closes the multiplexer after its frame. -/
def noteClose (type : UInt8) : Restored σ :=
  if type = 0x63 then { s with muxLeave := true } else s

def mxControl (data : Bytes) : Checked (Restored σ) :=
  match data with
  | type :: len :: rest =>
    let info := rest.take (len.toNat / 2)
    if rest.length < len.toNat / 2 then .ok s
    else do
      let s ← (s.noteClose type).mxSend engine 0 false mxUih (Core.controlReply type info)
      if type = 0xe3 ∧ 2 ≤ info.length ∧ !s.h5 then
        s.mxMsc engine ((info.getD 0 0).toNat / 4) false
      else .ok s
  | _ => .ok s

def mxRxFrame (addr ctrl : UInt8) (data : Bytes) : Checked (Restored σ) :=
  let dlci := addr.toNat / 4
  let kind := ctrlKind ctrl
  let final := ctrl &&& mxPf
  if kind = mxSabm then do
    let s ← { s with engine := engine.opened s.engine dlci }.mxSendFrameCanned engine dlci
      (mxUa ||| final)
    .ok { s with engine := engine.poked s.engine dlci }
  else if kind = mxDisc then
    { s with engine := engine.closed s.engine dlci }.mxSendFrameCanned engine dlci (mxUa ||| final)
  else if kind = mxUih ∨ kind = mxUi then
    if dlci = 0 then s.mxControl engine data
    else if maxCh ≤ dlci then .ok s
    else if engine.isOpen s.engine dlci then s.atChanInput engine dlci true data
    else s.mxSendFrameCanned engine dlci (mxDm ||| final)
  else .ok s

def mxEvent : Option MuxEvent → Checked (Restored σ)
  | none => .ok s
  | some .wake => s.h5Stream engine [mxFlag, mxFlag]
  | some (.frame addr ctrl data) => s.mxRxFrame engine addr ctrl data

/-- A byte to the receiver; in a state of no meaning it is lost. -/
def mxReceive (b : UInt8) : Checked (Restored σ) :=
  if s.muxLost then .ok { s with muxLost := false, muxrx := { s.muxrx with state := .search } }
  else mxEvent engine { s with muxrx := (s.muxrx.step b).1 } (s.muxrx.step b).2

def leaveMux : Restored σ :=
  if s.muxLeave then { s with muxLeave := false, mux := false, muxLost := false, muxrx := {} }
  else s

/-- One byte of the multiplexer's stream. -/
def mxByte (b : UInt8) : Checked (Restored σ) := do
  let s ← s.mxReceive engine b
  .ok s.leaveMux

/-! ## Input -/

def h5RxPayload (data : Bytes) : Checked (Restored σ) :=
  if s.mux then data.foldlM (mxByte engine) s else s.atChanInput engine 0 false data

/-- `SYNC` and `CONFIG`. -/
def h5LinkControl (p : H5Buf) : Checked (Restored σ) :=
  if p.data 4 = 0x01 then .ok (s.h5SendPkt engine h5TypeLink false 0 [0x02, 0x7d])
  else if p.data 4 = 0x03 then
    let given := 3 ≤ H5Buf.payloadLen p
    let cfg : UInt8 := if given then p.data 6 else 7
    let s := { s with crc := given && p.data 6 &&& 0x10 ≠ 0 }
    { s.h5SendPkt engine h5TypeLink false 0 [0x04, 0x7b, cfg] with active := true }.h5Pump engine
  else .ok s

/-- `h5_rx_pkt`. A sequence number that no packet carries is never the next one. -/
def h5RxPkt (p : H5Buf) : Checked (Restored σ) :=
  if H5Buf.ok p then do
    let s ← s.h5Acked engine (p.data 0 >>> 3 &&& 7)
    if H5Buf.type p = h5TypeLink then s.h5LinkControl engine p
    else if !s.active then .ok s
    else if H5Buf.type p ≠ h5TypeData || !H5Buf.reliable p then .ok s
    else if p.data 0 &&& 7 = s.rxNext then
      Restored.h5RxPayload engine { s with rxNext := ((p.data 0 &&& 7) + 1) &&& 7 }
        (H5Buf.payload p)
    else .ok { s with needAck := true }
  else .ok s

def h5Byte (b : UInt8) : Checked (Restored σ) :=
  match (s.rx.step b).2 with
  | some p => { s with rx := (s.rx.step b).1 }.h5RxPkt engine p
  | none => .ok { s with rx := (s.rx.step b).1 }

/-- Raw AT up to the first SLIP delimiter. -/
def rawText (text : Bytes) : Checked (Restored σ) :=
  if text = [] then .ok s else s.atChanInput engine 0 false text

/-- A SLIP delimiter starts H5. -/
def rawFrames (frames : Bytes) : Checked (Restored σ) :=
  if frames = [] then .ok s else frames.foldlM (h5Byte engine) { s with h5 := true }

def rawInput (data : Bytes) : Checked (Restored σ) := do
  let s ← s.rawText engine (data.takeWhile (· ≠ Slip.delimiter))
  s.rawFrames engine (data.dropWhile (· ≠ Slip.delimiter))

/-- The bytes in the mode of the moment. -/
def modeInput (data : Bytes) : Checked (Restored σ) :=
  if !s.h5 && s.mux then data.foldlM (mxByte engine) s
  else if !s.h5 then s.rawInput engine data
  else data.foldlM (h5Byte engine) s

/-- `ios_bb_input`. -/
def iosBbInput (data : Bytes) : Checked (Restored σ) :=
  if s.off then .ok s
  else do
    let s ← s.modeInput engine data
    .ok (if s.needAck then s.h5SendAck engine else s)

/-- `ios_bb_data_input`. -/
def iosBbDataInput (pkt : Bytes) : Checked (Restored σ) :=
  match ((List.range maxCh).drop 1).find? fun i =>
      engine.isOpen s.engine i && engine.dataCid s.engine i ≠ 0 with
  | some i =>
    (List.range ((pkt.length + 1499) / 1500)).foldlM
      (fun s k => s.mxSend engine i false mxUih ((pkt.drop (k * 1500)).take 1500)) s
  | none => .ok s

def atTime (now : Int) : Restored σ :=
  { s with engine := engine.clock s.engine now }

/-- Everything unacknowledged again after a quarter of a second. -/
def retransmit : Restored σ :=
  if s.unacked ≠ [] ∧ h5RetxMs ≤ engine.now s.engine - s.lastTxMs then
    { s.h5Retransmit engine with lastTxMs := engine.now s.engine }
  else s

/-- `ios_bb_tick`. -/
def iosBbTick (now : Int) : Checked (Restored σ) :=
  let s := s.atTime engine now
  if s.off then .ok s
  else do
    let s ← s.runOut engine (engine.tick s.engine)
    let s := s.retransmit engine
    s.runOut engine (engine.gps s.engine)

/-- `ios_bb_reset`, and of the framing `ios_bb_ifx_modem_reset`. -/
def iosBbReset : Restored σ where
  engine := engine.reset s.engine
  off := false
  h5 := false
  active := false
  crc := false
  rx := {}
  txSeq := 0
  rxNext := 0
  needAck := false
  unacked := []
  lastTxMs := 0
  txq := []
  mux := false
  muxLeave := false
  muxLost := false
  muxrx := {}
  ipRx := []
  ifx := s.ifx.map Ifx.modemReset

/-- `ios_baseband_spi_xfer`. -/
def spiXfer {n : Nat} (mosi : Option (Vector UInt8 n)) (miso : Bool) : Checked (Restored σ) :=
  match s.ifx.map fun x => x.xfer mosi miso with
  | none => .ok s
  | some (x, _, rx) =>
    if rx = [] then .ok { s with ifx := some x }
    else { s with ifx := some x }.iosBbInput engine rx

/-- What happens to a device that is restored. -/
inductive Later (ε : Type) where
  | input (now : Int) (bytes : Bytes)
  | tick (now : Int)
  | event (e : ε)
  | data (packet : Bytes)
  | reset
  | xfer {n : Nat} (now : Int) (mosi : Option (Vector UInt8 n)) (miso : Bool)
  | unsent (miso : Nat → UInt8)

def handle : Later ε → Checked (Restored σ)
  | .input now bytes => (s.atTime engine now).iosBbInput engine bytes
  | .tick now => s.iosBbTick engine now
  | .event e => s.runOut engine (engine.event s.engine e)
  | .data packet => s.iosBbDataInput engine packet
  | .reset => .ok (s.iosBbReset engine)
  | .xfer now mosi miso => (s.atTime engine now).spiXfer engine mosi miso
  | .unsent miso => .ok { s with ifx := s.ifx.map fun x => x.unsent miso }

/-- A run goes on as long as every copy fits and every channel exists. -/
def run (events : List (Later ε)) : Checked (Restored σ) :=
  events.foldlM (handle engine) s

end Restored

/-! ## The modem as an engine -/

/-- The host's side of the network and the device's properties. -/
inductive HostEvent where
  | call (number : Bytes)
  | sms (number text : Bytes)
  | remoteAnswer
  | remoteHangup
  | control (change : Control)
  deriving DecidableEq, Repr

def Modem.onHost (host : Host) (m : Modem) : HostEvent → Out
  | .call number => (incomingCall m number).getD (m, [])
  | .sms number text => (incomingSms host m number text).getD (m, [])
  | .remoteAnswer => remoteAnswer m
  | .remoteHangup => remoteHangup m
  | .control change => (m.control change).getD (m, [])

def modemEngine (host : Host) : Engine Modem HostEvent where
  ports m :=
    [(m.reg.cregCh : Int), m.xcievCh, m.callCh, m.smsCh, m.xsigstrCh, m.xsimCh, m.tempCh,
      m.ctzrCh] ++ if m.gps.ch < 0 then [] else [m.gps.ch]
  isOpen m ch := (m.chans ch).isOpen
  dataCid m ch := (m.chans ch).dataCid
  setLine m ch line := m.setChan ch { m.chans ch with line }
  opened m ch := if ch < maxCh then m.setChan ch { m.chans ch with isOpen := true } else m
  closed m ch := if ch < maxCh then m.setChan ch { line := (m.chans ch).line.clear } else m
  poked m ch :=
    if ch = m.xsimCh ∧ !m.xsimPushed then { m with xsimDueMs := m.nowMs + 100 } else m
  byte := Core.atByte host
  now m := m.nowMs
  clock m now := { m with nowMs := now }
  tick := modemTick host
  gps := gpsPoll host
  event := Modem.onHost host
  reset := Modem.reset

end QemuIos.Baseband

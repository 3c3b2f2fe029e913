import QemuIos.Baseband.At
import QemuIos.Baseband.H5
import QemuIos.Baseband.Mux

/-!
# The core: transport and engine together

`hw/misc/ios_baseband_core.c:399-720`, `2868-2964` and `3104-3391`: how the bytes of the host
reach the AT engine and how what the engine writes gets back, in the mode of the moment: raw AT,
the multiplexer on the bare stream (SPI), AT or the multiplexer inside H5, raw IP on a data
channel.
-/

namespace QemuIos.Baseband
open CText

/-- `IosBbCore`. `net` records what `data_out` was called with. -/
structure Core where
  modem : Modem := {}
  h5 : Bool := false
  off : Bool := false
  mux : Bool := false
  muxLeave : Bool := false
  link : Link := {}
  rx : Slip.Rx h5RxSize := {}
  muxrx : MuxRx := {}
  /-- `ip_rx` up to `ip_rxlen`. -/
  ipRx : Bytes := []
  net : List Bytes := []

namespace Core

variable (host : Host) (c : Core)

def now : Int := c.modem.nowMs

def mode : Mode := ⟨c.h5, c.mux⟩

/-! ## Output -/

/-- Raw or H5-wrapped output; a switched-off modem says nothing. -/
def h5Stream (data : Bytes) : Core :=
  if c.off then c
  else if !c.h5 then { c with link := c.link.emit (.raw data) }
  else if !c.link.active then { c with link := c.link.h5Queue data }
  else { c with link := (c.link.h5Queue data).h5Pump c.now }

def mxSend (dlci : Nat) (cr : Bool) (ctrl : UInt8) (data : Bytes) : Core :=
  c.h5Stream (mxEncode (mxFrame (mxAddr dlci cr) ctrl data))

/-- A frame without information; a responder's carries C/R on the bare stream. -/
def mxSendFrameCanned (dlci : Nat) (ctrl : UInt8) : Core := c.mxSend dlci (!c.h5) ctrl []

/-- Our own V.24 status of a channel, with the carrier while it carries data. -/
def mxMsc (dlci : Nat) (dv : Bool) : Core :=
  c.mxSend 0 false mxUih [0xe3, 0x05, mxAddr dlci true, if dv then 0x8d else 0x0d]

def chanWrite (ch : Nat) (text : Bytes) : Core :=
  if c.mux && 0 < ch then c.mxSend ch false mxUih text else c.h5Stream text

def runAct : Act → Core
  | .write ch text => c.chanWrite ch text
  | .msc dlci dv => c.mxMsc dlci dv
  | .ipReset => { c with ipRx := [] }
  | .startH5 => { c with h5 := true }
  | .startMux => { c with mux := true, muxrx := {} }
  | .powerOff => { c with off := true }

/-- The engine's next state, and its actions in order. -/
def runOut (o : Out) : Core := o.2.foldl runAct { c with modem := o.1 }

/-! ## Raw IP -/

abbrev ipRxSize : Nat := 2048

/-- The packets at the front of the buffer, cut by their total length, and what is left;
anything that is not IPv4 drops the buffer. -/
def ipPackets : Nat → Bytes → List Bytes × Bytes
  | 0, buf => ([], buf)
  | fuel + 1, buf =>
    if buf.length < 20 then ([], buf)
    else
      let tot := (buf.getD 2 0).toNat * 256 + (buf.getD 3 0).toNat
      if (buf.getD 0 0).toNat / 16 ≠ 4 ∨ tot < 20 ∨ ipRxSize < tot then ([], [])
      else if buf.length < tot then ([], buf)
      else
        let (packets, rest) := ipPackets fuel (buf.drop tot)
        (buf.take tot :: packets, rest)

/-- The loop of `data_chan_input`, which fills the buffer and empties it in turn. -/
def dataChanFrom : Nat → Core → Bytes → Core
  | 0, c, _ => c
  | fuel + 1, c, data =>
    if data = [] then c
    else
      let n := ipRxSize - c.ipRx.length
      let buf := c.ipRx ++ data.take n
      let (packets, rest) := ipPackets buf.length buf
      dataChanFrom fuel
        { c with ipRx := rest, net := if c.modem.dataOut then c.net ++ packets else c.net }
        (data.drop n)

def dataChanInput (data : Bytes) : Core := dataChanFrom (data.length + 1) c data

/-! ## AT lines -/

/-- The line starts with `at`. -/
def isCommand (line : Buf 599) : Bool := 2 ≤ line.len && line.data 0 = 97 && line.data 1 = 116

/-- The line in a channel's buffer when its end comes: run if it is a command. -/
def lineEnd (mode : Mode) (m : Modem) (ch : Nat) : Out :=
  let a := m.chans ch
  let line := a.line.terminate
  let m := m.setChan ch { a with line }
  let o : Out :=
    if isCommand line then atCommand host mode m ch (line.cstrFrom 2) else (m, [])
  let done := o.1.chans ch
  (o.1.setChan ch { done with line := done.line.clear }, o.2)

def toLower (b : UInt8) : UInt8 := if 65 ≤ b ∧ b ≤ 90 then b + 32 else b

/-- What a byte on a channel in command mode makes the engine do. -/
def atByte (mode : Mode) (m : Modem) (ch : Nat) (b : UInt8) : Out :=
  let a := m.chans ch
  let keep (line : Buf 599) : Out := (m.setChan ch { a with line }, [])
  if a.smsPrompt then
    if b = 0x1a then cmgsPromptCommit m ch true
    else if b = 0x1b then cmgsPromptCommit m ch false
    else if (hexValue b).isSome then keep (a.line.push b)
    else (m, [])
  else if b = 13 then if a.line.len = 0 then (m, []) else lineEnd host mode m ch
  else if b = 10 then (m, [])
  else keep (a.line.push (toLower b))

/-- The loop of `at_chan_input`. The bytes of a frame lie in the multiplexer's buffer, so a
command that restarts the multiplexer leaves zeros for the rest of the loop. -/
def atBytes (host : Host) (ch : Nat) (fromMux : Bool) : Bool → Bytes → Core → Core
  | _, [], c => c
  | zeroed, b :: rest, c =>
    let o := atByte host c.mode c.modem ch (if zeroed then 0 else b)
    atBytes host ch fromMux (zeroed || (fromMux && o.2.contains .startMux)) rest (c.runOut o)

def atChanInput (ch : Nat) (fromMux : Bool) (data : Bytes) : Core :=
  if (c.modem.chans ch).dataCid ≠ 0 then c.dataChanInput data
  else atBytes host ch fromMux false data c

/-! ## The multiplexer -/

/-- The answer to a control command; the information is cut at 62 octets. -/
def controlReply (type : UInt8) (info : Bytes) : Bytes :=
  let info := info.take 62
  let echo (reply : UInt8) : Bytes := [reply, UInt8.ofNat (info.length * 2 + 1)] ++ info
  if type = 0x23 then [0x21, mxEa]
  else if type = 0x63 then [0x61, mxEa]
  else if type = 0x13 then echo 0x11
  else if type = 0xe3 ∨ type = 0x2b ∨ type = 0x53 ∨ type = 0x33 then echo (type &&& ~~~0x02)
  else [0x09, 0x03, type]

/-- A `CLD` closes the multiplexer after its frame. -/
def noteClose (type : UInt8) : Core :=
  if type = 0x63 then { c with muxLeave := true } else c

/-- On the bare stream the host waits for our own status of every channel too. -/
def ownStatus (type : UInt8) (info : Bytes) : Core :=
  if type = 0xe3 ∧ 2 ≤ info.length ∧ !c.h5 then c.mxMsc ((info.getD 0 0).toNat / 4) false else c

/-- A command on DLCI 0. -/
def mxControl (data : Bytes) : Core :=
  match data with
  | type :: len :: rest =>
    let info := rest.take (len.toNat / 2)
    if rest.length < len.toNat / 2 then c
    else ((c.noteClose type).mxSend 0 false mxUih (controlReply type info)).ownStatus type info
  | _ => c

/-- A channel's state; a DLCI beyond the channels has none. -/
def setChan (dlci : Nat) (chan : AtChan) : Core :=
  if dlci < maxCh then { c with modem := c.modem.setChan dlci chan } else c

/-- The SIM model of the host only moves after it sees the SIM, so it is poked once its channel
exists. -/
def pokeSim (dlci : Nat) : Core :=
  if dlci = c.modem.xsimCh ∧ !c.modem.xsimPushed then
    { c with modem := { c.modem with xsimDueMs := c.now + 100 } }
  else c

/-- A frame whose check sequence was right. -/
def mxRxFrame (addr ctrl : UInt8) (data : Bytes) : Core :=
  let dlci := addr.toNat / 4
  let kind := ctrlKind ctrl
  let final := ctrl &&& mxPf
  let chan := c.modem.chans dlci
  if kind = mxSabm then
    ((c.setChan dlci { chan with isOpen := true }).mxSendFrameCanned dlci (mxUa ||| final)).pokeSim
      dlci
  else if kind = mxDisc then
    (c.setChan dlci { line := chan.line.clear }).mxSendFrameCanned dlci (mxUa ||| final)
  else if kind = mxUih ∨ kind = mxUi then
    if dlci = 0 then c.mxControl data
    else if maxCh ≤ dlci then c
    else if chan.isOpen then c.atChanInput host dlci true data
    else c.mxSendFrameCanned dlci (mxDm ||| final)
  else c

/-- What a byte made the receiver do: wake-up flags are answered with flags. -/
def mxEvent : Option MuxEvent → Core
  | none => c
  | some .wake => c.h5Stream [mxFlag, mxFlag]
  | some (.frame addr ctrl data) => c.mxRxFrame host addr ctrl data

/-- Once a `CLD` was answered, the stream is AT again. -/
def leaveMux : Core :=
  if c.muxLeave then { c with muxLeave := false, mux := false, muxrx := {} } else c

/-- One byte of the multiplexer's stream. -/
def mxByte (b : UInt8) : Core :=
  ({ c with muxrx := (c.muxrx.step b).1 }.mxEvent host (c.muxrx.step b).2).leaveMux

def mxInput (host : Host) (c : Core) (data : Bytes) : Core := data.foldl (mxByte host) c

/-! ## Input -/

/-- The payload of a reliable packet: multiplexer bytes, or the default channel. -/
def h5RxPayload (data : Bytes) : Core :=
  if c.mux then c.mxInput host data else c.atChanInput host 0 false data

/-- A whole packet from the host. -/
def h5RxPkt (p : H5Buf) : Core :=
  let (link, payload) := c.link.h5RxPkt c.now p
  let c := { c with link }
  match payload with
  | some data => c.h5RxPayload host data
  | none => c

def h5Byte (b : UInt8) : Core :=
  let (rx, packet) := c.rx.step b
  let c := { c with rx }
  match packet with
  | some p => c.h5RxPkt host p
  | none => c

def h5Input (host : Host) (c : Core) (data : Bytes) : Core := data.foldl (h5Byte host) c

/-- Raw AT up to the first SLIP delimiter, which starts H5. -/
def rawInput (data : Bytes) : Core :=
  let text := data.takeWhile (· ≠ Slip.delimiter)
  let frames := data.dropWhile (· ≠ Slip.delimiter)
  let c := if text = [] then c else c.atChanInput host 0 false text
  if frames = [] then c else { c with h5 := true }.h5Input host frames

/-- An acknowledgement that nothing carried yet. -/
def pendingAck : Core :=
  if c.link.needAck then { c with link := c.link.h5SendAck c.now } else c

/-- `ios_bb_input`. -/
def iosBbInput (data : Bytes) : Core :=
  if c.off then c
  else
    (if !c.h5 && c.mux then c.mxInput host data
      else if !c.h5 then c.rawInput host data
      else c.h5Input host data).pendingAck

/-- `ios_bb_data_input`: a packet from the network, on the first open data channel. -/
def iosBbDataInput (pkt : Bytes) : Core :=
  match ((List.range maxCh).drop 1).find? fun i =>
      (c.modem.chans i).isOpen && (c.modem.chans i).dataCid ≠ 0 with
  | some i =>
    (List.range ((pkt.length + 1499) / 1500)).foldl
      (fun c k => c.mxSend i false mxUih ((pkt.drop (k * 1500)).take 1500)) c
  | none => c

end Core

/-! ## Time -/

variable (m : Modem)

/-- A change the host has not heard of is scheduled. -/
def regNotice : Modem :=
  if m.reg.regStep = 0 ∧ 0 < m.reg.cregN ∧ m.isOpen m.reg.cregCh ∧
      regStat m ≠ m.reg.lastCreg then
    if regStat m = 1 ∧ m.reg.lastCreg = 2 then
      -- the search found the cell: registered, now
      { m with reg := { m.reg with regStep := 2, regDueMs := m.nowMs } }
    else regSchedule m
  else m

/-- The registration part of a tick, which takes a due step of the burst. -/
def regTurn (host : Host) (m : Modem) : Out :=
  let m := regNotice m
  if m.reg.regStep ≠ 0 ∧ m.reg.regDueMs ≤ m.nowMs then regTick host m else (m, [])

/-- Every sensor but the battery's. -/
def tempTurn : Out :=
  if m.tempDueMs ≠ 0 ∧ m.tempDueMs ≤ m.nowMs then
    ({ m with tempDueMs := m.nowMs + m.tempPeriodMs },
      if m.isOpen m.tempCh ∨ m.tempCh = 0 then
        [0, 1, 3, 4, 5].map fun (sensor : Int) =>
          urc m.tempCh (ascii "+XDRVI: 5,17," ++ decimal sensor ++ ascii ",1,25,25")
      else [])
  else (m, [])

def xsimTurn : Out :=
  if m.xsimDueMs ≠ 0 ∧ m.xsimDueMs ≤ m.nowMs then
    let m := { m with xsimDueMs := 0 }
    if m.isOpen m.xsimCh then
      ({ m with simLast := m.sim.present, xsimPushed := true },
        [urc m.xsimCh (ascii "+XSIM: " ++ decimal m.sim.present.toNat)])
    else (m, [])
  else (m, [])

/-- The engine's part of a tick. -/
def modemTick (host : Host) (m : Modem) : Out :=
  (((regTurn host (campUpdate m)).andThen tempTurn).andThen xsimTurn).andThen
    (forEach (List.range maxCalls) callTick)

/-- `ios_bb_gps_poll`, and the report on its channel. -/
def gpsPoll (host : Host) (m : Modem) : Out :=
  let g := m.gps
  if g.ch < 0 ∨ g.dueMs = 0 ∨ m.nowMs < g.dueMs then (m, [])
  else
    let m := { m with gps := { g with dueMs := m.nowMs + g.intervalMs } }
    (m, if g.fix && m.isOpen g.ch.toNat then
        [.write g.ch.toNat ((crlf (ascii "+XLSR: " ++ host.fixText)).take 199)] else [])

namespace Core

variable (host : Host) (c : Core)

/-- Everything unacknowledged again after a quarter of a second. -/
def retransmit : Core :=
  if c.link.unacked ≠ [] ∧ h5RetxMs ≤ c.now - c.link.lastTxMs then
    { c with link := { c.link.h5Retransmit c.now with lastTxMs := c.now } }
  else c

/-- `ios_bb_tick`. -/
def iosBbTick (now : Int) : Core :=
  let c := { c with modem := { c.modem with nowMs := now } }
  if c.off then c
  else
    let c := (c.runOut (modemTick host c.modem)).retransmit
    c.runOut (gpsPoll host c.modem)

end Core

/-! ## Power -/

/-- What a power cycle keeps of the engine: the controls and the SIM card. -/
def Modem.reset : Modem :=
  { nowMs := m.nowMs, wallOffsetMs := m.wallOffsetMs
    operatorLong := m.operatorLong, sca := m.sca, voicemail := m.voicemail
    imei := m.imei, imsi := m.imsi, iccid := m.iccid
    signalDbm := m.signalDbm, battery := m.battery, answerDelayMs := m.answerDelayMs
    nitz := m.nitz
    sim := { m.sim with pinOk := false }
    reg :=
      { cfun := 1, registered := m.reg.registered, searchMs := m.reg.searchMs, plmn := m.reg.plmn
        lac := m.reg.lac, ci := m.reg.ci, copsFormat := 2, cregCh := 2 }
    chans := fun ch => { isOpen := ch = 0 }
    powerOffs := m.powerOffs
    xcievCh := 2, xsimCh := 3, callCh := 1, smsCh := 3
    simLast := m.sim.present, nextCallId := 1, ceerCause := 16
    dataOut := m.dataOut, gps := gpsReset m.gps }

namespace Core

/-- `ios_bb_reset`. -/
def iosBbReset (c : Core) : Core :=
  { modem := c.modem.reset, link := { out := c.link.out }, net := c.net }

/-- `ios_bb_init`, from the controls. -/
def iosBbInit : Core :=
  let m := { m with nowMs := 0 }.reset
  { modem := { m with sim := m.sim.load } }

end Core

/-! ## The host's side -/

/-- The properties of the device that the network model reads. A new `sim-file` comes with what
is at its path; of a `gps-fix` it matters here whether there is one. -/
inductive Control where
  | carrier (name : Bytes)
  | mccMnc (plmn : Bytes)
  | voicemail (number : Bytes)
  | imei (digits : Bytes)
  | imsi (digits : Bytes)
  | iccid (digits : Bytes)
  | signalDbm (dbm : Int)
  | batteryPercent (percent : Int)
  | answerDelayMs (ms : Int)
  | registered (on : Bool)
  | simPresent (on : Bool)
  | simFile (path : Bytes) (writable : Bool) (file : Option Bytes)
  | gpsFix (on : Bool)
  deriving DecidableEq, Repr

def plmnOk (plmn : Bytes) : Bool :=
  (plmn.length = 5 || plmn.length = 6) && plmn.all (isDigit 10)

def carrierOk (name : Bytes) : Bool :=
  name ≠ [] && name.length < 33 && name.all fun c => 0x20 ≤ c && c ≠ 0x7f && c ≠ 34

/-- A property is set and the host told what it would see; `none` if the value is refused. -/
def Modem.control : Control → Option Out
  | .carrier name =>
    if carrierOk name then
      some ((changed { m with operatorLong := name.take 32 }).andThen fun m =>
        (operatorChanged m, []))
    else none
  | .mccMnc plmn =>
    if plmnOk plmn then
      some ((changed { m with reg := { m.reg with plmn := plmn.take 6 } }).andThen fun m =>
        (operatorChanged m, []))
    else none
  | .voicemail number => some (changed { m with voicemail := number.take 23 })
  | .imei digits => some (changed { m with imei := digits.take 15 })
  | .imsi digits => some (changed { m with imsi := digits.take 15 })
  | .iccid digits => some (changed { m with iccid := digits.take 20 })
  | .signalDbm dbm => some (changed { m with signalDbm := dbm })
  | .batteryPercent percent => some (changed { m with battery := percent })
  | .answerDelayMs ms => some (changed { m with answerDelayMs := ms })
  | .registered on => some (changed { m with reg := { m.reg with registered := on } })
  | .simPresent on => some (changed { m with sim := { m.sim with present := on } })
  | .simFile path writable file =>
    some (changed { m with sim := { m.sim with fileSet := path ≠ [], writable, file } })
  | .gpsFix on => some ({ m with gps := { m.gps with fix := on } }, [])

/-- What happens to a core that is powered. -/
inductive Event where
  | input (now : Int) (bytes : Bytes)
  | tick (now : Int)
  | call (number : Bytes)
  | sms (number text : Bytes)
  | data (packet : Bytes)
  | remoteAnswer
  | remoteHangup
  | control (change : Control)
  deriving DecidableEq, Repr

namespace Core

variable (host : Host) (c : Core)

/-- A change of the engine that may be refused. -/
def attempt (o : Option Out) : Core :=
  match o with
  | some o => c.runOut o
  | none => c

/-- The device sets the time when it passes input on. -/
def handle : Event → Core
  | .input now bytes => { c with modem := { c.modem with nowMs := now } }.iosBbInput host bytes
  | .tick now => c.iosBbTick host now
  | .call number => c.attempt (incomingCall c.modem number)
  | .sms number text => c.attempt (incomingSms host c.modem number text)
  | .data packet => c.iosBbDataInput packet
  | .remoteAnswer => c.runOut (Baseband.remoteAnswer c.modem)
  | .remoteHangup => c.runOut (Baseband.remoteHangup c.modem)
  | .control change => c.attempt (c.modem.control change)

def run (events : List Event) : Core := events.foldl (handle host) c

end Core

end QemuIos.Baseband

import QemuIos.Baseband.Calls

/-!
# The AT commands

`hw/misc/ios_baseband_core.c:1946-1988` and `2135-2853`: one complete command line, already
lower-cased. The commands behind a `+` are a table in the source's order: the first entry whose
pattern fits answers the command.
-/

namespace QemuIos.Baseband
open CText

/-- How an entry of the table knows its command: `strcmp`, or `strncmp` with what follows as the
argument. -/
inductive Pat where
  | whole (text : String)
  | start (text : String)
  deriving DecidableEq, Repr

def Pat.arg? : Pat → Bytes → Option Bytes
  | .whole text, cmd => if cmd = ascii text then some [] else none
  | .start text, cmd => argAfter cmd (ascii text)

abbrev Table := List (Pat × (Bytes → Out))

/-- The first entry that knows the command. -/
def dispatch (table : Table) (cmd : Bytes) : Option Out :=
  table.findSome? fun entry => (entry.1.arg? cmd).map entry.2

/-! ## The radio's nvram -/

/-- A byte of the image iBoot reads. -/
def radioNvram (i : Nat) : UInt8 :=
  if i = 0 then 0 else if i = 1 then 1 else if i = 2 then 2 else if i = 3 then 2
  else if i < 1028 then UInt8.ofNat ((i - 4) * 37 + 0x5a) ^^^ UInt8.ofNat ((i - 4) / 8)
  else if i < 1032 then 0 else 0xff

/-- `+XDRV=9,1,<block>`; the line is longer than the formatting buffer and written as it is. -/
def radioNvramBlock (ch : Nat) (block : Int) : Act :=
  if block < 0 ∨ 3 ≤ block then
    chanPrintf ch (crlf (ascii "+XDRV: 9,1,1," ++ decimal block ++ [44]) ++ crlf (ascii "OK"))
  else
    let hex := bytesToHex ((List.range 512).map fun i => radioNvram (block.toNat * 512 + i))
    .write ch (crlf (ascii "+XDRV: 9,1,0," ++ decimal block ++ [44] ++ hex) ++ crlf (ascii "OK"))

/-! ## SIM -/

variable (host : Host) (mode : Mode) (m : Modem) (ch : Nat)

/-- A card after a command about it, the reply, and the burst once the IMSI can be read. -/
def simCpin (f : List Bytes) : Out :=
  let s := m.sim
  if !s.present then (m, [cmeError ch 10])
  else if s.pukLeft = 0 then (m, [cmeError ch 13])
  else if s.pinLeft = 0 then
    if f.length < 2 || !simCodeOk (f.getD 1 []) 4 then (m, [cmeError ch 3])
    else if f.getD 0 [] = s.puk then
      let s := { s with
        pin := (f.getD 1 []).take 8, pinOn := true, pinOk := true
        pinLeft := pinTries, pukLeft := pukTries, compared := s.compared ++ [(Code.puk, true)] }
      ({ m with sim := s.save }, [atOk ch])
    else
      let s := { s with pukLeft := s.pukLeft - 1, compared := s.compared ++ [(Code.puk, false)] }
      ({ m with sim := s.save }, [cmeError ch 16])
  else if !s.locked then (m, [cmeError ch 3])
  else
    match s.checkPin (f.getD 0 []) with
    | (s, none) => ({ m with sim := s }, [atOk ch])
    | (s, some err) => ({ m with sim := s }, [cmeError ch err])

/-- `+CLCK`: the lock is switched by the right PIN. -/
def simClck (f : List Bytes) : Out :=
  if f.getD 0 [] ≠ ascii "sc" then
    (m, (if 1 < f.length ∧ f.getD 1 [] = ascii "2" then [urc ch (ascii "+CLCK: 0")] else []) ++
      [atOk ch])
  else if 1 < f.length ∧ f.getD 1 [] = ascii "2" then
    (m, [urc ch (ascii "+CLCK: " ++ decimal m.sim.pinOn.toNat), atOk ch])
  else if f.length < 3 ∨ (f.getD 1 [] ≠ ascii "0" ∧ f.getD 1 [] ≠ ascii "1") then
    (m, [cmeError ch 3])
  else
    match m.sim.checkPin (f.getD 2 []) with
    | (s, none) =>
      ({ m with sim := { s with pinOn := f.getD 1 [] = ascii "1" }.save }, [atOk ch])
    | (s, some err) => ({ m with sim := s }, [cmeError ch err])

/-- `+CPWD`: the PIN is changed by the right PIN. -/
def simCpwd (f : List Bytes) : Out :=
  if f.getD 0 [] ≠ ascii "sc" then (m, [atOk ch])
  else if f.length < 3 || !simCodeOk (f.getD 2 []) 4 || !m.sim.pinOn then (m, [cmeError ch 3])
  else
    match m.sim.checkPin (f.getD 1 []) with
    | (s, none) => ({ m with sim := { s with pin := (f.getD 2 []).take 8 }.save }, [atOk ch])
    | (s, some err) => ({ m with sim := s }, [cmeError ch err])

def cpinStatus (s : Sim) : Bytes :=
  if s.pinLeft = 0 then ascii "SIM PUK" else if s.locked then ascii "SIM PIN" else ascii "READY"

/-- `+CPIN`, and the burst once the IMSI can be read. -/
def cpinCommand (arg : Bytes) : Out :=
  let (m', acts) := simCpin m ch (atFields arg 2)
  (if m.sim.locked && !m'.sim.locked then regSchedule m' else m', acts)

/-- The SIM lock commands. -/
def simCommand : Table :=
  [(.whole "cpin?", fun _ =>
      (m, if !m.sim.present then [cmeError ch 10]
        else if m.sim.pukLeft = 0 then [cmeError ch 13]
        else [urc ch (ascii "+CPIN: " ++ cpinStatus m.sim), atOk ch])),
    (.start "xpincnt", fun _ =>
      (m, [urc ch (ascii "+XPINCNT: " ++ decimal m.sim.pinLeft ++ ascii ",3," ++
        decimal m.sim.pukLeft ++ ascii ",10"), atOk ch])),
    (.start "cpin=", cpinCommand m ch),
    (.start "clck=", fun arg => simClck m ch (atFields arg 3)),
    (.start "cpwd=", fun arg => simCpwd m ch (atFields arg 3))]

/-! ## Commands in front of the SIM's -/

/-- Reports go back on the channel that enabled them. -/
def learnChannel (cmd : Bytes) : Modem :=
  if ch = 0 then m
  else if startsWith cmd "creg=" then { m with reg := { m.reg with cregCh := ch } }
  else if startsWith cmd "xmer=" then { m with xcievCh := ch }
  else if startsWith cmd "xcallstat=" then { m with callCh := ch }
  else if startsWith cmd "cnmi=" then { m with smsCh := ch }
  else if startsWith cmd "xsigstr=" then { m with xsigstrCh := ch }
  else if startsWith cmd "xsimstate=" then { m with xsimCh := ch }
  else m

/-- The two files of the fake SIM. -/
def crsmReply (op fid : Int) : Bytes :=
  if fid = 0x6fad ∧ op = 176 then ascii "+CRSM: 144,0,\"00000002\""
  else if fid = 0x6fad ∧ op = 192 then ascii "+CRSM: 144,0,\"000000046FAD040011FFBB01020000\""
  else if fid = 0x6f38 ∧ op = 176 then ascii "+CRSM: 144,0,\"FF000000\""
  else if fid = 0x6f38 ∧ op = 192 then ascii "+CRSM: 144,0,\"000000046F38040014FF4401020000\""
  else ascii "+CRSM: 148,4"

/-- Temperature reports, at most a day apart. -/
def temperatureCommand (n : Int) : Out :=
  let n := min n 86400
  ({ m with
    tempPeriodMs := if 0 < n then n * 1000 else 0, tempCh := ch
    tempDueMs := if 0 < n then m.nowMs + 1000 else 0 }, [atOk ch])

/-- Lines 2319-2439: the board's commands and the switch to H5. -/
def boardCommand : Table :=
  [(.start "xsigstr=", fun arg =>
      let m := { m with xsigstrOn := atoi arg = 1 }
      (m, atOk ch :: emitXsigstr m)),
    (.start "xdrv=4,0,", fun arg =>
      let v := scanInts 4 arg
      ({ m with
        vibMode := v.getD 0 0, vibPeriodMs := v.getD 2 0, vibOnMs := v.getD 3 0
        vibStartMs := m.nowMs }, [atOk ch])),
    (.start "xdrv=5,16,", fun arg => temperatureCommand m ch (atoi arg)),
    (.start "crsm=", fun arg =>
      let v := scanInts 2 arg
      (m, [urc ch (crsmReply (v.getD 0 0) (v.getD 1 0)), atOk ch])),
    (.whole "xsio?", fun _ => (m, [urc ch (ascii "+XSIO: 0,*0"), atOk ch])),
    (.start "xtransportmode", fun _ =>
      (m, (if ch = 0 && !mode.mux then [.startH5] else []) ++ [atOk ch])),
    (.start "xgendata", fun _ =>
      (m, [urc ch (if mode.h5 then ascii "+XGENDATA: \"DEV_ICE_MODEM_03.12.08_G\""
        else ascii "+XGENDATA: \"DEV_ICE2_MODEM_02.10.04\",\"BOOTLOADER_VERSION: 02.10.04\""),
        atOk ch])),
    (.whole "cgsn", fun _ => (m, [urc ch m.imei, atOk ch])),
    (.whole "cimi", fun _ => (m, [urc ch m.imsi, atOk ch])),
    (.whole "ccid", fun _ => (m, [urc ch m.iccid, atOk ch]))]

/-! ## Mode and registration -/

/-- `+CREG: 0` to a host that asked for reports. -/
def reportDetached : Out :=
  if m.isOpen m.reg.cregCh ∧ 0 < m.reg.cregN then
    ({ m with reg := { m.reg with lastCreg := 0 } }, [urc m.reg.cregCh (ascii "+CREG: 0")])
  else (m, [])

def cfunCommand (n : Int) : Out :=
  Out.andThen (m, [atOk ch]) fun m =>
    if (n = 0 ∨ n = 1 ∨ n = 4) ∧ n ≠ m.reg.cfun then
      let m := { m with reg := { m.reg with cfun := n } }
      if n = 1 then
        let m := regSchedule m
        (if m.isOpen m.xsimCh && !m.xsimPushed then { m with xsimDueMs := m.nowMs + 500 }
          else m, [])
      else
        ((releaseAll (fun _ => true) m).andThen reportDetached).andThen fun m =>
          ({ m with reg := { m.reg with regStep := 0 } }, [])
    else (m, [])

/-- A network chosen by hand: its number arrives as hex digits, three octets at most; fewer
leave what the array held. -/
def copsManual (digits : Bytes) : Modem :=
  let read := hexNibbles 3 digits []
  let plmn := (List.range 3).map fun i => read.getD i (host.stack i)
  let m := if plmn.getD 0 0 ≠ 0 ∧ plmn.getD 1 0 ≠ 0 then
      { m with reg := { m.reg with plmn := cstr plmn } } else m
  regSchedule m

def copsCommand (arg : Bytes) : Out :=
  Out.andThen (m, [atOk ch]) fun m =>
    if arg = ascii "0" then
      (regSchedule { m with reg := { m.reg with copsDetached := false } }, [])
    else if arg = ascii "2"
      then reportDetached { m with reg := { m.reg with copsDetached := true } }
    else if startsWith arg "3," then
      ({ m with reg := { m.reg with copsFormat := (arg.getD 2 0).toInt8.toInt - 48 } }, [])
    else if startsWith arg "1,2,\"" then (copsManual host m (arg.drop 5), [])
    else (m, [])

/-- The reply to `+COPS?`. -/
def copsReply : Bytes :=
  if regStat m ≠ 1 then ascii "+COPS: 0"
  else if m.reg.copsFormat = 2 then
    ascii "+COPS: 0,2," ++ quoted (strToHexstr m.reg.plmn 17)
  else
    ascii "+COPS: 0," ++ decimal m.reg.copsFormat ++ [44] ++
      quoted (strToHexstr (if m.operatorLong ≠ [] then m.operatorLong else m.reg.plmn) 17)

/-- Lines 2443-2577: the multiplexer, the power, the radio and registration. -/
def radioCommand : Table :=
  [(.start "cmux=", fun _ =>
      (m.setChan 0 { m.chans 0 with isOpen := false }, [atOk ch, .startMux])),
    (.whole "cpwroff", fun _ => ({ m with powerOffs := m.powerOffs + 1 }, [atOk ch, .powerOff])),
    (.start "cfun=", fun arg => cfunCommand m ch (atoi arg)),
    (.start "creg=", fun arg =>
      let m := { m with reg := { m.reg with cregN := atoi arg } }
      (if 0 < m.reg.cregN then regSchedule m else m, [atOk ch])),
    (.whole "creg?", fun _ =>
      (m, [urc ch (ascii "+CREG: " ++ decimal m.reg.cregN ++ [44] ++ decimal (regStat m) ++
        [44] ++ hexUpper m.reg.lac ++ [44] ++ hexUpper m.reg.ci), atOk ch])),
    (.start "cgreg=", fun arg =>
      let m := { m with reg := { m.reg with cgregN := atoi arg } }
      (if 0 < m.reg.cgregN then regSchedule m else m, [atOk ch])),
    (.start "xreg=", fun arg => ({ m with reg := { m.reg with xregN := atoi arg } }, [atOk ch])),
    (.whole "xreg?", fun _ =>
      (m, [urc ch (ascii "+XREG: " ++ decimal m.reg.xregN ++ [44] ++ decimal (xregValue m)),
        atOk ch])),
    (.whole "cgreg?", fun _ =>
      (m, [urc ch (ascii "+CGREG: " ++ decimal m.reg.cgregN ++ [44] ++ decimal (regStat m)),
        atOk ch])),
    (.start "cops=", copsCommand host m ch),
    (.whole "cops?", fun _ => (m, [urc ch (copsReply m), atOk ch])),
    (.start "xcops=", fun arg =>
      (m, [urc ch (ascii "+XCOPS: " ++ decimal (if arg ≠ ascii "7" then atoi arg else 0) ++ [44] ++
        quoted (strToHexstr m.operatorLong 65)), atOk ch])),
    (.start "xcgedpage", fun _ =>
      let rxlev := max 0 (min 63 (m.signalDbm + 110))
      (m, [urc ch (ascii "+XCGEDPAGE: RAT:\"GSM\",Rssi: " ++
        decimal (if regStat m = 1 then rxlev else 0)), atOk ch]))]

/-! ## Services, messages and calls -/

/-- The place behind the next `n` commas. -/
def afterCommas : Nat → Bytes → Option Bytes
  | 0, text => some text
  | n + 1, text =>
    match text.dropWhile (· ≠ 44) with
    | [] => none
    | _ :: rest => afterCommas n rest

/-- The class of a `+CCFC`, its fifth field. -/
def ccfcClass (arg : Bytes) : Int :=
  match afterCommas 4 arg with
  | some p => if (p.head?.map (isDigit 10)).getD false then atoi p else 7
  | none => 7

def cmgrCommand (idx : Int) : List Act :=
  let s := m.store ((idx.toNat - 1) % smsStore)
  if 1 ≤ idx ∧ s.used then
    let oct := s.pdu.length / 2
    let sca := if m.sca ≠ [] then 1 + 1 + (m.sca.length + 1) / 2 else 1
    [chanPrintf ch (crlf (ascii "+CMGR: 1,," ++ natDecimal ((oct + 2 ^ 32 - sca) % 2 ^ 32)) ++
      crlf s.pdu), atOk ch]
  else [atError ch]

/-- Lines 2600-2688. -/
def serviceCommand : Table :=
  [(.whole "csvm?", fun _ =>
      (m, [urc ch (ascii "+CSVM: 0," ++ quoted (strToHexstr m.voicemail 49) ++ ascii ",129"),
        atOk ch])),
    (.whole "csca?", fun _ =>
      (m, [urc ch (ascii "+CSCA: " ++ quoted (strToHexstr m.sca 49) ++ ascii ",129"), atOk ch])),
    (.whole "xcfc", fun _ => (m, [urc ch (ascii "+XCFC: 3"), atOk ch])),
    (.whole "xcfc?", fun _ => (m, [urc ch (ascii "+XCFC: 3"), atOk ch])),
    (.start "ccfc=", fun arg =>
      let v := scanInts 2 arg
      (m, (if v.length = 2 ∧ v.getD 1 0 = 2 then
          [urc ch (ascii "+CCFC: 0," ++ decimal (ccfcClass arg))] else []) ++ [atOk ch])),
    (.whole "ceer", fun _ => (m, [urc ch (ascii "+CEER: CC," ++ decimal m.ceerCause), atOk ch])),
    (.start "cmgs=", fun _ =>
      (m.setChan ch { m.chans ch with smsPrompt := true, line := (m.chans ch).line.clear },
        [chanPrintf ch ([13, 10] ++ ascii "> ")])),
    (.start "cmgr=", fun arg => (m, cmgrCommand m ch (atoi arg))),
    (.start "cnma", fun _ => (m, [atOk ch])),
    (.start "ctzr=", fun arg => ({ m with ctzrOn := 0 < atoi arg, ctzrCh := ch }, [atOk ch]))]

/-- The settings that are accepted and not kept. -/
def acceptedSettings : List String :=
  ["cmms=", "cnmi=", "cscb=", "xtesm=", "xmer=", "ctzu=", "xcallstat=", "clip=", "ccwa=", "cnap=",
    "cusd=", "cssn=", "xpow=", "xdrv=", "xl1set=", "ipr=", "cmee=", "xsimstate=", "cgdcont=",
    "xgauth=", "xdns=", "vts=", "xvts=", "cmgd=", "csca="]

/-- The number of `+XEMN`: 31 characters at most, quotes and spaces dropped. -/
def xemnNumber (arg : Bytes) : Bytes := (arg.filter fun c => c ≠ 34 ∧ c ≠ 32).take 31

/-- Lines 2689-2780; a call transferred away is released. -/
def callCommand : Table :=
  acceptedSettings.map (fun text => (.start text, fun _ => (m, [atOk ch]))) ++
  [(.start "ctfr=", fun _ => Out.andThen (m, [atOk ch]) (releaseAll ringing)),
    (.start "xemc=", fun arg => ({ m with xemcOn := atoi arg = 1 }, [atOk ch])),
    (.start "xemn=", fun arg =>
      let num := xemnNumber arg
      (m, [urc ch (ascii "+XEMN: " ++ quoted num ++ [44] ++
        decimal (isEmergencyNumber num).toNat), atOk ch])),
    (.start "colp=", fun arg => ({ m with colpOff := atoi arg = 0 }, [atOk ch])),
    (.whole "colp?", fun _ =>
      (m, [urc ch (ascii "+COLP: " ++ decimal (!m.colpOff).toNat ++ ascii ",1"), atOk ch])),
    (.start "cscs=", fun arg => ({ m with hexCs := ascii "hex" <:+: arg }, [atOk ch])),
    (.start "csms", fun _ => (m, [urc ch (ascii "+CSMS: 1,1,1"), atOk ch])),
    (.start "chld", fun arg =>
      chldCommand m ch (if arg.head? = some 61 then some (arg.drop 1) else none)),
    (.whole "clcc", fun _ => (m, [atOk ch]))]

/-! ## Packet data and position -/

/-- The context goes down: its channels are back in command mode and say so. -/
def dataDown (mode : Mode) (cid : Int) (i : Nat) (m : Modem) : Out :=
  if (m.chans i).dataCid = cid then
    (m.setChan i { m.chans i with dataCid := 0 },
      [.ipReset, urc i (ascii "NO CARRIER")] ++ if mode.h5 then [] else [.msc i false])
  else (m, [])

def cgactCommand (arg : Bytes) : Out :=
  if atoi arg = 0 then
    let cid := match (argAfter arg (ascii "0,")).bind (scanInt longMax64) with
      | some (v, _) => intOf v
      | none => 1
    Out.andThen ({ m with pdpActive := false }, [atOk ch])
      (forEach (List.range maxCh) (dataDown mode cid))
  else if m.dataOut && serviceOk m then ({ m with pdpActive := true }, [atOk ch])
  else (m, [cmeError ch 100])

/-- `+CGDATA`: the channel becomes raw IP. -/
def cgdataCommand (arg : Bytes) : Out :=
  if !m.pdpActive || ch = 0 then (m, [urc ch (ascii "NO CARRIER")])
  else
    let last := (arg.reverse.takeWhile (· ≠ 44)).reverse
    (m.setChan ch { m.chans ch with dataCid := if 44 ∈ arg then atoi last else 1 },
      [urc ch (ascii "CONNECT")] ++ (if mode.h5 then [] else [.msc ch true]) ++ [.ipReset])

/-- Lines 2781-2845. -/
def dataCommand : Table :=
  [(.whole "cgact?", fun _ =>
      (m, [urc ch (ascii "+CGACT: 1," ++ decimal m.pdpActive.toNat), atOk ch])),
    (.start "cgact=", cgactCommand mode m ch),
    (.start "cgpaddr=", fun arg =>
      (m, [urc ch (ascii "+CGPADDR: " ++ decimal (atoi arg) ++ ascii ",\"10.0.2.15\""), atOk ch])),
    (.whole "xdns?", fun _ => (m, [urc ch (ascii "+XDNS: 1,\"10.0.2.3\",\"0.0.0.0\""), atOk ch])),
    (.start "cgdata=", cgdataCommand mode m ch)]

def gpsReset (g : Gps) : Gps := { g with ch := -1, intervalMs := 0, dueMs := 0 }

/-- `ios_bb_gps_command`: a session is stopped or started. -/
def gpsCommand (g : Gps) (now : Int) (ch : Nat) (cmd : Bytes) : Gps :=
  if !g.present then g
  else if cmd = ascii "xlsrstop" then gpsReset g
  else
    match argAfter cmd (ascii "xlsr=") with
    | some arg =>
      let interval := match afterCommas 4 arg with
        | some f => min (atoi f) 86400
        | none => 0
      { g with
        ch, intervalMs := (if 0 < interval then interval else 1) * 1000, dueMs := now + 1000 }
    | none => g

/-! ## One line -/

/-- The table of the commands behind the `+`. -/
def commandTable : Table :=
  boardCommand mode m ch ++ simCommand m ch ++ radioCommand host m ch ++ serviceCommand m ch ++
    callCommand m ch ++ dataCommand mode m ch

/-- A command behind the `+`; every command nobody knows is answered `OK`, a session command of
the receiver too. -/
def plusCommand (cmd : Bytes) : Out :=
  let m := learnChannel m ch cmd
  (dispatch (commandTable host mode m ch) cmd).getD
    ({ m with gps := gpsCommand m.gps m.nowMs ch cmd }, [atOk ch])

/-- The command in a line: a closing semicolon dropped except from a dial string. -/
def commandOf (line : Bytes) : Bytes :=
  (if line.getLast? = some 59 ∧ line.head? ≠ some 100 then line.dropLast else line).take 599

/-- `at_command_line`: a line behind its `at`. -/
def atCommandLine (line : Bytes) : Out :=
  let cmd := commandOf line
  if let some arg := argAfter cmd (ascii "+xdrv=9,1,") then (m, [radioNvramBlock ch (atoi arg)])
  else
    match cmd with
    | [] => (m, [atOk ch])
    | 100 :: number => dialCommand m ch number
    | 43 :: plus => plusCommand host mode m ch plus
    | _ =>
      if cmd = ascii "a" then answerCommand m ch
      else if cmd = ascii "h" ∨ cmd = ascii "h0" then
        Out.andThen (m, [atOk ch]) (releaseAll fun _ => true)
      else if let some arg := argAfter cmd (ascii "s0=") then
        ({ m with s0 := atoi arg }, [atOk ch])
      else (m, [atOk ch])

/-- `at_command`: a line, then the search it may start or stop. -/
def atCommand (line : Bytes) : Out :=
  Out.andThen (atCommandLine host mode m ch line) fun m => (campUpdate m, [])

end QemuIos.Baseband

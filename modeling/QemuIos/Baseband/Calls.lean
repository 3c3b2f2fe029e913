import QemuIos.Baseband.Sms

/-!
# Calls

`hw/misc/ios_baseband_core.c:1237-1469` and `1711-1822`: the four call slots, what the network
side does to them, and the dial and `+CHLD` commands.
-/

namespace QemuIos.Baseband
open CText

variable (m : Modem)

def Modem.setCall (i : Nat) (c : Call) : Modem :=
  { m with calls := Function.update m.calls i c }

/-- `call_new`: the first free slot. -/
def callNew (mt : Bool) (number : Bytes) (stat : CallStat) : Option (Modem × Nat) :=
  match (List.range maxCalls).find? fun i => !(m.calls i).used with
  | none => none
  | some i =>
    let c : Call := { used := true, mt, id := m.nextCallId, stat, number := number.take 31 }
    some ({ m with nextCallId := m.nextCallId + 1 }.setCall i c, i)

def callById (id : Int32) : Option Nat :=
  (List.range maxCalls).find? fun i => (m.calls i).used && (m.calls i).id = id

def emitXcallstat (id : Int32) (stat : CallStat) : List Act :=
  if !m.isOpen m.callCh then []
  else [urc m.callCh (ascii "+XCALLSTAT: " ++ decimal id.toInt ++ [44] ++ decimal stat.code)]

def callRelease (i : Nat) (m : Modem) : Out :=
  let c := m.calls i
  (m.setCall i { c with used := false, stat := .released, next := .none, dueMs := 0 },
    emitXcallstat m c.id .released ++
      if c.emergency && m.xemcOn && m.isOpen m.callCh then [urc m.callCh (ascii "+XEMC: 0")]
        else [])

/-- Release every used call that passes a test when its turn comes. -/
def releaseAll (p : Call → Bool) (m : Modem) : Out :=
  forEach (List.range maxCalls) (fun i m =>
    if (m.calls i).used && p (m.calls i) then callRelease i m else (m, [])) m

def isEmergencyNumber (number : Bytes) : Bool :=
  number ∈ [ascii "112", ascii "911", ascii "000", ascii "08", ascii "110", ascii "118",
    ascii "119", ascii "999"]

def ringing (c : Call) : Bool := c.stat = .incoming || c.stat = .waiting

def underWay (c : Call) : Bool := c.stat = .active || c.stat = .dialing || c.stat = .alerting

/-- The reports that create a ringing call. -/
def callRingUrcs (i : Nat) (m : Modem) : Out :=
  let c := m.calls i
  let who := quoted (bareNumber c.number) ++ [44] ++ decimal (atTypeOf c.number)
  let active := (List.range maxCalls).any fun j =>
    (m.calls j).used && j ≠ i && underWay (m.calls j)
  let acts := emitXcallstat m c.id .incoming ++
    [urc m.callCh (ascii "+CLIP: " ++ who ++ ascii ",,,\"\",0")] ++
    (if active then [urc m.callCh (ascii "+CCWA: " ++ who ++ ascii ",1")] else []) ++
    [urc m.callCh (ascii "RING")]
  (m.setCall i { c with rings := 1, next := .ring, dueMs := m.nowMs + 3000 }, acts)

/-- `ios_bb_incoming_call`; `none` if it is refused. -/
def incomingCall (number : Bytes) : Option Out := do
  guard (m.isOpen m.callCh ∧ serviceOk m ∧ number ≠ [])
  -- a bare number of eleven digits or more is international
  let number :=
    if number.head? ≠ some 43 ∧ 11 ≤ number.length ∧ number.all (isDigit 10) then
      (43 :: number).take 33 else number
  let (m, i) ← callNew m true number .incoming
  return callRingUrcs i m

def callProgress (i : Nat) (stat : CallStat) (m : Modem) : Out :=
  let c := m.calls i
  let colp := stat = .active && !c.mt && !m.colpOff && (c.stat = .dialing || c.stat = .alerting)
  (m.setCall i { c with stat, next := .none, dueMs := 0 },
    (if colp then [urc m.callCh (ascii "+COLP: " ++ quoted c.number ++ [44] ++
        decimal (atTypeOf c.number))] else []) ++
      emitXcallstat m c.id stat)

def remoteAnswer : Out :=
  match (List.range maxCalls).find? fun i => (m.calls i).used &&
      ((m.calls i).stat = .dialing || (m.calls i).stat = .alerting) with
  | some i => callProgress i .active m
  | none => (m, [])

def remoteHangup : Out :=
  match (List.range maxCalls).find? fun i => (m.calls i).used && (m.calls i).stat ≠ .released with
  | some i => callRelease i { m with ceerCause := 16 }
  | none => (m, [])

/-! ## Commands -/

def ringingCall : Option Nat :=
  (List.range maxCalls).find? fun i => (m.calls i).used && ringing (m.calls i)

/-- `+CHLD`: the reply comes first, then the reports. -/
def chldCommand (ch : Nat) (arg : Option Bytes) : Out :=
  let what := (arg.getD []).take 7
  Out.andThen (m, [atOk ch]) fun m =>
    match what.head? with
    | some 48 => releaseAll (fun c => c.stat = .held || ringing c) m
    | some 49 =>
      if what.length = 1 then releaseAll underWay m
      else
        match callById m (.ofInt (atoi (what.drop 1))) with
        | some i => callRelease i m
        | none => (m, [])
    | some 50 =>
      match ringingCall m with
      | some i =>
        (forEach (List.range maxCalls) (fun j m =>
          if (m.calls j).used && j ≠ i && (m.calls j).stat = .active then callProgress j .held m
          else (m, [])) m).andThen (callProgress i .active)
      | none =>
        forEach (List.range maxCalls) (fun i m =>
          if (m.calls i).used && (m.calls i).stat = .active then callProgress i .held m
          else if (m.calls i).used && (m.calls i).stat = .held then callProgress i .active m
          else (m, [])) m
    | some 51 =>
      forEach (List.range maxCalls) (fun i m =>
        if (m.calls i).used && (m.calls i).stat = .held then callProgress i .active m
        else (m, [])) m
    | _ => (m, [])

/-- The number of a dial string: 31 characters up to a semicolon, without spaces. -/
def dialNumber : Bytes → Bytes → Bytes
  | [], num => num
  | c :: rest, num =>
    if num.length < 31 then
      if c = 59 then num else dialNumber rest (if c ≠ 32 then num ++ [c] else num)
    else num

def dialCommand (ch : Nat) (num : Bytes) : Out :=
  let nbuf := dialNumber num []
  if nbuf = [] || !m.isOpen m.callCh ||
      !(if isEmergencyNumber nbuf then radioOk m else serviceOk m) then (m, [atError ch])
  else
    match callNew m false nbuf .dialing with
    | none => (m, [atError ch])
    | some (m, i) =>
      let m := { m with lastDialed := nbuf.take 31 }
      let emergency := isEmergencyNumber nbuf
      let acts := atOk ch ::
        (if emergency && m.xemcOn then [urc m.callCh (ascii "+XEMC: 1")] else []) ++
        emitXcallstat m (m.calls i).id .dialing
      (m.setCall i { m.calls i with
        emergency, next := .stat .alerting, dueMs := m.nowMs + 2000 }, acts)

/-- `ATA`: the first ringing call. -/
def answerCommand (ch : Nat) : Out :=
  match ringingCall m with
  | some i => Out.andThen (m, [atOk ch]) (callProgress i .active)
  | none => (m, [urc ch (ascii "NO CARRIER")])

/-- One call's turn in `ios_bb_tick`. -/
def callTick (i : Nat) (m : Modem) : Out :=
  let c := m.calls i
  if !c.used then (m, [])
  else if c.next = .ring ∧ c.dueMs ≤ m.nowMs then
    let m := m.setCall i { c with rings := c.rings + 1 }
    Out.andThen (m, [urc m.callCh (ascii "RING")]) fun m =>
      if 0 < m.s0 ∧ m.s0 ≤ (m.calls i).rings then callProgress i .active m
      else (m.setCall i { m.calls i with dueMs := m.nowMs + 3000 }, [])
  else if c.dueMs ≤ m.nowMs then
    match c.next with
    | .stat .alerting =>
      let acts := emitXcallstat m c.id .alerting
      if 0 ≤ m.answerDelayMs then
        (m.setCall i { c with
          stat := .alerting, next := .stat .active
          dueMs := m.nowMs + if m.answerDelayMs ≠ 0 then m.answerDelayMs else 100 }, acts)
      else (m.setCall i { c with stat := .alerting, next := .none }, acts)
    | .stat .active => callProgress i .active m
    | .stat _ => (m.setCall i { c with next := .none }, [])
    | _ => (m, [])
  else (m, [])

end QemuIos.Baseband

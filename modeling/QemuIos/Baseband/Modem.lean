import QemuIos.Baseband.Gsm7
import QemuIos.Lib.Buffer

/-!
# The modem behind the link

`include/hw/misc/ios_baseband_core.h`: the state of the AT engine with its network, SIM, call
and SMS model, and what a command can make the transport do. The engine never looks at what
the transport does with its output, so a command is a function from the state to the next one
and a list of actions in order.
-/

namespace QemuIos.Baseband
open CText

abbrev maxCh : Nat := 16
abbrev maxCalls : Nat := 4
abbrev smsStore : Nat := 4

/-- `IosBbAtChan`; the fill count of `line` is `len`. -/
structure AtChan where
  line : Buf 599 := .zero
  isOpen : Bool := false
  smsPrompt : Bool := false
  dataCid : Int := 0

/-- The `+XCALLSTAT` states. -/
inductive CallStat where
  | active
  | held
  | dialing
  | alerting
  | incoming
  | waiting
  | released
  deriving DecidableEq, Repr

def CallStat.code : CallStat → Int
  | .active => 0
  | .held => 1
  | .dialing => 2
  | .alerting => 3
  | .incoming => 4
  | .waiting => 5
  | .released => 6

/-- `next_stat`: nothing (-1), the next ring (-2) or a scripted step. -/
inductive NextStat where
  | none
  | ring
  | stat (s : CallStat)
  deriving DecidableEq, Repr

structure Call where
  used : Bool := false
  mt : Bool := false
  id : Int32 := 0
  stat : CallStat := .active
  next : NextStat := .none
  dueMs : Int := 0
  rings : Int := 0
  emergency : Bool := false
  number : Bytes := []
  deriving DecidableEq, Repr

structure SmsSlot where
  used : Bool := false
  num : Bytes := []
  pdu : Bytes := []
  deriving DecidableEq, Repr

/-- The codes of a SIM card. -/
inductive Code where
  | pin
  | puk
  deriving DecidableEq, Repr

/-- The SIM card with its lock, and the file that keeps it: whether one is set and can be
written, and what is in it. `compared` records the codes that were compared with the card's and
whether they were right. -/
structure Sim where
  present : Bool := true
  pinOn : Bool := false
  pinOk : Bool := false
  pin : Bytes := []
  puk : Bytes := []
  pinLeft : Int := 0
  pukLeft : Int := 0
  lociPlmn : Bytes := []
  fileSet : Bool := false
  writable : Bool := true
  file : Option Bytes := none
  compared : List (Code × Bool) := []
  deriving DecidableEq, Repr

/-- Network registration. -/
structure Reg where
  cfun : Int := 0
  registered : Bool := false
  searchMs : Nat := 0
  plmn : Bytes := []
  lac : Nat := 0
  ci : Nat := 0
  copsFormat : Int := 0
  copsDetached : Bool := false
  cregN : Int := 0
  cregCh : Nat := 0
  xregN : Int := 0
  cgregN : Int := 0
  lastCreg : Int := 0
  regStep : Nat := 0
  regDueMs : Int := 0
  campDueMs : Int := 0
  campNoted : Bool := false
  deriving DecidableEq, Repr

/-- The GPS receiver's session. -/
structure Gps where
  present : Bool := false
  fix : Bool := false
  ch : Int := -1
  intervalMs : Int := 0
  dueMs : Int := 0
  deriving DecidableEq, Repr

structure Modem where
  nowMs : Int := 0
  wallOffsetMs : Int := 0
  operatorLong : Bytes := []
  sca : Bytes := []
  voicemail : Bytes := []
  imei : Bytes := []
  imsi : Bytes := []
  iccid : Bytes := []
  signalDbm : Int := 0
  battery : Int := 0
  answerDelayMs : Int := 0
  nitz : Bool := false
  ctzrOn : Bool := false
  ctzrCh : Nat := 0
  sim : Sim := {}
  reg : Reg := {}
  chans : Nat → AtChan := fun _ => {}
  hexCs : Bool := false
  colpOff : Bool := false
  xemcOn : Bool := false
  powerOffs : Nat := 0
  xsigstrOn : Bool := false
  xsigstrCh : Nat := 0
  xcievCh : Nat := 0
  xsimCh : Nat := 0
  callCh : Nat := 0
  smsCh : Nat := 0
  s0 : Int := 0
  lastRssi : Int := 0
  lastBatt : Int := 0
  simLast : Bool := false
  xsimDueMs : Int := 0
  xsimPushed : Bool := false
  tempPeriodMs : Int := 0
  tempCh : Nat := 0
  tempDueMs : Int := 0
  vibMode : Int := 0
  vibPeriodMs : Int := 0
  vibOnMs : Int := 0
  vibStartMs : Int := 0
  nextCallId : Int32 := 0
  calls : Nat → Call := fun _ => {}
  ceerCause : Int := 0
  smsMr : Nat := 0
  lastMoNum : Bytes := []
  lastMoText : Bytes := []
  moCount : Nat := 0
  store : Nat → SmsSlot := fun _ => {}
  storeNext : Nat := 0
  lastDialed : Bytes := []
  dataOut : Bool := false
  pdpActive : Bool := false
  gps : Gps := {}

/-- What the engine gets from the C library and the board: the `+CTZV` line and the seven
timestamp octets of a time in milliseconds, the text of a GPS report, and what an array on the
stack holds before it is written. -/
structure Host where
  ctzv : Int → Bytes
  scts : Int → Bytes
  fixText : Bytes
  stack : Nat → UInt8

/-- A host without a board. -/
def bareHost : Host := ⟨fun _ => [], fun _ => [], [], fun _ => 0⟩

/-- The modes of the transport a command looks at. -/
structure Mode where
  h5 : Bool
  mux : Bool
  deriving DecidableEq, Repr

/-- What a command makes the transport do. -/
inductive Act where
  /-- `chan_write`. -/
  | write (ch : Nat) (text : Bytes)
  /-- `mx_msc`. -/
  | msc (dlci : Nat) (dv : Bool)
  /-- `ip_rxlen = 0`. -/
  | ipReset
  | startH5
  | startMux
  | powerOff
  deriving DecidableEq, Repr

/-- The next state and the actions in order. -/
abbrev Out := Modem × List Act

def Out.andThen (o : Out) (f : Modem → Out) : Out := ((f o.1).1, o.2 ++ (f o.1).2)

/-- A step for each number in order. -/
def forEach (is : List Nat) (f : Nat → Modem → Out) (m : Modem) : Out :=
  is.foldl (fun o i => o.andThen (f i)) (m, [])

/-! ## Lines -/

/-- A line on the wire. -/
def crlf (text : Bytes) : Bytes := [13, 10] ++ text ++ [13, 10]

/-- `chan_printf`, whose buffer holds 511 characters. -/
def chanPrintf (ch : Nat) (text : Bytes) : Act := .write ch (text.take 511)

/-- A reply or report of one line. -/
def urc (ch : Nat) (text : Bytes) : Act := chanPrintf ch (crlf text)

def atOk (ch : Nat) : Act := urc ch (ascii "OK")
def atError (ch : Nat) : Act := urc ch (ascii "ERROR")
def cmeError (ch : Nat) (err : Int) : Act := urc ch (ascii "+CME ERROR: " ++ decimal err)

def quoted (text : Bytes) : Bytes := 34 :: text ++ [34]

/-- `%X`. -/
def hexUpper (n : Nat) : Bytes :=
  (Nat.toDigits 16 n).map fun c => UInt8.ofNat c.toUpper.toNat

def hexDigit (n : Nat) : UInt8 := UInt8.ofNat (if n < 10 then 48 + n else 55 + n)

def bytesToHex (bytes : Bytes) : Bytes :=
  bytes.flatMap fun b => [hexDigit (b.toNat / 16), hexDigit (b.toNat % 16)]

/-- `str_to_hexstr` into a buffer of `max`. -/
def strToHexstr (s : Bytes) (max : Nat) : Bytes := bytesToHex (s.take ((max - 1) / 2))

/-- The value of an `int` the C library reads through a `long`. -/
def intOf (v : Int) : Int := Int.bmod v (2 ^ 32)

def longMax64 : Nat := 2 ^ 63 - 1

def atoi (text : Bytes) : Int := intOf (strtol longMax64 text).1

/-- If a command starts with a pattern, what follows. -/
def argAfter (cmd pat : Bytes) : Option Bytes :=
  if pat.isPrefixOf cmd then some (cmd.drop pat.length) else none

def startsWith (cmd : Bytes) (pat : String) : Bool := (ascii pat).isPrefixOf cmd

/-- The conversions `%d,%d,…` of `sscanf`, as many as match. -/
def scanInts : Nat → Bytes → List Int
  | 0, _ => []
  | n + 1, text =>
    match scanInt longMax64 text with
    | none => []
    | some (v, rest) =>
      intOf v :: (match rest with
        | 44 :: rest => scanInts n rest
        | _ => [])

def atTypeOf (number : Bytes) : Int := if number.head? = some 43 then 145 else 129

/-- A number without the `+` that its type already says. -/
def bareNumber (number : Bytes) : Bytes := if number.head? = some 43 then number.drop 1 else number

end QemuIos.Baseband

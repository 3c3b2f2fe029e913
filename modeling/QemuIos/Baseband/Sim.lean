import QemuIos.Baseband.Modem

/-!
# The SIM card

`hw/misc/ios_baseband_core.c:1990-2133`: the PIN and PUK of the card with their try counters,
the one-line text file that keeps them across power-offs, and the check of a presented PIN.
-/

namespace QemuIos.Baseband
open CText

abbrev pinTries : Int := 3
abbrev pukTries : Int := 10

/-- `min` to 8 digits. -/
def simCodeOk (s : Bytes) (min : Nat) : Bool :=
  min ≤ s.length && s.length ≤ 8 && s.all (isDigit 10)

/-! ## The file -/

/-- A literal of a `scanf` format; an error is the place where it stopped. -/
def litScan : Bytes → Bytes → Except Bytes Bytes
  | [], text => .ok text
  | c :: lit, d :: text => if c = d then litScan lit text else .error (d :: text)
  | _ :: _, [] => .error []

def intScan (text : Bytes) : Except Bytes (Int × Bytes) :=
  match scanInt longMax64 text with
  | some (v, rest) => .ok (intOf v, rest)
  | none => .error (scanSign (text.dropWhile isSpace)).2

def wordScan (width : Nat) (text : Bytes) : Except Bytes (Bytes × Bytes) :=
  match scanWord width text with
  | some (word, rest) => .ok (word, rest)
  | none => .error (text.dropWhile isSpace)

/-- The five fields of a `sim-pin` line. -/
structure SimLine where
  on : Int
  pin : Bytes
  puk : Bytes
  pinLeft : Int
  pukLeft : Int
  deriving DecidableEq, Repr

/-- `fscanf(f, "sim-pin %d %15s %15s %d %d", …)`: the fields, or where it stopped. -/
def scanSimLine (text : Bytes) : Except Bytes (SimLine × Bytes) := do
  let text ← litScan (ascii "sim-pin") text
  let (on, text) ← intScan text
  let (pin, text) ← wordScan 15 text
  let (puk, text) ← wordScan 15 text
  let (pinLeft, text) ← intScan text
  let (pukLeft, text) ← intScan text
  return (⟨on, pin, puk, pinLeft, pukLeft⟩, text)

/-- `fscanf(f, " loci %6[0-9]", loci)`, and at least five digits. -/
def scanLoci (text : Bytes) : Option Bytes :=
  match litScan (ascii "loci") (text.dropWhile isSpace) with
  | .ok rest =>
    let loci := ((rest.dropWhile isSpace).takeWhile (isDigit 10)).take 6
    if 5 ≤ loci.length then some loci else none
  | .error _ => none

def SimLine.ok (line : SimLine) : Bool :=
  simCodeOk line.pin 4 && simCodeOk line.puk 8 && 0 ≤ line.pinLeft && line.pinLeft ≤ pinTries &&
    0 ≤ line.pukLeft && line.pukLeft ≤ pukTries

namespace Sim

variable (s : Sim)

/-- A locked SIM has to be unlocked before anything but an emergency call. -/
def locked : Bool := s.present && (s.pinLeft = 0 || (s.pinOn && !s.pinOk))

/-- What `sim_save` writes. -/
def text : Bytes :=
  ascii "sim-pin " ++ decimal s.pinOn.toNat ++ [32] ++ s.pin ++ [32] ++ s.puk ++ [32] ++
    decimal s.pinLeft ++ [32] ++ decimal s.pukLeft ++ [10] ++
    if s.lociPlmn = [] then [] else ascii "loci " ++ s.lociPlmn ++ [10]

def save : Sim :=
  if s.fileSet && s.writable then { s with file := some s.text } else s

/-- A SIM as a carrier ships it. -/
def fresh : Sim :=
  { s with
    pinOn := false, pin := ascii "1111", puk := ascii "12345678"
    pinLeft := pinTries, pukLeft := pukTries, lociPlmn := [] }

/-- What a file says about a card. -/
def readFrom (text : Bytes) : Sim :=
  let (line, rest) := match scanSimLine text with
    | .ok (line, rest) => (some line, rest)
    | .error rest => (none, rest)
  let s := match line.filter (·.ok) with
    | some line =>
      { s with
        pinOn := line.on ≠ 0, pin := line.pin, puk := line.puk
        pinLeft := line.pinLeft, pukLeft := line.pukLeft }
    | none => s
  match scanLoci rest with
  | some loci => { s with lociPlmn := loci }
  | none => s

/-- `sim_load`: a new SIM, or the one the file describes. -/
def load : Sim :=
  match s.fileSet, s.file with
  | true, some text => s.fresh.readFrom text
  | _, _ => s.fresh

/-- `sim_check_pin`: the card after a PIN was presented, and the error sent if it was refused. -/
def checkPin (pin : Bytes) : Sim × Option Int :=
  if s.pinLeft = 0 then (s, some 12)
  else if pin = s.pin then
    ({ s with
      pinLeft := pinTries, pinOk := true, compared := s.compared ++ [(Code.pin, true)] }.save, none)
  else
    let left := s.pinLeft - 1
    ({ s with
      pinLeft := left, pinOk := s.pinOk && left ≠ 0
      compared := s.compared ++ [(Code.pin, false)] }.save, some 16)

end Sim

/-! ## Arguments -/

/-- The fields of an argument from a place on: in quotes or not, those done, the current one. -/
def atFieldsFrom (max : Nat) : Bytes → Bool → List Bytes → Bytes → List Bytes
  | [], _, done, cur => done ++ [cur]
  | c :: rest, inQuotes, done, cur =>
    if c = 34 then atFieldsFrom max rest (!inQuotes) done cur
    else if c = 44 && !inQuotes then
      if done.length + 1 = max then done ++ [cur]
      else atFieldsFrom max rest inQuotes (done ++ [cur]) []
    else atFieldsFrom max rest inQuotes done (if cur.length < 23 then cur ++ [c] else cur)

/-- Up to `max` comma-separated fields, quotes dropped, each cut at 23 characters. -/
def atFields (arg : Bytes) (max : Nat) : List Bytes :=
  if arg = [] then [] else atFieldsFrom max arg false [] []

end QemuIos.Baseband

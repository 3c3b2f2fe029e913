import QemuIos.Lib.CText

/-!
# Offers

`contrib/it-boot/it_boot.c:414-519`: the line text a host offers and a package keeps as its
own record. The loader is built for armv6 and armv7 (`contrib/it-boot/build.sh`), where `long`
and `unsigned long` have 32 bits.
-/

namespace QemuIos.ItBoot
open CText

/-- `LONG_MAX` of the guest. -/
def longMax : Nat := 2 ^ 31 - 1

/-- `ULONG_MAX` of the guest. -/
def ulongMax : Nat := 2 ^ 32 - 1

def offerMax : Nat := 64 * 1024
def fileMax : Nat := 16 * 1024 * 1024
def maxEnt : Nat := 64
abbrev maxSerials : Nat := 16

/-- `struct entry`'s `kind`: `'f'`, `'j'` or `'h'`. -/
inductive Kind where
  | file
  | job
  | hook
  deriving DecidableEq, Repr

structure Entry where
  kind : Kind
  idx : Nat
  path : Bytes
  mode : Nat
  size : Nat
  sha : Bytes
  target : Bytes
  respring : Bool
  deriving DecidableEq, Repr

structure Offer where
  serial : Int := -1
  build : Bytes := []
  entries : List Entry := []
  good : List Int := []
  bad : List Int := []
  deriving DecidableEq, Repr

/-- A relative path that cannot climb out of its directory. -/
def safeRel (p : Bytes) : Bool :=
  p ≠ [] && p.head? ≠ some 47 && !decide (ascii ".." <:+: p) && p.length < 255

/-- An absolute stock path that cannot be mistaken for a temporary name. -/
def safeAbs (p : Bytes) : Bool :=
  p.head? = some 47 && !decide (ascii ".." <:+: p) && !decide (ascii ".lt-new" <:+: p) &&
    p.length < 240

/-- A whole token that is a number from 0 to `LONG_MAX`. -/
def parseLong (s : Bytes) : Option Nat :=
  if s = [] then none
  else
    match strtol longMax s with
    | (v, rest, erange) => if rest ≠ [] || erange || v < 0 then none else some v.toNat

def isHex64 (s : Bytes) : Bool :=
  s.length = 64 && s.all fun c => (48 ≤ c && c ≤ 57) || (97 ≤ c && c ≤ 102)

/-- The delimiters inside a line: space, tab and carriage return. -/
def isBlank (c : UInt8) : Bool := (c == 32 || c == 9) || c == 13

/-- At most ten tokens of a line are looked at. -/
def lineTokens (line : Bytes) : List Bytes := (tokens isBlank line).take 10

/-- What a line after the header is about. -/
inductive Word where
  | build
  | serial
  | verdict
  | payload (kind : Kind)
  | other
  deriving DecidableEq, Repr

def Word.ofToken (token : Bytes) : Word :=
  if token = ascii "build" then .build
  else if token = ascii "serial" then .serial
  else if token = ascii "verdict" then .verdict
  else if token = ascii "file" then .payload .file
  else if token = ascii "job" then .payload .job
  else if token = ascii "hook" then .payload .hook
  else .other

/-- The fields of a `file`, `job` or `hook` line with at least six tokens. -/
def parseEntry (kind : Kind) (idx path mode size sha : Bytes) (more : List Bytes) :
    Option Entry := do
  let (bits, modeEnd) := strtoul ulongMax 8 mode
  let idx ← parseLong idx
  guard (modeEnd = [] ∧ bits ≤ 0o7777)
  let size ← parseLong size
  guard (size ≤ fileMax ∧ safeRel path ∧ isHex64 sha)
  let entry : Entry :=
    { kind, idx, path, mode := bits, size, sha, target := [], respring := false }
  match kind, more with
  | .hook, [] => none
  | .hook, target :: flags =>
    guard (safeAbs target)
    return { entry with target, respring := flags.head? = some (ascii "respring") }
  | _, _ => return entry

/-- One line after the header. A line of a later protocol, and one with too few tokens, is
ignored; `none` is `-EINVAL`. -/
def parseLine (o : Offer) (word : Bytes) (args : List Bytes) : Option Offer :=
  match Word.ofToken word, args with
  | .build, build :: _ => some { o with build := build.take 31 }
  | .serial, serial :: _ => (parseLong serial).map fun s : Nat => { o with serial := (s : Int) }
  | .verdict, verdict :: serial :: _ => do
      let s ← parseLong serial
      if verdict = ascii "good" ∧ o.good.length < maxSerials then
        return { o with good := o.good ++ [(s : Int)] }
      else if verdict = ascii "bad" ∧ o.bad.length < maxSerials then
        return { o with bad := o.bad ++ [(s : Int)] }
      else return o
  | .payload kind, idx :: path :: mode :: size :: sha :: more => do
      guard (o.entries.length ≠ maxEnt)
      let entry ← parseEntry kind idx path mode size sha more
      return { o with entries := o.entries ++ [entry] }
  | _, _ => some o

/-- One line of the text, once it is known whether the header was seen. -/
def parseStep (seen : Bool × Offer) (line : Bytes) : Option (Bool × Offer) :=
  match lineTokens line with
  | [] => some seen
  | word :: args =>
    if seen.1 then (parseLine seen.2 word args).map fun o => (true, o)
    else if word = ascii "ltpkg" ∧ args.head? = some (ascii "1") then some (true, seen.2)
    else none

def parseOffer (text : Bytes) : Option Offer := do
  let (header, o) ← (tokens (· == 10) (cstr text)).foldlM parseStep (false, {})
  guard (header ∧ 0 ≤ o.serial)
  return o

end QemuIos.ItBoot

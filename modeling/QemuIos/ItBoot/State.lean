import QemuIos.Lib.Fifo
import QemuIos.Lib.Sizes
import QemuIos.ItBoot.Offer

/-!
# The state file

`contrib/it-boot/it_boot.c:549-626`: `ROOT/state`, read line by line with `sscanf` and written
back whole. The reader's buffer holds 8192 bytes and the writer's 16384.
-/

namespace QemuIos.ItBoot
open CText

def maxHooks : Nat := 32

/-- A hook target the loader remembers, with its `respring` flag. -/
structure Hook where
  target : Bytes
  respring : Int
  deriving DecidableEq, Repr

structure State where
  seed : Int := -1
  previous : Int := -1
  good : Int := -1
  tries : Int := 0
  bad : Fifo Int maxSerials := .empty
  hooks : List Hook := []
  deriving DecidableEq, Repr

def addBad (st : State) (s : Int) : State := { st with bad := st.bad.add s }

/-- `sscanf(line, "hook %d %255s", &respring, target) == 2`. -/
def scanHook (line : Bytes) : Option Hook :=
  if ascii "hook" <+: line then do
    let (respring, rest) ← scanInt longMax (line.drop 4)
    let (target, _) ← scanWord 255 rest
    return { target, respring }
  else none

/-- `sscanf(line, "%15s %ld", key, &v) == 2`. -/
def scanKey (line : Bytes) : Option (Bytes × Int) := do
  let (key, rest) ← scanWord 15 line
  let (v, _) ← scanInt longMax rest
  return (key, v)

def setKey (st : State) (key : Bytes) (v : Int) : State :=
  if key = ascii "seed" then { st with seed := v }
  else if key = ascii "previous" then { st with previous := v }
  else if key = ascii "good" then { st with good := v }
  else if key = ascii "tries" then { st with tries := v }
  else if key = ascii "bad" then addBad st v
  else st

/-- The hook of a line, when it is one that is taken over. -/
def takenHook (st : State) (line : Bytes) : Option Hook :=
  (scanHook line).filter fun hook => safeAbs hook.target && st.hooks.length < maxHooks

def stateLine (st : State) (line : Bytes) : State :=
  match takenHook st line with
  | some hook => { st with hooks := st.hooks ++ [hook] }
  | none =>
    match scanKey line with
    | some (key, v) => setKey st key v
    | none => st

/-- The state in the file, and whether there was a file. -/
def loadState (file : Option Bytes) : State × Bool :=
  match file with
  | none => ({}, false)
  | some data => ((tokens (· == 10) (cstr (data.take 8191))).foldl stateLine {}, true)

def stateText (st : State) : Bytes :=
  ascii "seed " ++ decimal st.seed ++ ascii "\nprevious " ++ decimal st.previous ++
    ascii "\ngood " ++ decimal st.good ++ ascii "\ntries " ++ decimal st.tries ++ [10] ++
    st.bad.items.flatMap (fun s => ascii "bad " ++ decimal s ++ [10]) ++
    st.hooks.flatMap (fun h => ascii "hook " ++ decimal h.respring ++ [32] ++ h.target ++ [10])

end QemuIos.ItBoot

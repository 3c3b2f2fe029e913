import QemuIos.Lib.FileTree
import QemuIos.ItBoot.State

/-!
# A boot of the device

What `it_boot` works on: the files under `ROOT`, the stock system volume its hooks go to, and
the host behind the `QC_PKG_*` calls. A hook's target is a stock path (`struct entry`), so the
volume and `ROOT` are separate trees, as they are in `tests/guest-package/it-boot-test-host.h`.

Everything that can go wrong is decided from outside: `Env.fails` says which operation of the
run fails, `Env.survives` what an `rmtree` leaves behind, and `Boot.power` how many more
filesystem steps take effect before the power is cut. The temporary names `current.lt-new` and
`state.lt-new` are never read and are removed at the start of every run; they are left out.
-/

namespace QemuIos.ItBoot
open CText FileTree

/-- `ROOT/state`, the text of the link `ROOT/current`, the tree under `ROOT/pkgs`, and the
system volume. What `stat` calls the size of a directory is up to the filesystem. -/
structure Disk where
  state : Option Bytes
  current : Option Bytes
  pkgs : Tree
  sys : Tree
  dirSize : Tree → Loc → Nat

/-- The four places that flip `current`. -/
inductive Flip where
  | recover
  | verdict
  | switch
  | tries
  deriving DecidableEq, Repr

inductive FetchOp where
  | mkparent
  | «open»
  | write (off : Nat)
  | fsync
  | chmod
  deriving DecidableEq, Repr

inductive HookOp where
  | link
  | keep
  | mkAbsent
  | absent
  | unlink
  | mkparent
  | copy
  deriving DecidableEq, Repr

/-- The operations of a run that can fail by themselves, each reached at most once. -/
inductive Op where
  | flip (why : Flip)
  | saveState
  | clock
  | stage
  | fetch (entry : Nat) (op : FetchOp)
  | record
  | rename
  | hook (k : Nat) (op : HookOp)
  deriving DecidableEq, Repr

/-- The places where `rmtree` is called. -/
inductive Removal where
  | torn
  | stale
  | old
  | failed
  deriving DecidableEq, Repr

/-- The host's answers to `QC_PKG_OFFER` and `QC_PKG_READ`: the return value of a call of
length 0, and return value and bytes of a window. -/
structure Host where
  offerSize : Int
  offerWindow : Nat → Nat → Int × Bytes
  payloadSize : Nat → Int
  payloadWindow : Nat → Nat → Nat → Int × Bytes

/-- The host of `hw/arm/guest-package.c` with an offer and its payloads by index. -/
def Host.serving (offer : Bytes) (payloads : List Bytes) : Host :=
  let answer (data : Bytes) (off want : Nat) : Int × Bytes :=
    (((data.drop off).take want).length, (data.drop off).take want)
  { offerSize := offer.length
    offerWindow := answer offer
    payloadSize := fun i => (payloads[i]?.map fun data => (data.length : Int)).getD (-1)
    payloadWindow := fun i off want =>
      (payloads[i]?.map fun data => answer data off want).getD (-1, []) }

/-- What one run meets. `sha256` is `CC_SHA256` as hex digits, where libSystem has it. -/
structure Env where
  host : Host
  readonly : Bool
  build : Bytes
  sha256 : Option (Bytes → Bytes)
  expired : Nat → Nat → Bool
  fails : Op → Bool
  survives : Removal → Loc → Bool

structure Report where
  token : Nat
  result : Int
  text : Bytes
  deriving DecidableEq, Repr

/-- The device during a run. `power` counts the filesystem steps until the power is cut
(`none`: it stays on); `launched` are the `launchctl` calls with their arguments. -/
structure Boot where
  disk : Disk
  power : Option Nat := none
  launched : List (Bytes × Bytes) := []
  reports : List Report := []
  respringNeeded : Bool := false

def Boot.dead (b : Boot) : Bool := b.power = some 0

/-- One filesystem step. -/
def Boot.write (b : Boot) (f : Disk → Disk) : Boot :=
  if b.dead then b else { b with disk := f b.disk, power := b.power.map (· - 1) }

/-- `launchctl` calls, made only by a device that still runs. -/
def Boot.launch (b : Boot) (calls : List (Bytes × Bytes)) : Boot :=
  if b.dead then b else { b with launched := b.launched ++ calls }

/-- A call on the package tree: `none` when it fails. -/
def Boot.onPkgs (b : Boot) (fault : Bool) (f : Tree → Except Errno Tree) : Option Boot :=
  match fault, f b.disk.pkgs with
  | false, .ok t => some (b.write fun d => { d with pkgs := t })
  | _, _ => none

/-- A call on the system volume: `none` when it fails. -/
def Boot.onSys (b : Boot) (fault : Bool) (f : Tree → Except Errno Tree) : Option Boot :=
  match fault, f b.disk.sys with
  | false, .ok t => some (b.write fun d => { d with sys := t })
  | _, _ => none

def enoent : Int := -2
def eio : Int := -5
def enoexec : Int := -8
def einval : Int := -22
def etimedout : Int := -60
def ebadmsg : Int := -94

/-- `readlink` of `ROOT/current`, when it names a package. -/
def currentSerial (d : Disk) : Int :=
  match d.current with
  | none => -1
  | some text =>
    let name := text.take 511
    if name.length ≤ 5 then -1
    else if name.take 5 = ascii "pkgs/" then ((parseLong (name.drop 5)).map Int.ofNat).getD (-1)
    else -1

/-- Point `current` at a package: a symbolic link under a temporary name, then a rename. -/
def flip (env : Env) (why : Flip) (serial : Int) (b : Boot) : Boot × Int :=
  if env.fails (.flip why) then (b, eio)
  else (b.write fun d => { d with current := some (ascii "pkgs/" ++ decimal serial) }, 0)

/-- Write the state file through a temporary name. -/
def saveState (env : Env) (st : State) (b : Boot) : Boot × Int :=
  if 16384 ≤ (stateText st).length || env.fails .saveState then (b, eio)
  else (b.write fun d => { d with state := some (stateText st) }, 0)

end QemuIos.ItBoot

import QemuIos.ItBoot.Hooks

/-!
# One run of the loader

`contrib/it-boot/it_boot.c:923-1119`: `it_boot_run`, cut into the parts its comments mark. The
parts pass the locals of the C function along in `Locals`. Two of its fields are not in the
source and record what happened: `added`, the serials this run appended to the bad list, and
`moves`, the changes of `current`.
-/

namespace QemuIos.ItBoot
open CText FileTree

def maxTries : Int := 2

def rUnchanged : Int := 0
def rInstalled : Int := 1
def rSwitched : Int := 2
def rRevertedBad : Int := 3
def rRevertedTries : Int := 4
def rRefused : Int := 5
def rReadOnly : Int := 6

/-- The packages a revert considers, in order. -/
def State.order (st : State) : List Int := [st.previous, st.good, st.seed]

/-- Whether a revert may go to a package. -/
def State.usable (st : State) (d : Disk) (cur s : Int) : Bool :=
  0 ≤ s && s ≠ cur && decide (s ∉ st.bad) && pkgOk d s

def revertTarget (st : State) (d : Disk) (cur : Int) : Int :=
  (st.order.find? (st.usable d cur)).getD (-1)

/-- A change of `current`: the bad list at that moment, what the run had appended to it by
then, and the disk right after. -/
structure Move where
  why : Flip
  serial : Int
  bad : Fifo Int maxSerials
  added : List Int
  after : Disk

structure Locals where
  boot : Boot
  st : State
  cur : Int
  result : Int := rUnchanged
  verdict : Bool := false
  added : List Int := []
  moves : List Move := []

/-- The change of `current` by a flip that worked, unless the power was gone. -/
def movesOf (why : Flip) (serial : Int) (bad : Fifo Int maxSerials) (added : List Int)
    (before after : Boot) : List Move :=
  if before.dead then [] else [⟨why, serial, bad, added, after.disk⟩]

/-- `add_bad`, recorded when it appends. -/
def Locals.markBad (l : Locals) (s : Int) : Locals :=
  { l with st := addBad l.st s, added := if s ∈ l.st.bad then l.added else l.added ++ [s] }

variable (env : Env)

/-- Lines 964-979: a staging directory is never trusted. -/
def removeTorn (b : Boot) : Boot :=
  b.write fun d =>
    { d with pkgs := fun l =>
        match l with
        | name :: _ =>
          if 4 < name.length && ascii ".tmp" <:+ name && !env.survives .torn l then none
          else d.pkgs l
        | [] => d.pkgs l }

/-- The loaded state; without a file the current package is the seed. -/
def bootState (file : Option Bytes) (cur : Int) : State :=
  match loadState file with
  | (st, true) => st
  | (st, false) => { st with seed := cur }

/-- Lines 958-995: remove torn installs, load the state, and fall back to the seed when the
current package is unusable. -/
def recover (b : Boot) : Locals :=
  let b := removeTorn env b
  let file := b.disk.state
  let st := (loadState file).1
  let cur := currentSerial b.disk
  if pkgOk b.disk cur then { boot := b, st := bootState file cur, cur }
  else if pkgOk b.disk st.seed && 0 ≤ st.seed then
    match flip env .recover st.seed b with
    | (b', rc) =>
      if rc = 0 then
        { boot := b', st := bootState file st.seed, cur := st.seed,
          moves := movesOf .recover st.seed st.bad [] b b' }
      else { boot := b', st := bootState file (-1), cur := -1 }
  else { boot := b, st := bootState file (-1), cur := -1 }

/-- Lines 1005-1012: a good verdict on the current package. -/
def hostGood (o : Offer) (l : Locals) : Locals :=
  if l.cur ∈ o.good then
    { l with st := { l.st with good := l.cur, tries := 0 }, verdict := true }
  else l

/-- Lines 1013-1017: the bad verdicts; the seed is the floor and cannot go. -/
def hostBad (o : Offer) (l : Locals) : Locals :=
  o.bad.foldl (fun l s => if s ≠ l.st.seed then l.markBad s else l) l

/-- Lines 1018-1029: leave a current package that is on the bad list. -/
def revertBad (l : Locals) : Locals :=
  if 0 ≤ l.cur ∧ l.cur ∈ l.st.bad then
    let back := revertTarget l.st l.boot.disk l.cur
    if 0 ≤ back then
      match flip env .verdict back l.boot with
      | (b, rc) =>
        if rc = 0 then
          { l with boot := b, cur := back, st := { l.st with tries := 0 },
                   result := rRevertedBad, verdict := true,
                   moves := l.moves ++ movesOf .verdict back l.st.bad l.added l.boot b }
        else { l with boot := b, result := enoent, verdict := true }
    else { l with result := enoent, verdict := true }
  else l

/-- What the offer asks for; serial 0 is safe mode. -/
def wanted (o : Offer) (st : State) : Int := if o.serial = 0 then st.seed else o.serial

/-- Lines 1045-1067: have the package on disk, then flip to it. -/
def moveTo (o : Offer) (text : Bytes) (want : Int) (l : Locals) : Locals :=
  let fresh := !pkgOk l.boot.disk want
  let (b, rc) :=
    if fresh then
      if o.serial = 0 then (l.boot, enoent) else install env o text l.boot
    else (l.boot, 0)
  let (b', rc) := if rc = 0 then flip env .switch want b else (b, rc)
  if rc ≠ 0 then { l with boot := b', result := rc }
  else
    { l with
      boot := b'
      st := { l.st with
        previous := if 0 ≤ l.cur ∧ l.cur ∉ l.st.bad then l.cur else l.st.previous
        tries := if want = l.st.seed ∨ want = l.st.good then 0 else 1 }
      cur := want
      verdict := true
      result :=
        if l.result = rUnchanged then (if fresh then rInstalled else rSwitched) else l.result
      moves := l.moves ++ movesOf .switch want l.st.bad l.added b b' }

/-- Lines 1031-1068: the offered package. -/
def takeWanted (o : Offer) (text : Bytes) (l : Locals) : Locals :=
  let want := wanted o l.st
  if want < 0 ∨ want = l.cur then l
  else if want ∈ l.st.bad then
    if l.result = rUnchanged then { l with result := rRefused } else l
  else if o.serial ≠ 0 ∧ o.build ≠ [] ∧ env.build ≠ o.build then { l with result := enoexec }
  else moveTo env o text want l

/-- Lines 1069-1072: a package judged good before the switch to it. -/
def judgedGood (o : Offer) (l : Locals) : Locals :=
  if l.cur ∈ o.good ∧ 0 ≤ l.cur then { l with st := { l.st with good := l.cur, tries := 0 } }
  else l

/-- Lines 1073-1087: a package the host never judged gets `MAX_TRIES` boots. -/
def noVerdict (l : Locals) : Locals :=
  if !l.verdict ∧ 0 ≤ l.cur ∧ l.cur ≠ l.st.seed ∧ l.cur ≠ l.st.good then
    if maxTries ≤ l.st.tries then
      let back := revertTarget l.st l.boot.disk l.cur
      if 0 ≤ back then
        match flip env .tries back l.boot with
        | (b, rc) =>
          if rc = 0 then
            let moves := l.moves ++ movesOf .tries back l.st.bad l.added l.boot b
            let l := { l with boot := b, moves }.markBad l.cur
            { l with cur := back, st := { l.st with tries := 0 }, result := rRevertedTries }
          else { l with boot := b }
      else l
    else { l with st := { l.st with tries := l.st.tries + 1 } }
  else l

/-- Lines 1004-1029: the host's verdicts. -/
def hostVerdicts (o : Offer) (l : Locals) : Locals :=
  revertBad env (hostBad o (hostGood o l))

/-- Lines 1004-1088: a well-formed offer. -/
def applyOffer (o : Offer) (text : Bytes) (l : Locals) : Locals :=
  noVerdict env (judgedGood o (takeWanted env o text (hostVerdicts env o l)))

/-- Lines 997-1088: what the host offers this boot, if anything. -/
def pullAndApply (l : Locals) : Locals :=
  match pullOffer env.host with
  | .error _ => l
  | .ok text =>
    match parseOffer text with
    | none => { l with result := einval }
    | some o => applyOffer env o text l

/-- The status line of a report. -/
def reportLine (st : State) : Bytes :=
  ascii "prev " ++ decimal st.previous ++ ascii " good " ++ decimal st.good ++
    ascii " tries " ++ decimal st.tries ++ ascii " seed " ++ decimal st.seed

/-- `QC_PKG_REPORT`, sent only by a device that still runs. -/
def report (cur result : Int) (line : Bytes) (b : Boot) : Boot :=
  if b.dead then b else { b with reports := b.reports ++ [⟨cur.toNat, result, line⟩] }

def backboardd : Bytes := ascii "/System/Library/LaunchDaemons/com.apple.backboardd.plist"

/-- Lines 1099-1106: restart the window server when a hook asks for it. -/
def respring (b : Boot) : Boot :=
  if b.respringNeeded then
    b.launch [(ascii "stop",
      if (stat b.disk.sys backboardd).toOption.isSome then ascii "com.apple.backboardd"
      else ascii "com.apple.SpringBoard")]
  else b

/-- Lines 1090-1106: hooks and jobs of the package the run ends with. -/
def activate (start : Int) (l : Locals) : Locals :=
  let (st, b) := if 0 ≤ l.cur then applyHooks env l.cur l.st l.boot else (l.st, l.boot)
  let b := if start ≠ l.cur ∧ 0 ≤ start then jobs start (ascii "unload") b else b
  let b := if 0 ≤ l.cur then jobs l.cur (ascii "load") b else b
  { l with st, boot := respring b }

/-- Lines 1107-1118: save the state and report. -/
def finish (l : Locals) : Boot :=
  let b := (saveState env l.st l.boot).1
  match pullOffer env.host with
  | .ok _ => report l.cur l.result (reportLine l.st) b
  | .error _ => b

/-- Lines 944-957: a read-only root only gets the baked package's jobs. -/
def readOnlyRun (b : Boot) : Boot :=
  let cur := if pkgOk b.disk (currentSerial b.disk) then currentSerial b.disk else -1
  let b := if 0 ≤ cur then jobs cur (ascii "load") b else b
  match pullOffer env.host with
  | .ok _ => report cur rReadOnly (ascii "read-only root: baked package only") b
  | .error _ => b

/-- The locals of a writable run when the offer is applied and the package activated. -/
def runLocals (b : Boot) : Locals :=
  let l := recover env b
  activate env l.cur (pullAndApply env l)

/-- The changes of `current` a run makes. -/
def runMoves (b : Boot) : List Move :=
  if env.readonly then [] else (runLocals env b).moves

def itBootRun (b : Boot) : Boot × Int :=
  if env.readonly then (readOnlyRun env b, rReadOnly)
  else (finish env (runLocals env b), (runLocals env b).result)

end QemuIos.ItBoot

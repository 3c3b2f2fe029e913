import QemuIos.ItBoot.Package

/-!
# Hooks

`contrib/it-boot/it_boot.c:807-906`: a package's hooks are copied over stock files. What was
there is kept beside the target, as `<target>.baked` or as an empty `<target>.baked-absent`,
and copied back when a package without the hook is activated.
-/

namespace QemuIos.ItBoot
open CText FileTree

/-- Remember the target of one entry. A target past the table's end is not remembered. -/
def rememberHook (hooks : List Hook) (e : Entry) : List Hook :=
  if e.kind ≠ .hook then hooks
  else
    let respring : Int := if e.respring then 1 else 0
    match hooks.findIdx? (·.target = e.target) with
    | some k => hooks.set k { target := e.target, respring }
    | none => if hooks.length < maxHooks then hooks ++ [{ target := e.target, respring }] else hooks

/-- The entry whose payload a target gets: the last that hooks it. -/
def wantedEntry (entries : List Entry) (target : Bytes) : Option Entry :=
  (entries.filter fun e => e.kind = .hook ∧ e.target = target).getLast?

def bakedPath (target : Bytes) : Bytes := target ++ ascii ".baked"
def absentPath (target : Bytes) : Bytes := target ++ ascii ".baked-absent"
def newPath (path : Bytes) : Bytes := path ++ ascii ".lt-new"

/-- `copy_atomic` onto the system volume, of a file already found at its source. -/
def copyAtomic (fault : Bool) (data : Bytes) (mode : Nat) (dst : Bytes) (b : Boot) : Option Boot :=
  match b.onSys fault (writeFile · (newPath dst) data mode) with
  | none => none
  | some b => b.onSys false (renameFile · (newPath dst) dst)

/-- Where a hook's new contents come from. -/
inductive Source where
  | payload (path : Bytes)
  | baked
  deriving DecidableEq, Repr

def sourceNode (b : Boot) (target : Bytes) : Source → Except Errno Node
  | .payload path => stat b.disk.pkgs path
  | .baked => stat b.disk.sys (bakedPath target)

/-- `same_file`: two files of the same size, permissions and bytes. -/
def sameFile : Except Errno Node → Except Errno Node → Bool
  | .ok (.file data mode), .ok (.file data' mode') => data = data' && mode % 4096 = mode' % 4096
  | _, _ => false

/-- Keep what is at the target before its first hook: a hard link or a copy under `.baked`, or
an empty marker where there is nothing. `none` skips the hook. -/
def keepOriginal (env : Env) (k : Nat) (target : Bytes) (b : Boot) : Option Boot :=
  match stat b.disk.sys target with
  | .ok node =>
    match b.onSys (env.fails (.hook k .link)) (link · target (bakedPath target)) with
    | some b => some b
    | none =>
      match node with
      | .file data mode =>
        copyAtomic (env.fails (.hook k .keep)) data (mode % 4096) (bakedPath target) b
      | _ => none
  | .error .enoent =>
    -- a dangling symbolic link is present, not absent
    match lstat b.disk.sys target with
    | .error .enoent =>
      match b.onSys (env.fails (.hook k .mkAbsent)) (mkparent · (absentPath target)) with
      | none => none
      | some b => b.onSys (env.fails (.hook k .absent)) (createExcl · (absentPath target) 0o644)
    | _ => none
  | .error _ => none

/-- Copy the source over the target unless they are the same already. -/
def refresh (env : Env) (k : Nat) (hook : Hook) (source : Source) (b : Boot) : Boot :=
  if sameFile (sourceNode b hook.target source) (stat b.disk.sys hook.target) then b
  else
    let b := (b.onSys (env.fails (.hook k .mkparent)) (mkparent · hook.target)).getD b
    match sourceNode b hook.target source with
    | .ok (.file data mode) =>
      match copyAtomic (env.fails (.hook k .copy)) data (mode % 4096) hook.target b with
      | some b => { b with respringNeeded := b.respringNeeded || hook.respring ≠ 0 }
      | none => b
    | _ => b

/-- Whether the backup names contradict each other, or the marker is no empty file. -/
def badBackup (baked absent : Except Errno Node) : Bool :=
  match baked, absent with
  | .ok _, .ok _ => true
  | _, .ok (.file data _) => !data.isEmpty
  | _, .ok _ => true
  | _, .error _ => false

/-- One remembered target under the package's entries. -/
def applyHook (env : Env) (serial : Int) (entries : List Entry) (k : Nat) (hook : Hook)
    (b : Boot) : Boot :=
  let baked := lstat b.disk.sys (bakedPath hook.target)
  let absent := lstat b.disk.sys (absentPath hook.target)
  if badBackup baked absent then b
  else
    match wantedEntry entries hook.target, baked, absent with
    | some e, .error _, .error _ =>
      match keepOriginal env k hook.target b with
      | some b => refresh env k hook (.payload (pkgPath serial e.path)) b
      | none => b
    | some e, _, _ => refresh env k hook (.payload (pkgPath serial e.path)) b
    | none, _, .ok _ =>
      match b.onSys (env.fails (.hook k .unlink)) (unlink · hook.target) with
      | some b => { b with respringNeeded := b.respringNeeded || hook.respring ≠ 0 }
      | none => b
    | none, .ok _, .error _ => refresh env k hook .baked b
    | none, .error _, .error _ => b

/-- The targets from number `k` on. -/
def applyHooksFrom (env : Env) (serial : Int) (entries : List Entry) :
    Nat → List Hook → Boot → Boot
  | _, [], b => b
  | k, hook :: hooks, b =>
    applyHooksFrom env serial entries (k + 1) hooks (applyHook env serial entries k hook b)

/-- Remember the package's targets and bring every remembered target up to date. -/
def applyHooks (env : Env) (serial : Int) (st : State) (b : Boot) : State × Boot :=
  let entries := ((loadPkg b.disk serial).map (·.entries)).getD []
  let st := { st with hooks := entries.foldl rememberHook st.hooks }
  (st, applyHooksFrom env serial entries 0 st.hooks b)

end QemuIos.ItBoot

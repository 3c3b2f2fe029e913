import QemuIos.ItBoot.Disk

/-!
# Packages

`contrib/it-boot/it_boot.c:521-547` and `656-805`: a package on disk, pulling an offer and its
payloads from the host, and staging a package. Paths are relative to `ROOT/pkgs`.
-/

namespace QemuIos.ItBoot
open CText FileTree

/-- `WINDOW`, the host's cap on one call. -/
def window : Nat := 1024

/-- `pkgs/<serial>/<rel>`. -/
def pkgPath (serial : Int) (rel : Bytes) : Bytes := decimal serial ++ 47 :: rel

/-- What `stat` reports as `st_size`, cut to the guest's `unsigned long`. -/
def sizeOf (d : Disk) (path : Bytes) : Option Nat :=
  match stat d.pkgs path with
  | .ok (.file data _) => some (data.length % 2 ^ 32)
  | .ok _ => some (d.dirSize d.pkgs (comps path) % 2 ^ 32)
  | .error _ => none

/-- A package on disk: its record parses and every payload has the recorded size. -/
def loadPkg (d : Disk) (serial : Int) : Option Offer := do
  guard (0 ≤ serial)
  let data ← (readFile d.pkgs (pkgPath serial (ascii "offer"))).toOption
  let text := data.take (offerMax - 1)
  guard (text ≠ [])
  let o ← parseOffer text
  guard (o.serial = serial ∧ ∀ e ∈ o.entries, sizeOf d (pkgPath serial e.path) = some e.size)
  return o

def pkgOk (d : Disk) (serial : Int) : Bool := (loadPkg d serial).isSome

/-- The `n` bytes a window leaves in a buffer that was zeroed before the call. -/
def windowBytes (n : Nat) (bytes : Bytes) : Bytes := (bytes ++ List.replicate n 0).take n

/-- The loop over the windows of `pull_offer` and `fetch`: `read off want` is the host's
answer, `check off` what is wrong after a good window (0 for nothing). -/
def pullWindows (read : Nat → Nat → Int × Bytes) (check : Nat → Int) (total : Nat) :
    Nat → Bytes → Except Int Bytes
  | 0, got => .ok got
  | fuel + 1, got =>
    let off := got.length
    if off < total then
      let want := min window (total - off)
      let (n, bytes) := read off want
      if n ≤ 0 ∨ (want : Int) < n then .error eio
      else if check off ≠ 0 then .error (check off)
      else pullWindows read check total fuel (got ++ windowBytes n.toNat bytes)
    else .ok got

/-- The offer's text, when the host has one. -/
def pullOffer (host : Host) : Except Int Bytes :=
  if host.offerSize ≤ 0 then .error enoent
  else if (offerMax : Int) ≤ host.offerSize then .error einval
  else
    pullWindows host.offerWindow (fun _ => 0) host.offerSize.toNat host.offerSize.toNat []

variable (env : Env)

/-- Pull payload `i` of the offer into the staging directory. What a failed fetch leaves there
is not written out: the directory is removed with it. -/
def fetch (i : Nat) (e : Entry) (dst : Bytes) (b : Boot) : Boot × Int :=
  if env.host.payloadSize e.idx ≠ e.size then (b, ebadmsg)
  else
    match b.onPkgs (env.fails (.fetch i .mkparent)) (mkparent · dst) with
    | none => (b, eio)
    | some b =>
      match b.onPkgs (env.fails (.fetch i .open)) (writeFile · dst [] 0o600) with
      | none => (b, eio)
      | some b =>
        let check off :=
          if env.expired i off then etimedout
          else if env.fails (.fetch i (.write off)) then eio else 0
        match pullWindows (env.host.payloadWindow e.idx) check e.size e.size [] with
        | .error rc => (b, rc)
        | .ok data =>
          if env.fails (.fetch i .fsync) then (b, eio)
          else
            match b.onPkgs (env.fails (.fetch i .chmod)) (writeFile · dst data e.mode) with
            | none => (b, eio)
            | some b =>
              match env.sha256 with
              | some sha256 => if sha256 data = e.sha then (b, 0) else (b, ebadmsg)
              | none => (b, 0)

/-- Every payload in turn, up to the first that fails. -/
def fetchAll (env : Env) (tmp : Bytes) : Nat → List Entry → Boot → Boot × Int
  | _, [], b => (b, 0)
  | i, e :: es, b =>
    match fetch env i e (tmp ++ 47 :: e.path) b with
    | (b, rc) => if rc = 0 then fetchAll env tmp (i + 1) es b else (b, rc)

/-- `write_atomic` of the record: a temporary file, then a rename over the name. -/
def writeRecord (path text : Bytes) (b : Boot) : Boot × Int :=
  match b.onPkgs (env.fails .record) (writeFile · (path ++ ascii ".lt-new") text 0o644) with
  | none => (b, eio)
  | some b =>
    match b.onPkgs false (renameFile · (path ++ ascii ".lt-new") path) with
    | none => (b, eio)
    | some b => (b, 0)

/-- Remove a directory of `ROOT/pkgs`. -/
def removePkg (site : Removal) (name : Bytes) (b : Boot) : Boot :=
  b.write fun d => { d with pkgs := rmtree d.pkgs (env.survives site) [name] }

/-- The staging directory `pkgs/<serial>.tmp`. -/
def stageName (serial : Int) : Bytes := decimal serial ++ ascii ".tmp"

/-- Fill the staging directory: the payloads, then the record. -/
def stage (o : Offer) (text : Bytes) (b : Boot) : Boot × Int :=
  match fetchAll env (stageName o.serial) 0 o.entries b with
  | (b, rc) =>
    if rc = 0 then writeRecord env (stageName o.serial ++ ascii "/offer") text b else (b, rc)

/-- Stage `pkgs/<s>.tmp`, then rename it into place. -/
def install (o : Offer) (text : Bytes) (b : Boot) : Boot × Int :=
  let tmp := stageName o.serial
  if env.fails .clock then (b, eio)
  else
    match (removePkg env .stale tmp b).onPkgs (env.fails .stage) (mkdirs · tmp) with
    | none => (removePkg env .stale tmp b, eio)
    | some b =>
      match stage env o text b with
      | (b, rc) =>
        if rc ≠ 0 then (removePkg env .failed tmp b, rc)
        else
          let b := removePkg env .old (decimal o.serial) b
          match b.onPkgs (env.fails .rename) (renameDir · [tmp] [decimal o.serial]) with
          | none => (removePkg env .failed tmp b, eio)
          | some b => (b, 0)

/-- `launchctl` for every job of a package. -/
def jobs (serial : Int) (verb : Bytes) (b : Boot) : Boot :=
  match loadPkg b.disk serial with
  | none => b
  | some o =>
    b.launch ((o.entries.filter (·.kind = .job)).map fun e => (verb, pkgPath serial e.path))

end QemuIos.ItBoot

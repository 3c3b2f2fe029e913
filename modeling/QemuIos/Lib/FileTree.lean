import QemuIos.Lib.CText

/-!
# File trees

A POSIX directory tree as a map from canonical locations to nodes, with the system calls that
work on path names: symbolic links are followed, a missing or wrong directory on the way is an
error. A file is its bytes and its permission bits; a second hard link is a second node with
the same contents, which is the same thing as long as nobody writes through one of the names.

A location is found from the symbolic links alone (`locate`), and only then are the
directories on the way checked (`reach`). So creating or removing files and directories never
changes where a path leads.
-/

namespace QemuIos.FileTree
open CText

/-- The name of a directory entry. -/
abbrev Name := Bytes

/-- The names on the way from the root of the tree. -/
abbrev Loc := List Name

inductive Node where
  | dir
  | file (data : Bytes) (mode : Nat)
  | symlink (target : Bytes)
  deriving DecidableEq, Repr

/-- The root itself is a directory whatever the map says of the empty location. -/
abbrev Tree := Loc → Option Node

inductive Errno where
  | enoent
  | enotdir
  | eisdir
  | eexist
  | eloop
  deriving DecidableEq, Repr

variable (t : Tree)

/-- One entry created, replaced or removed. -/
def set (loc : Loc) (node : Option Node) : Tree :=
  fun l => if l = loc then node else t l

variable (path : Bytes)

/-- The components of a path name; empty ones and `.` lead nowhere. -/
def comps : List Name := (tokens (· == 47) path).filter (· != [46])

/-- A path that ends in `/` or `/.` names a directory or nothing. -/
def asDir : Bool :=
  path.getLast? == some 47 || (tokens (· == 47) path).getLast? == some [46]

/-- Walk along `names` up to the first symbolic link: the location reached, or the directory
of the link with its target and what was left of the names. The last name is only looked
through under `follow`. -/
def passLinks (t : Tree) (follow : Bool) : Loc → List Name → Loc × Option (Bytes × List Name)
  | cur, [] => (cur, none)
  | cur, name :: rest =>
    if name = [46, 46] then passLinks t follow cur.dropLast rest
    else
      match t (cur ++ [name]) with
      | some (.symlink target) =>
        if rest.isEmpty && !follow then (cur ++ [name], none) else (cur, some (target, rest))
      | _ => passLinks t follow (cur ++ [name]) rest

/-- Follow at most `fuel` symbolic links. -/
def resolve (t : Tree) (follow : Bool) : Nat → Loc → List Name → Except Errno Loc
  | 0, _, _ => .error .eloop
  | fuel + 1, cur, names =>
    match passLinks t follow cur names with
    | (loc, none) => .ok loc
    | (dir, some (target, rest)) =>
      resolve t follow fuel (if target.head? = some 47 then [] else dir) (comps target ++ rest)

/-- The directories on the way to a location: the first that is missing or no directory. -/
def reach (t : Tree) : Loc → List Name → Except Errno Unit
  | _, [] => .ok ()
  | _, [_] => .ok ()
  | done, name :: next :: rest =>
    match t (done ++ [name]) with
    | some .dir => reach t (done ++ [name]) (next :: rest)
    | none => .error .enoent
    | some _ => .error .enotdir

/-- The directory entry a path names; `MAXSYMLINKS` is 32. -/
def locate (follow : Bool) (path : Bytes) : Except Errno Loc :=
  resolve t (follow || asDir path) 33 [] (comps path)

/-- `stat` under `follow`, else `lstat`. -/
def lookup (follow : Bool) (path : Bytes) : Except Errno Node := do
  let loc ← locate t follow path
  reach t [] loc
  if loc = [] then return .dir
  else
    match t loc with
    | none => throw .enoent
    | some node => if asDir path && node != .dir then throw .enotdir else return node

def stat : Except Errno Node := lookup t true path

def lstat : Except Errno Node := lookup t false path

/-- `open(path, O_RDONLY)` and reading to the end. -/
def readFile : Except Errno Bytes := do
  match ← stat t path with
  | .file data _ => return data
  | _ => throw .eisdir

/-- `open(path, O_WRONLY | O_CREAT | O_TRUNC)`, the writes and `chmod(path, mode)`. -/
def writeFile (data : Bytes) (mode : Nat) : Except Errno Tree := do
  let loc ← locate t true path
  reach t [] loc
  if loc = [] ∨ asDir path ∨ t loc = some .dir then throw .eisdir
  else return set t loc (some (.file data mode))

/-- `open(path, O_WRONLY | O_CREAT | O_EXCL, mode)` and `close`. -/
def createExcl (mode : Nat) : Except Errno Tree := do
  let loc ← locate t false path
  reach t [] loc
  if loc = [] ∨ asDir path then throw .eisdir
  else if t loc ≠ none then throw .eexist
  else return set t loc (some (.file [] mode))

/-- `rename(source, dest)` of something that is no directory. -/
def renameFile (source dest : Bytes) : Except Errno Tree := do
  let src ← locate t false source
  reach t [] src
  let dst ← locate t false dest
  reach t [] dst
  match t src with
  | none => throw .enoent
  | some .dir => throw .eisdir
  | some node =>
    if dst = [] ∨ asDir dest ∨ t dst = some .dir then throw .eisdir
    else return set (set t src none) dst (some node)

/-- `link(source, dest)`; a symbolic link at `source` is looked through. -/
def link (source dest : Bytes) : Except Errno Tree := do
  match ← stat t source with
  | .file data mode =>
    let dst ← locate t false dest
    reach t [] dst
    if dst = [] ∨ asDir dest ∨ t dst ≠ none then throw .eexist
    else return set t dst (some (.file data mode))
  | _ => throw .eisdir

def unlink : Except Errno Tree := do
  match ← lstat t path with
  | .dir => throw .eisdir
  | _ => return set t (← locate t false path) none

/-- `mkdir(path, 0755)` where `EEXIST` is no failure. -/
def mkdirAt (path : List Name) : Except Errno Tree := do
  let loc ← resolve t false 33 [] path
  reach t [] loc
  if loc = [] ∨ t loc ≠ none then return t else return set t loc (some .dir)

/-- The directories `done/n1`, `done/n1/n2`, ... in turn. -/
def mkdirsFrom (t : Tree) (done : List Name) : List Name → Except Errno Tree
  | [] => .ok t
  | name :: rest => do mkdirsFrom (← mkdirAt t (done ++ [name])) (done ++ [name]) rest

/-- Every directory of a path. -/
def mkdirs : Except Errno Tree := mkdirsFrom t [] (comps path)

/-- The directory part of a path: what is before its last slash, if that is anything. -/
def parentOf : Bytes :=
  ((path.reverse.dropWhile (· != 47)).drop 1).reverse

/-- The directories above a path. -/
def mkparent : Except Errno Tree := mkdirs t (parentOf path)

/-- A directory and everything below it removed, as far as it can be: `survives` are the
entries whose removal fails. -/
def rmtree (survives : Loc → Bool) (loc : Loc) : Tree :=
  fun l => if loc <+: l && !survives l then none else t l

/-- `rename(source, dest)` of a directory onto a free name. -/
def renameDir (src dst : Loc) : Except Errno Tree :=
  match t src, t dst with
  | some .dir, none =>
    .ok fun l =>
      if dst <+: l then t (src ++ l.drop dst.length) else if src <+: l then none else t l
  | _, some _ => .error .eexist
  | _, _ => .error .enoent

end QemuIos.FileTree

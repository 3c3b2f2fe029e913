import QemuIos.Lib.Mem

/-!
# The page store of the FMC

The pages of the S5L8900's flash lie in a NAND image written in place, or in a read-only base
directory with one file a page, under an optional overlay directory of the same layout that takes
the guest's programs and erases. A page is looked up in the overlay, then under the block's erase
marker, then in the base; a page with no file anywhere reads erased.

Programs and erases of the overlay are written as the steps they take on the host's files, so that a
process killed between two of them is a run of fewer steps.
-/

namespace QemuIos.Fmc

def numBanks : Nat := 8
def bytesPerPage : Nat := 2048
def bytesPerSpare : Nat := 64
def pagesPerBlock : Nat := 128
def blocksPerBank : Nat := 4096

/-- A pair of buffers: the data of a page and its spare. -/
structure Record where
  data : Mem
  spare : Mem

namespace Record

/-- Buffers that hold one byte throughout. -/
def filled (b : UInt8) : Record := ⟨fun _ => b, fun _ => b⟩

/-- What an erased page reads as: every bit set, data and spare alike. -/
def erasedPage (into : Record) : Record where
  data := into.data.blit 0 bytesPerPage fun _ => 0xff
  spare := into.spare.blit 0 bytesPerSpare fun _ => 0xff

/-- The page a chip is left with: bits are only ever cleared. -/
def programmed (cell new : Record) : Record where
  data := fun i => cell.data i &&& new.data i
  spare := fun i => cell.spare i &&& new.spare i

/-- The two buffers as one record, data first. -/
def byte (r : Record) (i : Nat) : UInt8 :=
  if i < bytesPerPage then r.data i else r.spare (i - bytesPerPage)

/-- Every data and spare bit is set. -/
def pageErased (r : Record) : Bool :=
  (List.range bytesPerPage).all (fun i => r.data i == 0xff) &&
    (List.range bytesPerSpare).all fun i => r.spare i == 0xff

end Record

/-- A file of the host. -/
structure HostFile where
  len : Nat
  bytes : Mem

/-- `fmc_read_file`: what the file is too short for stays as the buffers had it. -/
def fmcReadFile (f : HostFile) (into : Record) : Record where
  data := into.data.blit 0 (min f.len bytesPerPage) f.bytes
  spare := into.spare.blit 0 (min (f.len - bytesPerPage) bytesPerSpare) (f.bytes.slice bytesPerPage)

/-! ## The overlay directory -/

/-- The files of an overlay: a page file `bank<N>/<page>.page`, and whether the marker
`bank<N>/blk<block>.erased` exists. -/
structure Overlay where
  page : Nat × Nat → Option HostFile
  erased : Nat × Nat → Bool

/-- One step on the host's files. -/
inductive HostStep
  | mkdir (bank : Nat)
  /-- Open a page file for writing, which empties it. -/
  | truncate (key : Nat × Nat)
  /-- Write to the end of the page file that is open. -/
  | append (key : Nat × Nat) (len : Nat) (bytes : Mem)
  | close
  | remove (key : Nat × Nat)
  /-- Open the marker of a block for writing, which creates it. -/
  | mark (key : Nat × Nat)

def Overlay.step (o : Overlay) : HostStep → Overlay
  | .mkdir _ => o
  | .truncate key => { o with page := Function.update o.page key (some ⟨0, fun _ => 0⟩) }
  | .append key len bytes =>
    let grown := (o.page key).map fun f => ⟨f.len + len, f.bytes.blit f.len len bytes⟩
    { o with page := Function.update o.page key grown }
  | .close => o
  | .remove key => { o with page := Function.update o.page key none }
  | .mark key => { o with erased := Function.update o.erased key true }

/-- The steps of a program that leaves `cell` behind. -/
def programSteps (bank page : Nat) (cell : Record) : List HostStep :=
  [.mkdir bank, .truncate (bank, page), .append (bank, page) bytesPerPage cell.data,
    .append (bank, page) bytesPerSpare cell.spare, .close]

/-- The pages an erase goes through; the bound is computed in 32 bits. -/
def blockPages (block : Nat) : List Nat :=
  let first := block * pagesPerBlock % 2 ^ 32
  List.range' first ((block + 1) * pagesPerBlock % 2 ^ 32 - first)

/-- The steps of an erase: the page files go first, then the marker is left. -/
def eraseSteps (bank block : Nat) : List HostStep :=
  .mkdir bank :: (blockPages block).map (fun p => .remove (bank, p)) ++
    [.mark (bank, block), .close]

/-! ## The NAND image -/

/-- A NAND image: one file a chip, every record XORed with the erased one. -/
structure Image where
  chips : Nat
  blank : Mem
  chip : Nat → Mem

namespace Image

def stride : Nat := bytesPerPage + bytesPerSpare

def bad (n : Image) (chip page : Nat) : Bool :=
  decide (n.chips ≤ chip) || decide (blocksPerBank ≤ page / pagesPerBlock)

/-- `nand_image_read`; `none` for an address off the chips. -/
def read (n : Image) (chip page : Nat) : Option Mem :=
  if n.bad chip page then none
  else some fun i => n.chip chip (page * stride + i) ^^^ n.blank i

def write (n : Image) (chip page : Nat) (record : Mem) : Image :=
  let stored := (n.chip chip).blit (page * stride) stride fun i => record i ^^^ n.blank i
  if n.bad chip page then n else { n with chip := Function.update n.chip chip stored }

def erase (n : Image) (chip block : Nat) : Image :=
  let first := block * pagesPerBlock
  let zeroed := (n.chip chip).blit (first * stride) (pagesPerBlock * stride) fun _ => 0
  if decide (2 ^ 32 ≤ first) || n.bad chip first then n
  else { n with chip := Function.update n.chip chip zeroed }

end Image

/-! ## The store -/

/-- A NAND image, which takes no overlay, or the two directories. Without a `nand` property the base
has no files. -/
inductive Store
  | image (n : Image)
  | dirs (nandOverlay : Option Overlay) (base : Nat × Nat → Option HostFile)

namespace Store

/-- The base file, or an erased page. -/
def loadBase (base : Nat × Nat → Option HostFile) (bank page : Nat) (into : Record) : Record :=
  match base (bank, page) with
  | some f => fmcReadFile f into
  | none => into.erasedPage

def loadOver (o : Overlay) (base : Nat × Nat → Option HostFile) (bank page : Nat) (into : Record) :
    Record :=
  match o.page (bank, page) with
  | some f => fmcReadFile f into
  | none =>
    if o.erased (bank, page / pagesPerBlock) then into.erasedPage else loadBase base bank page into

/-- `s5l8900_fmc_load_page`, into the given buffers. -/
def loadPage (s : Store) (bank page : Nat) (into : Record) : Record :=
  match s with
  | .image n =>
    match n.read bank page with
    | some record =>
      { data := into.data.blit 0 bytesPerPage record
        spare := into.spare.blit 0 bytesPerSpare (record.slice bytesPerPage) }
    | none => into.erasedPage
  | .dirs (some o) base => loadOver o base bank page into
  | .dirs none base => loadBase base bank page into

/-- `fmc_program_page`. The cell is read into buffers of the stack, which hold `stack` before. -/
def programPage (s : Store) (bank page : Nat) (new stack : Record) : Store :=
  let cell := (s.loadPage bank page stack).programmed new
  match s with
  | .image n => .image (n.write bank page cell.byte)
  | .dirs (some o) base => .dirs (some ((programSteps bank page cell).foldl Overlay.step o)) base
  -- Dropped: there is nowhere to write to.
  | .dirs none base => .dirs none base

/-- `s5l8900_fmc_erase_block`. -/
def eraseBlock (s : Store) (bank block : Nat) : Store :=
  match s with
  | .image n => .image (n.erase bank block)
  | .dirs (some o) base => .dirs (some ((eraseSteps bank block).foldl Overlay.step o)) base
  | .dirs none base => .dirs none base

end Store

end QemuIos.Fmc

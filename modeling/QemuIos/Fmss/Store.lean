import QemuIos.Lib.Block
import QemuIos.Fmss.Packed

/-!
# The page store of the FMSS

Where the iPod touch's flash controller keeps its pages (`hw/arm/ipod_touch_fmss.c`): in a NAND
image written in place (`hw/arm/nand-image.c`), or in a read-only base, packed or a directory with a
file for each page, under an optional overlay directory. A page that was programmed since power-on
reads back from memory. Unless the image is a physical one, a page is stored where the generated
layout puts the logical block that its spare names.

The answers of the host to requests that may fail are taken from a sequence, one after the other.
-/

namespace QemuIos.Fmss

open Fmc (HostFile)

/-- The switches of the environment: `FMSS_PHYSICAL` and the others. -/
structure Mode where
  physical : Bool
  erase : Bool
  usedSpare : Bool
  baseSpare : Bool
  legacy : Bool

/-! ## The NAND image -/

/-- `NANDImage`: a file for each chip select, and the key its bytes are combined with, which is what
a hole reads as. -/
structure Image where
  chip : Block.Layer Nat
  blank : Mem

namespace Image

/-- `nand_image_bad`. -/
def bad (chip page : Nat) : Bool := chips ≤ chip || blocksPerChip ≤ page / pagesPerBlock

/-- `nand_image_xor`. -/
def xor (n : Image) (bytes : Mem) : Mem := fun i => bytes i ^^^ n.blank i

/-- `nand_image_read`: the bytes of a record. -/
def read (n : Image) (chip page : Nat) : Option Mem × Image :=
  if bad chip page then (none, n)
  else
    let (layer, bytes, ok) := n.chip.pread chip (page * bytesPerRecord) bytesPerRecord
    (if ok then some (n.xor bytes) else none, { n with chip := layer })

/-- `nand_image_write`. -/
def write (n : Image) (chip page : Nat) (record : Mem) : Bool × Image :=
  if bad chip page then (false, n)
  else
    let (layer, ok) := n.chip.pwrite chip (page * bytesPerRecord) bytesPerRecord (n.xor record)
    (ok, { n with chip := layer })

/-- `nand_image_erase`: zeros read as blank. -/
def erase (n : Image) (chip block : Nat) : Bool × Image :=
  let first := block * pagesPerBlock
  if 2 ^ 32 ≤ first ∨ bad chip first then (false, n)
  else
    let (layer, ok) :=
      n.chip.pwrite chip (first * bytesPerRecord) (pagesPerBlock * bytesPerRecord) fun _ => 0
    (ok, { n with chip := layer })

end Image

/-! ## Records -/

namespace Record

/-- Data and spare as one record. -/
def bytes (r : Record) : Mem := r.data.blit bytesPerPage bytesPerSpare r.spare

/-- The record in a run of bytes. -/
def ofBytes (m : Mem) : Record := ⟨m, m.slice bytesPerPage⟩

/-- `fmss_blank_page`. -/
def blank (mode : Mode) (erased : Bool) : Record :=
  if erased && mode.physical then ⟨fun _ => 0xff, fun _ => 0xff⟩
  else ⟨fun _ => 0, Mem.setWord (fun _ => 0) 8 0x00FF00FF⟩

/-- `fmss_page_erased`: the data and the 12 bytes of the spare the driver sees are all ones. -/
def erased (r : Record) : Bool :=
  (List.range bytesPerPage).all (fun i => r.data i == 0xff) &&
    (List.range 12).all fun i => r.spare i == 0xff

/-- With `FMSS_USEDSPARE`, a clean marker in a spare is replaced. -/
def markUsed (mode : Mode) (r : Record) : Record :=
  if mode.usedSpare && r.spare.word 8 == 0x00FF00FF then
    { r with spare := r.spare.setWord 8 0xFFFF40FF }
  else r

/-- A record from a file of the host; what the file is too short for reads as zeros. -/
def ofFile (f : HostFile) : Record where
  data := Mem.blit (fun _ => 0) 0 (min f.len bytesPerPage) f.bytes
  spare := Mem.blit (fun _ => 0) 0 (min (f.len - bytesPerPage) bytesPerSpare)
    (f.bytes.slice bytesPerPage)

end Record

/-! ## Files -/

/-- What opening a file of the host comes to. -/
inductive Lookup where
  | absent
  | denied
  | found (f : HostFile)

/-- There is no such file. -/
def Lookup.isAbsent : Lookup → Bool
  | .absent => true
  | _ => false

/-- The overlay directory: a file for each page `cs<N>/<page>.page`, whether the marker
`cs<N>/blk<block>.erased` exists, and how requests end. -/
structure Overlay where
  page : Nat × Nat → Lookup
  marker : Nat × Nat → Bool
  fate : Nat → Bool
  asked : Nat

/-- Asks the host for something that may fail. -/
def Overlay.ask (o : Overlay) : Bool × Overlay := (o.fate o.asked, { o with asked := o.asked + 1 })

/-- The read-only base: a packed image, or a directory with a file for each page. -/
inductive Base where
  | packed (p : Packed)
  | dir (page : Nat × Nat → Lookup)

/-- `NAND_DEFAULT_TOTAL_BLOCKS`. -/
def defaultTotalBlocks : Nat := 128000

/-- `NAND_MAX_TOTAL_BLOCKS`. -/
def maxTotalBlocks : Nat := 2090000

/-- What of `IPodTouchFMSSState` concerns the pages. -/
structure Store where
  image : Option Image
  overlay : Option Overlay
  base : Base
  /-- The pages programmed since power-on, by `fmss_block_key`. -/
  physPages : Nat → Option Record
  /-- The blocks known to be erased, by `fmss_block_key`. -/
  erasedBlocks : Nat → Bool
  /-- The size of the volume; 0 until it has been read out of the image. -/
  blocks : Nat
  small : blocks ≤ maxTotalBlocks
  fromGpt : Bool
  /-- `fmss_io_failed`: a failure to persist has stopped the machine. -/
  ioFailed : Bool

/-- `fmss_block_key`, in 32 bits. -/
def blockKey (cs block : Nat) : Nat := (cs <<< 24) % 2 ^ 32 ||| block

/-- Where the generated image puts a logical block of a volume of so many blocks. -/
def generatedLayout (blocks logical : Nat) : Option (Nat × Nat) :=
  if logical < 3 ∨ blocks ≤ logical - 3 then none
  else
    let r := logical / 4
    let eb := 2 * (r / 256) + 2 + r % 2
    some (logical % 4, eb * 128 + r % 256 / 2)

namespace Store

variable (mode : Mode) (s : Store) (cs page : Nat)

/-- `fmss_io_error`. -/
def ioError : Store := { s with ioFailed := true }

/-- The page with the partition's entry: logical block 2. -/
def gptEntry : Option Mem × Store :=
  match s.image with
  | some n =>
    let (bytes, n) := n.read 2 256
    (bytes, { s with image := some n })
  | none =>
    match s.base with
    | .packed p =>
      match (packedPage p 2 256).1 with
      | .data r => (some r.data, s)
      | _ => (none, s)
    | .dir page =>
      match page (2, 256) with
      | .found f => (if 0x30 ≤ f.len then some f.bytes else none, s)
      | _ => (none, s)

/-- A double word of an entry. -/
def ldq (m : Mem) (a : Nat) : Nat := m.word a + 2 ^ 32 * m.word (a + 4)

/-- The blocks of the volume that a partition's entry tells. -/
def volume (entry : Mem) : Option { n : Nat // n ≤ maxTotalBlocks } :=
  let start := ldq entry 0x20
  let last := ldq entry 0x28
  if small : start = 3 ∧ start < last ∧ last - start < maxTotalBlocks then
    some ⟨last - start + 1, small.2.2⟩
  else none

/-- `fmss_total_blocks`. -/
def totalBlocks : Nat × Store :=
  if s.blocks ≠ 0 then (s.blocks, s)
  else
    let (entry, s) := s.gptEntry
    match entry.bind volume with
    | some ⟨n, small⟩ => (n, { s with blocks := n, small := small, fromGpt := true })
    | none => (defaultTotalBlocks, { s with blocks := defaultTotalBlocks, small := by decide })

/-- `fmss_generated_layout` with the size of the volume looked up. -/
def layout (logical : Nat) : Option (Nat × Nat) × Store :=
  if logical < 3 then (none, s)
  else
    let (blocks, s) := s.totalBlocks
    (generatedLayout blocks logical, s)

/-- The factory's free list that the generated image carries. -/
def isFactoryPool (r : Record) : Bool :=
  cs == 3 && page == 255 && !mode.physical && r.spare 9 == 0x43 && r.data.word 0 == 0 &&
    r.data.word 4 == 0 && r.data.word 8 == 20 && r.data.half 12 == 0 &&
    r.data.word 2040 == 0x46560000 && r.data.word 2044 == 0xb9a9ffff &&
    (List.range 20).all fun i => r.data.half (14 + i * 2) == i + 3

/-- The first block of the free pool that takes the place of the factory's, if there is one. -/
def freePool (r : Record) : Option Nat × Store :=
  if isFactoryPool mode cs page r then
    let (total, s) := s.totalBlocks
    let first := max 23 ((total + 3 + 1023) / 1024 + 1)
    if s.fromGpt = false then (none, s.ioError)
    -- The last erase block stays outside the pool.
    else if 2047 < first + 20 then (none, s.ioError)
    else (some first, s)
  else (none, s)

/-- `fmss_fix_generated_free_pool`. -/
def fixGeneratedFreePool (r : Record) : Record × Store :=
  match freePool mode s cs page r with
  | (none, s) => (r, s)
  | (some first, s) =>
    ({ r with
      data := (List.range 20).foldl (fun m i => Mem.setHalf m (14 + i * 2) (first + i)) r.data }, s)

/-- `fmss_remember_erased`. -/
def rememberErased (cs block : Nat) : Store :=
  { s with erasedBlocks := Function.update s.erasedBlocks (blockKey cs block) true }

/-- `fmss_block_is_erased`. -/
def blockIsErased (cs block : Nat) : Bool × Store :=
  match s.overlay with
  | none => (false, s)
  | some o =>
    if (mode.erase || mode.physical) = false then (false, s)
    else if s.erasedBlocks (blockKey cs block) then (true, s)
    else if o.marker (cs, block) then (true, s.rememberErased cs block)
    else (false, s)

/-- `fmss_remember_physical`. -/
def rememberPhysical (r : Record) : Store :=
  { s with physPages := Function.update s.physPages (blockKey cs page) (some r) }

/-- `fmss_recall_physical`. -/
def recallPhysical : Option Record := s.physPages (blockKey cs page)

/-- With `FMSS_BASESPARE`, the spare of the base directory for a page of the overlay. -/
def baseSpare : Mem :=
  match s.base with
  | .dir page' =>
    match page' (cs, page) with
    | .found f => (Record.ofFile f).spare
    | _ => Mem.setWord (fun _ => 0) 8 0x00FF00FF
  | .packed _ => Mem.setWord (fun _ => 0) 8 0x00FF00FF

/-- What the overlay has for a page. -/
def overlayPage : Lookup :=
  match s.overlay with
  | some o => o.page (cs, page)
  | none => .absent

/-- The part of `fmss_load_page_inner` that is left when neither the memory nor the image nor the
overlay has the page. -/
def loadBase (openFailed knownErased : Bool) : Record :=
  if knownErased then .blank mode (!openFailed)
  else
    match s.base with
    | .packed p =>
      match (packedPage p cs page).1 with
      | .data r => r.markUsed mode
      | .hole => .blank mode (!openFailed)
      | .invalid => .blank mode false
    | .dir page' =>
      match page' (cs, page) with
      | .found f => (Record.ofFile f).markUsed mode
      | .absent => .blank mode (!openFailed)
      | .denied => .blank mode false

/-- `fmss_load_page_inner`. -/
def loadPageInner : Record × Store :=
  match s.recallPhysical cs page with
  | some r => (r, s)
  | none =>
    match s.image with
    | some n =>
      let (bytes, n) := n.read cs page
      let s := { s with image := some n }
      match bytes with
      | none => (.blank mode false, s)
      | some m => ((Record.ofBytes m).markUsed mode, s)
    | none =>
      match s.overlayPage cs page with
      | .found f =>
        let r := Record.ofFile f
        (if mode.baseSpare then { r with spare := s.baseSpare cs page } else r, s)
      | found =>
        let openFailed := found matches .denied
        let (knownErased, s) := s.blockIsErased mode cs (page / pagesPerBlock)
        (s.loadBase mode cs page openFailed knownErased, s)

/-- `fmss_load_page`. -/
def loadPage : Record × Store :=
  let (r, s) := s.loadPageInner mode cs page
  s.fixGeneratedFreePool mode cs page r

/-! ## Programs and erases -/

/-- Takes the files of pages away, and the pages out of memory, until the host refuses one. -/
def removePages (s : Store) (cs : Nat) : List Nat → Bool × Store
  | [] => (true, s)
  | p :: rest =>
    match s.overlay with
    | none => (true, s)
    | some o =>
      let (ok, o) := o.ask
      if ok then
        let o := { o with page := Function.update o.page (cs, p) .absent }
        removePages { s with
          overlay := some o
          physPages := Function.update s.physPages (blockKey cs p) none } cs rest
      else
        (false, ({ s with overlay := some o } : Store).ioError)

/-- `fmss_erase_block`: the marker first, then the pages. The steps that lead to the marker's name
in the directory leave nothing behind if one of them fails. -/
def eraseBlock (cs block : Nat) : Bool × Store :=
  match s.overlay with
  | none => (true, s)
  | some o =>
    let (ok, o) := o.ask
    if ok then
      let o := { o with marker := Function.update o.marker (cs, block) true }
      let first := block * pagesPerBlock
      match removePages { s with overlay := some o } cs (List.range' first pagesPerBlock) with
      | (true, s) => (true, s.rememberErased cs block)
      | (false, s) => (false, s)
    else
      (false, ({ s with overlay := some o } : Store).ioError)

/-- Takes the pages of a block out of memory. -/
def forgetBlock (cs block : Nat) : Store :=
  { s with
    physPages := (List.range' (block * pagesPerBlock) pagesPerBlock).foldl
      (fun pages p => Function.update pages (blockKey cs p) none) s.physPages }

/-- `fmss_script_erase`: an erase that a sequencer program issues; `select` are the chip enables. -/
def scriptErase (select row : Nat) : Bool × Store :=
  let block := row / pagesPerBlock
  if mode.physical = false ∨ (s.overlay.isNone ∧ s.image.isNone) then (true, s)
  else
    match (List.range chips).find? fun ce => select == 2 ^ ce with
    | none => (true, s)
    | some ce =>
      if blocksPerChip ≤ block then (true, s)
      else
        match s.image with
        | some n =>
          let (ok, n) := n.erase ce block
          let s := ({ s with image := some n } : Store).forgetBlock ce block
          (ok, if ok then s else s.ioError)
        | none => s.eraseBlock ce block

/-- With `FMSS_ERASE`, a program of a block that is not known to be erased, or of a page that there
is, stands for an erase of the block. -/
def inferErase : Bool × Store :=
  if mode.erase then
    let block := page / pagesPerBlock
    let (known, s) := s.blockIsErased mode cs block
    if known = false ∨ (s.overlayPage cs page).isAbsent = false then s.eraseBlock cs block
      else (true, s)
  else (true, s)

/-- `fmss_store_page`. The steps up to the temporary file that holds the page leave the page's own
file alone. -/
def storePage (r : Record) : Bool × Store :=
  match s.image with
  | some n =>
    let (ok, n) := n.write cs page r.bytes
    let s := { s with image := some n }
    (ok, if ok then s else s.ioError)
  | none =>
    match s.overlay with
    | none => (true, s)
    | some o =>
      let (staged, o) := o.ask
      let s := { s with overlay := some o }
      if staged = false then (false, s.ioError)
      else
        let (erased, s) := s.inferErase mode cs page
        if erased = false then (false, s)
        else
          match s.overlay with
          | none => (true, s)
          | some o =>
            let (renamed, o) := o.ask
            if renamed then
              let file : Lookup := .found ⟨bytesPerRecord, r.bytes⟩
              (true, { s with
                overlay := some { o with page := Function.update o.page (cs, page) file } })
            else
              (false, ({ s with overlay := some o } : Store).ioError)

/-- What `ipod_touch_fmss_reset` does to the pages: those of a generated image are forgotten. -/
def reset : Store :=
  if mode.physical then s else { s with physPages := fun _ => none }

end Store

end QemuIos.Fmss

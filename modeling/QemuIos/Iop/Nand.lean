import QemuIos.Lib.Block

/-!
# The page store of the IOP

The flash of the part: two buses of up to eight chips, each chip a file of pages. With an overlay
the files of the store are only read, and every program or erase lands in a second file of the same
layout; a bitmap in memory says which pages the overlay owns. Ownership is published to a third
file, when the machine stops.

In the `nand-xor-ff-v2` format a byte is stored with all bits inverted, so that a hole of the file
reads as erased flash.
-/

namespace QemuIos.Iop
open Block

/-- Buses of the part (`NAND_BUSES`). -/
def nandBuses : Nat := 2

/-- Chip enables of a bus (`NAND_CES`). -/
def nandCes : Nat := 8

/-- Metadata bytes of a page (`FMI_META_BYTES`), the first of the spare area. -/
def fmiMetaBytes : Nat := 10

/-- The largest page (`FMI_MAX_PAGE`). -/
def fmiMaxPage : Nat := 0x4000

/-- What a command is answered with. -/
inductive Status where
  | ok
  | blank
  | uecc
  | param
  | someBlank
  | someUecc
  | allUecc
  deriving DecidableEq, Repr

/-- The status words (`FMI_STATUS_*`). -/
def Status.code : Status → Nat
  | .ok => 1
  | .blank => 2
  | .uecc => 0x80000001
  | .param => 0x80000004
  | .someBlank => 0x80000023
  | .someUecc => 0x80000024
  | .allUecc => 0x80000025

/-- The geometry of a store, with what `s5l8930_iop_realize` checks of it. -/
structure Geometry where
  pageBytes : Nat
  spareBytes : Nat
  pagesPerBlock : Nat
  blocksPerCe : Nat
  page_pos : 0 < pageBytes
  meta_fits : fmiMetaBytes ≤ spareBytes
  page_max : pageBytes + spareBytes ≤ fmiMaxPage
  block_pos : 0 < pagesPerBlock
  blocks_pos : 0 < blocksPerCe
  pages_max : blocksPerCe * pagesPerBlock < 2 ^ 32

/-- The properties of the device. Without a store (`nand_dir` is null) the part is blank; an overlay
needs a store. -/
structure Part where
  nandId : Nat
  nandCeMask : Nat
  store : Option Geometry
  overlayDir : Bool
  nandXorFf : Bool
  overlay_store : overlayDir = true → store.isSome

namespace Part

variable (p : Part)

/-- Whether there is a store (`nand_dir`). -/
def nandDir : Bool := p.store.isSome

def pageStride : Nat := p.store.elim 0 fun g => g.pageBytes + g.spareBytes

def storePageBytes : Nat := p.store.elim 0 Geometry.pageBytes

def storePpb : Nat := p.store.elim 0 Geometry.pagesPerBlock

def pagesPerCe : Nat := p.store.elim 0 fun g => g.blocksPerCe * g.pagesPerBlock

/-- Whether a chip is there at all, on a bus and a chip enable. -/
def Populated (die : Nat × Nat) : Prop :=
  p.nandDir = true ∧ die.1 < nandBuses ∧ die.2 < nandCes ∧ p.nandCeMask.testBit die.2 = true

instance (p : Part) (die : Nat × Nat) : Decidable (p.Populated die) :=
  inferInstanceAs (Decidable (_ ∧ _))

end Part

/-- The files of a chip, by bus and chip enable: the pages of the store, those of the overlay, and
the bitmap of the pages the overlay owns. -/
inductive File where
  | chip (die : Nat × Nat)
  | ovl (die : Nat × Nat)
  | ownership (die : Nat × Nat)
  deriving DecidableEq, Repr

/-- The storage side of the device: the files, the bitmaps in memory and which of them are not yet
published, the latch of a failed request, and the geometry that the host has set per bus. -/
structure Nand where
  part : Part
  disk : Layer File
  dirty : Nat × Nat → Mem
  ownershipPending : Nat × Nat → Bool
  storageFailed : Bool
  bytesPerPage : Nat → Nat
  bytesPerSpare : Nat → Nat
  pagesPerBlock : Nat → Nat

namespace Nand

variable (n : Nand)

/-- An address that is off the part. -/
def nandAddrBad (bus : Int) (ce page : Nat) : Bool :=
  decide (bus < 0) || decide (bus ≥ nandBuses) || decide (ce ≥ nandCes) ||
    !n.part.nandCeMask.testBit ce || (n.part.nandDir && decide (page ≥ n.part.pagesPerCe))

/-- The overlay owns a page. -/
def nandDirty (die : Nat × Nat) (page : Nat) : Bool :=
  n.part.overlayDir && Mem.bit (n.dirty die) page

/-- The overlay takes a page; a bit that was not set yet leaves the bitmap to be published. -/
def nandSetDirty (die : Nat × Nat) (page : Nat) : Nand :=
  { n with
    ownershipPending := Function.update n.ownershipPending die
      (n.ownershipPending die || !Mem.bit (n.dirty die) page)
    dirty := Function.update n.dirty die (Mem.setBit (n.dirty die) page) }

/-- The file a page is read from or written to. -/
def nandBackend (die : Nat × Nat) (page : Nat) (forWrite : Bool) : Option File :=
  if n.part.nandDir then
    some (if n.part.overlayDir && (forWrite || n.nandDirty die page) then .ovl die else .chip die)
  else none

/-- A request that failed latches: the session can no longer be saved. -/
def nandIoError (fine : Bool) : Nand × Status :=
  if fine then (n, .ok) else ({ n with storageFailed := true }, .uecc)

/-- All of the first `len` bytes are ones. -/
def allOnes (data : Mem) (len : Nat) : Bool := (List.range len).all fun i => data i == 0xff

/-- What `nand_read_page` makes of the bytes it has read: the buffers and the status. -/
def decodePage (p data mark : Mem) : Status × Mem × Mem :=
  let len := n.part.pageStride
  if !n.part.nandXorFf && (List.range len).all (fun i => p i == 0) then
    -- a legacy file does not tell a hole from zeros
    (.blank, data, mark)
  else
    let data' := Mem.blit data 0 len fun i => if n.part.nandXorFf then p i ^^^ 0xff else p i
    let mark' := Mem.blit mark 0 fmiMetaBytes (Mem.slice data' n.part.storePageBytes)
    (if allOnes data' len then .blank else .ok, data', mark')

/-- Read a page with its spare area, and the metadata at the start of the spare. -/
def nandReadPage (bus : Int) (ce page : Nat) (data mark : Mem) :
    Nand × Status × Mem × Mem :=
  let len :=
    if 0 ≤ bus ∧ bus < nandBuses then
      max n.part.pageStride (n.bytesPerPage bus.toNat + n.bytesPerSpare bus.toNat)
    else n.part.pageStride
  let data := Mem.blit data 0 len fun _ => 0xff
  let mark := Mem.blit mark 0 fmiMetaBytes fun _ => 0xff
  if n.nandAddrBad bus ce page then (n, .param, data, mark)
  else
    match n.nandBackend (bus.toNat, ce) page false with
    | none => (n, .blank, data, mark)
    | some blk =>
      let read := n.disk.pread blk (page * n.part.pageStride) n.part.pageStride
      let got := nandIoError { n with disk := read.1 } read.2.2
      if got.2 ≠ .ok then (got.1, got.2, data, mark)
      else (got.1, n.decodePage read.2.1 data mark)

/-- Inverted bytes, put on top of inverted bytes: what is stored if zeros clear bits and ones leave
them alone. -/
def orInverted (p : Mem) (a len : Nat) (src : Mem) : Mem :=
  fun k => if a ≤ k ∧ k < a + len then p k ||| (src (k - a) ^^^ 0xff) else p k

/-- The stored page after `len` bytes of data and the metadata, if any, have been programmed. -/
def programmed (p data : Mem) (len : Nat) (mark : Option Mem) : Mem :=
  if n.part.nandXorFf then
    let p := orInverted p 0 len data
    mark.elim p fun mark => orInverted p n.part.storePageBytes fmiMetaBytes mark
  else
    let p := Mem.blit p 0 (min len n.part.pageStride) data
    mark.elim p fun mark => Mem.blit p n.part.storePageBytes fmiMetaBytes mark

/-- Program a page: `len` bytes of data from its start, the metadata at the start of the spare. -/
def nandProgramPage (bus : Int) (ce page : Nat) (data : Mem) (len : Nat)
    (mark : Option Mem) : Nand × Status :=
  if n.nandAddrBad bus ce page || (n.part.nandXorFf && decide (len > n.part.pageStride)) then
    (n, .param)
  else
    match n.nandBackend (bus.toNat, ce) page true, n.nandBackend (bus.toNat, ce) page false with
    | some blk, some old =>
      let off := page * n.part.pageStride
      let read := n.disk.pread old off n.part.pageStride
      let got := nandIoError { n with disk := read.1 } read.2.2
      if got.2 ≠ .ok then got
      else
        let written := got.1.disk.pwrite blk off n.part.pageStride
          (n.programmed read.2.1 data len mark)
        let done := nandIoError { got.1 with disk := written.1 } written.2
        if done.2 = .ok ∧ n.part.overlayDir = true then
          (done.1.nandSetDirty (bus.toNat, ce) page, done.2)
        else done
    | _, _ => (n, .ok)

/-- Erase a block: its pages are zeros in the file. -/
def nandEraseBlock (bus : Int) (ce block : Nat) : Nand × Status :=
  let first := block * n.part.storePpb
  if first > 2 ^ 32 - 1 ∨
      (n.part.nandDir = true ∧ first + n.part.storePpb > n.part.pagesPerCe) then (n, .param)
  else if n.nandAddrBad bus ce first then (n, .param)
  else
    match n.nandBackend (bus.toNat, ce) first true with
    | none => (n, .ok)
    | some blk =>
      let written := n.disk.pwrite blk (first * n.part.pageStride)
        (n.part.storePpb * n.part.pageStride) fun _ => 0
      let done := nandIoError { n with disk := written.1 } written.2
      if done.2 = .ok ∧ n.part.overlayDir = true then
        ((List.range n.part.storePpb).foldl
          (fun n i => n.nandSetDirty (bus.toNat, ce) (first + i)) done.1, done.2)
      else done

end Nand

end QemuIos.Iop

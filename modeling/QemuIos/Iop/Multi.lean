import QemuIos.Iop.Nand

/-!
# Commands about several pages or blocks

A multi-page command streams its pages through lists of DMA segments, which a cursor walks from
page to page. The outcome goes back in words of the command, whose places depend on the firmware.
-/

namespace QemuIos.Iop

/-- Where the window of the IOP shows DRAM (`s5l8930_iop_pa`). -/
def iopPa (a : Nat) : Nat := if a / 2 ^ 28 % 16 = 12 then a - 0xc0000000 + 0x40000000 else a

/-- The most pages of a command (`FMI_MAX_MULTI`). -/
def fmiMaxMulti : Nat := 0x200

/-- The size of a command (`CMD_SIZE`). -/
def cmdSize : Nat := 0x200

/-! ## Segments -/

/-- A place in a list of segments, each an address and a length. -/
structure SegCursor where
  list : Nat
  nseg : Nat
  idx : Nat
  off : Nat

def segCursorInit (list bytes : Nat) : SegCursor := ⟨list, bytes / 8, 0, 0⟩

/-- `seg_copy`, at most so many turns of its loop: guest memory and the buffer, of which the part
from `pos` on is still to be copied. -/
def segCopy (toGuest : Bool) : Nat → SegCursor → Mem → Mem → Nat → Nat → SegCursor × Mem × Mem
  | 0, c, mem, buf, _, _ => (c, mem, buf)
  | fuel + 1, c, mem, buf, pos, len =>
    -- a list that is too short ends the copy
    if len = 0 ∨ c.nseg ≤ c.idx then (c, mem, buf)
    else
      let phys := mem.word (iopPa (c.list + 8 * c.idx))
      let slen := mem.word (iopPa (c.list + 8 * c.idx + 4))
      let chunk := min len ((slen + (2 ^ 32 - c.off)) % 2 ^ 32)
      let start := iopPa ((phys + c.off) % 2 ^ 32)
      let off := (c.off + chunk) % 2 ^ 32
      segCopy toGuest fuel (if slen ≤ off then { c with idx := c.idx + 1, off := 0 }
        else { c with off }) (if toGuest then Mem.blit mem start chunk (Mem.slice buf pos) else mem)
        (if toGuest then buf else Mem.blit buf pos chunk (Mem.slice mem start))
        (pos + chunk) (len - chunk)

/-! ## Pages -/

/-- Fold the results of the pages that were read. -/
def fmiMultiStatus (n blank uecc : Nat) : Status :=
  if blank ≠ 0 then if n ≤ blank then .blank else .someBlank
  else if uecc ≠ 0 then if n ≤ uecc then .allUecc else .someUecc
  else .ok

/-- The variables of `fmi_multi`: the store and guest memory, the buffers of a page and of its
metadata, the two cursors, what was counted, and the chip and index of the page that failed. -/
structure Multi where
  nand : Nand
  mem : Mem
  page : Mem
  mark : Mem
  data : SegCursor
  metas : SegCursor
  blank : Nat
  uecc : Nat
  st : Status
  failed : Option (Nat × Nat)

namespace Multi

/-- A copy between guest memory and the page, then one with the metadata. -/
def copies (toGuest : Bool) (bytesPerPage : Nat) (s : Multi) : Multi :=
  let (data, mem, page) :=
    segCopy toGuest (bytesPerPage + s.data.nseg) s.data s.mem s.page 0 bytesPerPage
  let (metas, mem, mark) :=
    segCopy toGuest (fmiMetaBytes + s.metas.nseg) s.metas mem s.mark 0 fmiMetaBytes
  { s with data, metas, mem, page, mark }

/-- One page. -/
def turn (write : Bool) (bus : Int) (ce pg : Nat) (s : Multi) : Multi :=
  let len := s.nand.bytesPerPage bus.toNat
  if write then
    let s := s.copies false len
    let (nand, st) := s.nand.nandProgramPage bus ce pg s.page len (some s.mark)
    { s with nand, st }
  else
    let (nand, st, page, mark) := s.nand.nandReadPage bus ce pg s.page s.mark
    { s with
      nand, st, page, mark
      blank := s.blank + if st = Status.blank then 1 else 0
      uecc := s.uecc + if st = Status.uecc then 1 else 0 }.copies true len

/-- The chip of a page: from the second firmware on the array is one of half-words. -/
def chipAt (arg ces i : Nat) (s : Multi) : Nat :=
  if arg ≠ 0 then s.mem.half (iopPa (ces + 2 * i)) else s.mem.word (iopPa (ces + 4 * i))

/-- Whether the loop ends with this page. -/
def stops (write : Bool) (st : Status) : Bool := (write && st ≠ .ok) || st = .param

/-- So many pages from one on. -/
def pagesFrom (write : Bool) (arg : Nat) (bus : Int) (ces pages : Nat) : Nat → Nat → Multi → Multi
  | 0, _, s => s
  | k + 1, i, s =>
    let ce := s.chipAt arg ces i
    let s := s.turn write bus ce (s.mem.word (iopPa (pages + 4 * i)))
    if stops write s.st then { s with failed := some (ce, i) }
    else pagesFrom write arg bus ces pages k (i + 1) s

end Multi

/-- A word of a command, at the place the loaded firmware has it. -/
def fmiArg (cmd : Mem) (arg off : Nat) : Nat := cmd.word (off + arg)

/-- What `fmi_multi` refuses. -/
def multiRefused (arg : Nat) (cmd : Mem) : Bool :=
  fmiArg cmd arg 0x10 = 0 || fmiMaxMulti < fmiArg cmd arg 0x10 || fmiArg cmd arg 0x14 = 0 ||
    fmiArg cmd arg 0x18 = 0 || fmiArg cmd arg 0x1c = 0 || fmiArg cmd arg 0x24 = 0

/-- The variables before the loop. -/
def multiStart (arg : Nat) (cmd : Mem) (nand : Nand) (mem page mark : Mem) : Multi where
  nand := nand
  mem := mem
  page := page
  mark := mark
  data := segCursorInit (fmiArg cmd arg 0x1c) (fmiArg cmd arg 0x20)
  metas := segCursorInit (fmiArg cmd arg 0x24) (fmiArg cmd arg 0x28)
  blank := 0
  uecc := 0
  st := .ok
  failed := none

/-- `fmi_multi`: the variables after the loop, the command with its outcome, and the status. -/
def fmiMulti (write : Bool) (arg : Nat) (bus : Int) (cmd : Mem) (nand : Nand)
    (mem page mark : Mem) : Multi × Mem × Status :=
  let start := multiStart arg cmd nand mem page mark
  if multiRefused arg cmd then (start, cmd, .param)
  else
    let n := fmiArg cmd arg 0x10
    let s := Multi.pagesFrom write arg bus (fmiArg cmd arg 0x14) (fmiArg cmd arg 0x18) n 0 start
    let st := if s.failed = none then if write then .ok else fmiMultiStatus n s.blank s.uecc
      else s.st
    let failedCe := s.failed.elim (2 ^ 32 - 1) Prod.fst
    let failedIndex := s.failed.elim (2 ^ 32 - 1) Prod.snd
    let completed := s.failed.elim n Prod.snd
    let cmd := (cmd.setWord (0x5c + arg) completed).setWord (0x60 + arg) st.code
    (s, if arg ≠ 0 then cmd.setWord (0x68 + arg) failedIndex
      else (cmd.setWord 0x70 failedCe).setWord 0x74 failedIndex, st)

/-! ## Blocks -/

/-- Blocks, given by chip and number, are erased in order. -/
def eraseEach (bus : Int) : List (Nat × Nat) → Nand → Nand × List Status
  | [], n => (n, [])
  | (ce, block) :: ops, n =>
    let (n, st) := n.nandEraseBlock bus ce block
    let (n, results) := eraseEach bus ops n
    (n, st :: results)

/-- The blocks a command names. -/
def eraseOps (arg : Nat) (cmd : Mem) : List (Nat × Nat) :=
  (List.range (fmiArg cmd arg 0x10)).map fun i =>
    if arg ≠ 0 then (cmd.half (0x14 + arg + 2 * i), cmd.word (0x34 + arg + 4 * i))
    else (cmd.word (0x14 + 4 * i), cmd.word (0x54 + 4 * i))

/-- What `fmi_erase_multiple` refuses. -/
def eraseRefused (arg : Nat) (cmd : Mem) : Bool :=
  16 < fmiArg cmd arg 0x10 ||
    arg = 0 && (cmd.word 0xa0 = 0 || cmd.word 0xa4 < 4 || cmdSize < cmd.word 0xa4)

/-- `fmi_erase_multiple`: the store, guest memory with the ring of statuses that only the first
firmware has, the command with its outcome, and the status. -/
def fmiEraseMultiple (arg : Nat) (bus : Int) (cmd : Mem) (nand : Nand) (mem : Mem) :
    Nand × Mem × Mem × Status :=
  if eraseRefused arg cmd then (nand, mem, cmd, .param)
  else
    let n := fmiArg cmd arg 0x10
    let (nand, results) := eraseEach bus (eraseOps arg cmd) nand
    let st := if results.all (· = .ok) then .ok else .uecc
    if arg ≠ 0 then
      (nand, mem, (cmd.setWord (0x74 + arg) n).setWord (0x80 + arg) (2 ^ 32 - 1), st)
    else
      let ring := cmd.word 0xa0
      let slots := cmd.word 0xa4 / 4
      (nand, results.zipIdx.foldl (fun mem (r, i) =>
        mem.setWord (iopPa ((ring + 4 * (i % slots)) % 2 ^ 32)) (if r = .ok then 0 else r.code))
          mem,
        cmd.setWord 0x94 n, st)

end QemuIos.Iop

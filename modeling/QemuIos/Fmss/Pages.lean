import QemuIos.Fmss.Store

/-!
# Reads and writes of pages by the FMSS

The controller moves pages between the store and the guest's memory, along lists that the guest
gives (`read_nand_pages` and `write_nand_pages`, `hw/arm/ipod_touch_fmss.c`). The words of the lists
are what the DMA reads of them return, by their place in the list; a DMA access may fail.
-/

namespace QemuIos.Fmss

/-- `find_bit_index`: the highest bit of a byte. -/
def findBitIndex (num : Nat) : Nat := Nat.log2 (num % 2 ^ 8)

/-! ## Reads -/

/-- What the DMA gives a read: the words of its three lists, and whether each transfer into the
guest's memory goes through. -/
structure ReadDma where
  page : Nat → Option Nat
  cs : Nat → Option Nat
  out : Nat → Option Nat
  accepts : Nat → Bool

/-- Bytes written into the guest's memory. -/
structure Transfer where
  addr : Nat
  len : Nat
  bytes : Mem

/-- A read that is under way. -/
structure Reading where
  store : Store
  clean : Bool
  outInd : Nat
  transfers : List Transfer

variable (mode : Mode)

namespace Reading

/-- `fmss_read_dma_write`. -/
def write (dma : ReadDma) (r : Reading) (t : Transfer) : Except Reading Reading :=
  if dma.accepts r.transfers.length then .ok { r with transfers := r.transfers ++ [t] }
    else .error r

/-- Half a page, to the next address of the list of addresses. -/
def writeHalf (dma : ReadDma) (bytes : Mem) (r : Reading) : Except Reading Reading :=
  match dma.out r.outInd with
  | none => .error r
  | some addr =>
    match r.write dma ⟨addr, bytesPerPage / 2, bytes⟩ with
    | .ok r => .ok { r with outInd := r.outInd + 1 }
    | .error r => .error r

/-- One entry of the lists. The address of the spare is computed in 32 bits. -/
def entry (dma : ReadDma) (spareOut : Nat) (r : Reading) (i : Nat) :
    Except Reading Reading :=
  match dma.page i, dma.cs i with
  | some page, some word =>
    let cs := findBitIndex word
    -- A bad chip select skips the page.
    if 3 < cs then .ok r
    else
      let (rec', store) := r.store.loadPage mode cs page
      let r := { r with store := store, clean := r.clean && rec'.erased }
      match r.writeHalf dma rec'.data with
      | .error r => .error r
      | .ok r =>
        match r.writeHalf dma (rec'.data.slice (bytesPerPage / 2)) with
        | .error r => .error r
        | .ok r => r.write dma ⟨(spareOut + 12 * i) % 2 ^ 32, 12, rec'.spare⟩
  | _, _ => .error r

end Reading

/-- `read_nand_pages`: the store, the transfers made, and `read_clean`. -/
def readNandPages (s : Store) (numPages : Nat) (dma : ReadDma) (spareOut : Nat) :
    Store × List Transfer × Bool :=
  let start : Reading := ⟨s, mode.physical && 0 < numPages, 0, []⟩
  match (List.range numPages).foldlM (Reading.entry mode dma spareOut) start with
  | .ok r => (r.store, r.transfers, r.clean)
  | .error r => (r.store, r.transfers, false)

/-! ## Writes -/

/-- What the DMA gives a write: the words of the script and of the list of addresses, the bytes of
each half of a page and the spares. -/
structure WriteDma where
  /-- The first word of the list of pages, which only `FMSS_LEGACY` reads. -/
  header : Option Nat
  cmd : Nat → Option Nat
  page : Nat → Option Nat
  src : Nat → Option Nat
  half : Nat → Option Mem
  spare : Nat → Option Mem

/-- `FMSS_MAX_WRITE_ENTRIES`. -/
def maxWriteEntries : Nat := 4 * 4096 * pagesPerBlock

/-- Half a page: an address of 0 stands for zeros. -/
def WriteDma.gather (dma : WriteDma) (j : Nat) : Option Mem :=
  match dma.src j with
  | none => none
  | some 0 => some fun _ => 0
  | some _ => dma.half j

/-- The page and the spare that an entry brings. -/
def WriteDma.record (dma : WriteDma) (i : Nat) : Option Record :=
  match dma.src (2 * i), dma.src (2 * i + 1) with
  | some _, some _ =>
    match dma.gather (2 * i), dma.gather (2 * i + 1), dma.spare i with
    | some low, some high, some spare =>
      some ⟨Mem.blit low (bytesPerPage / 2) (bytesPerPage / 2) high,
        Mem.blit (fun _ => 0) 0 12 spare⟩
    | _, _, _ => none
  | _, _ => none

/-- The spare that marks a page of the generated image. -/
def generatedSpare : Mem := Mem.setWord (fun _ => 0) 8 0x00FF00FF

namespace Store

/-- An entry's command is for one chip select, and its page is on the chip. -/
def acceptsEntry (cmd page : Nat) : Bool :=
  let select := cmd % 2 ^ 8
  select != 0 && select &&& (select - 1) == 0 && findBitIndex cmd ≤ 3 &&
    page < blocksPerChip * pagesPerBlock

/-- Stores and remembers a page that a script programs. -/
def program (s : Store) (cs page : Nat) (r : Record) : Bool × Store :=
  if mode.physical then
    match s.storePage mode cs page r with
    | (true, s) => (true, s.rememberPhysical cs page r)
    | (false, s) => (false, s)
  else
    match s.layout (r.spare.word 0) with
    | (none, s) => (true, s.rememberPhysical cs page r)
    | (some (cs', page'), s) =>
      match s.storePage mode cs' page' { r with spare := generatedSpare } with
      | (true, s) => (true, s.rememberPhysical cs page r)
      | (false, s) => (false, s)

/-- One entry of a write script whose command and page have been read. -/
def writeEntry (dma : WriteDma) (s : Store) (i cmd page : Nat) : Bool × Store :=
  if acceptsEntry cmd page = false then (false, s.ioError)
  else
    match dma.record i with
    | none => (false, s.ioError)
    | some r => s.program mode (findBitIndex cmd) page r

/-- The entries from `i` on, until the script ends or one of them fails. -/
def writeEntries (mode : Mode) (dma : WriteDma) (header : Nat) (count : Int) :
    Nat → Nat → Store → Store
  | 0, _, s => s.ioError
  | fuel + 1, i, s =>
    if mode.legacy then
      if count ≤ i then s
      else
        match dma.page i with
        | none => s.ioError
        | some page =>
          match s.writeEntry mode dma i (2 ^ ((header + i) % 4)) page with
          | (true, s) => writeEntries mode dma header count fuel (i + 1) s
          | (false, s) => s
    else
      match dma.cmd i with
      | none => s.ioError
      | some 0 => s
      | some cmd =>
        match dma.page i with
        | none => s.ioError
        | some page =>
          match s.writeEntry mode dma i cmd page with
          | (true, s) => writeEntries mode dma header count fuel (i + 1) s
          | (false, s) => s

end Store

/-- `write_nand_pages`. -/
def writeNandPages (s : Store) (numPages : Nat) (dma : WriteDma) : Store :=
  if s.ioFailed then s
  else if s.overlay.isNone ∧ s.image.isNone then s
  else
    -- The count is compared as an `int`.
    let count : Int := (BitVec.ofNat 32 numPages).toInt
    if mode.legacy then
      match dma.header with
      | none => s.ioError
      | some word => s.writeEntries mode dma (findBitIndex word) count maxWriteEntries 0
    else s.writeEntries mode dma 0 count maxWriteEntries 0

/-- What the guest can have done to the pages: a write script, an erase, a read of a page, a
reset. -/
inductive PageEvent where
  | write (numPages : Nat) (dma : WriteDma)
  | erase (select row : Nat)
  | load (cs page : Nat)
  | reset

def Store.step (s : Store) : PageEvent → Store
  | .write numPages dma => writeNandPages mode s numPages dma
  | .erase select row => (s.scriptErase mode select row).2
  | .load cs page => (s.loadPage mode cs page).2
  | .reset => s.reset mode

end QemuIos.Fmss

import QemuIos.Fmc.Store

/-!
# The FMC and the ADM in front of it

The FMC has one FIFO over one page buffer: reads pop words of the page the registers or the ADM's
list address, which is loaded into the buffer unless the buffer is tagged with it, and programs push
words into the same buffer until a page is complete. The ADM runs the commands the flash driver
leaves in guest memory.
-/

namespace QemuIos.Fmc

def metaBytes : Nat := 12
def maxList : Nat := 512
def programPad : Nat := 16
def chipId : UInt32 := 0xA514D3AD
def cmdId : UInt32 := 0x90
def cmdRead : UInt32 := 0x30
def cmdReadStatus : UInt32 := 0x70

/-- The registers of the FMC. -/
inductive Reg
  | fmctrl0 | fmctrl1 | cmd | fmaddr0 | fmaddr1 | fmanum | fmdnum | fmcstat | fmfifo | rsctrl
  deriving DecidableEq

/-- What the host makes of a program or an erase. What a failed one leaves in the store is up to the
host; `stack` is what the buffers of a program hold before. -/
inductive Host
  | ok (stack : Record)
  | failed (left : Store)

structure FmcState where
  store : Store
  banks : Nat
  fmctrl0 : UInt32
  fmctrl1 : UInt32
  fmaddr0 : UInt32
  fmaddr1 : UInt32
  fmanum : UInt32
  fmdnum : UInt32
  rsctrl : UInt32
  cmd : UInt32
  readingSpare : Bool
  /-- `page_buffer` and `page_spare_buffer`. -/
  buffer : Record
  bufferedBank : Int
  bufferedPage : Int32
  readingMultiplePages : Bool
  curBankReading : Int32
  banksToRead : Nat → Nat
  /-- What an index that has wrapped around reads in front of `banks_to_read`. -/
  outside : Int32 → Nat
  pagesToRead : Nat → UInt32
  isWriting : Bool
  progCount : Nat
  progIndex : Nat
  progPad : Nat
  progSpares : Nat → Mem
  /-- A program word went into the page buffer since a page was loaded there. The device keeps no
  such flag and nothing here reads it. -/
  staged : Bool

namespace FmcState

variable (s : FmcState)

def activeBank : Option Nat :=
  (List.range numBanks).find? fun bank => (s.fmctrl0 >>> 1 &&& 0xFF).toNat.testBit bank

def setBank (bank : Nat) : FmcState :=
  let cleared := s.fmctrl0 &&& ~~~((0xFF : UInt32) <<< 1)
  let selected := cleared ||| (1 : UInt32) <<< UInt32.ofNat (bank + 1)
  { s with fmctrl0 := if bank < numBanks then selected else cleared }

/-- `s5l8900_fmc_buffer_page`: load a page of the active bank unless it is there already. -/
def bufferPage (page : UInt32) : FmcState :=
  match s.activeBank with
  | none => s
  | some bank =>
    if (bank : Int) ≠ s.bufferedBank ∨ page.toInt32 ≠ s.bufferedPage then
      { s with
        buffer := s.store.loadPage bank page.toNat s.buffer
        bufferedPage := page.toInt32
        bufferedBank := bank
        staged := false }
    else s

/-- `fmc_program_page`, on the store behind the device. -/
def programPage (bank page : Nat) (new : Record) (host : Host) : FmcState :=
  let s := { s with bufferedPage := -1 }
  match host with
  | .ok stack => { s with store := s.store.programPage bank page new stack }
  | .failed left => { s with store := left }

/-- `s5l8900_fmc_erase_block`, on the store behind the device. -/
def eraseBlock (bank block : Nat) (host : Host) : FmcState :=
  let s := { s with bufferedPage := -1 }
  match host with
  | .ok _ => { s with store := s.store.eraseBlock bank block }
  | .failed left => { s with store := left }

def startProgram (count : Nat) : FmcState :=
  { s with
    readingMultiplePages := false
    progCount := count
    progIndex := 0
    progPad := 0
    fmdnum := UInt32.ofNat bytesPerPage
    isWriting := decide (0 < count) }

/-! ## The FIFO -/

/-- A word of a buffer. -/
def wordAt (m : Mem) (i : Nat) : UInt32 := UInt32.ofNat (m.word (4 * i))

/-- The word a list read is at, counted from the start of its page. -/
def listIndex (fmdnum : UInt32) : Nat :=
  let offset := fmdnum.toNat % bytesPerPage
  (bytesPerPage - if offset = 0 then bytesPerPage else offset) / 4

/-- The word a single read is at; the difference wraps. -/
def singleIndex (size : Nat) (fmdnum : UInt32) : Nat :=
  ((UInt32.ofNat size - fmdnum - 1) / 4).toNat

/-- The page the address registers name. -/
def addressedPage : UInt32 := s.fmaddr1 <<< 16 ||| s.fmaddr0 >>> 16

/-- An entry of `banks_to_read`; the index is signed. -/
def bankAt (i : Int32) : Nat :=
  if 0 ≤ i.toInt then s.banksToRead i.toInt.toNat else s.outside i

/-- Go on to the next page of the list at the start of a page, and select its bank. -/
def nextOfList : FmcState :=
  if s.fmdnum.toNat % bytesPerPage = 0 then
    let s := { s with curBankReading := s.curBankReading + 1 }
    if (maxList : Int) ≤ s.curBankReading.toInt then s else s.setBank (s.bankAt s.curBankReading)
  else s

/-- The list has no page left. -/
def overrun : Bool :=
  s.fmdnum.toNat % bytesPerPage = 0 ∧ (maxList : Int) ≤ s.nextOfList.curBankReading.toInt

/-- The state a read leaves when the page it is about has been asked for, before it counts down. -/
def request : FmcState :=
  if s.readingMultiplePages then
    let s := s.nextOfList
    if 0 ≤ s.curBankReading.toInt then s.bufferPage (s.pagesToRead s.curBankReading.toInt.toNat)
    else s
  else s.bufferPage s.addressedPage

/-- The word a read takes from the buffers. -/
def pick (readingMultiplePages readingSpare : Bool) (fmdnum : UInt32) (buffer : Record) : UInt32 :=
  if readingMultiplePages then wordAt buffer.data (listIndex fmdnum)
  else
    let i := singleIndex (if readingSpare then bytesPerSpare else bytesPerPage) fmdnum
    if readingSpare then if i < bytesPerSpare / 4 then wordAt buffer.spare i else 0
    else if i < bytesPerPage / 4 then wordAt buffer.data i else 0

def fifoPop : FmcState × UInt32 :=
  if s.cmd = cmdId then
    -- A chip enable with no chip behind it answers nothing.
    (s, if (s.activeBank.any fun bank => decide (bank < s.banks)) then chipId else 0)
  else if s.cmd = cmdReadStatus then (s, (1 : UInt32) <<< 6)
  else if s.readingMultiplePages && s.overrun then (s.nextOfList, 0)
  else
    ({ s.request with fmdnum := s.fmdnum - 4 },
      pick s.readingMultiplePages s.readingSpare s.fmdnum s.request.buffer)

def read : Reg → FmcState × UInt32
  | .fmctrl0 => (s, s.fmctrl0)
  | .fmfifo => s.fifoPop
  | .fmcstat => (s, 0x1FFE)
  | .rsctrl => (s, s.rsctrl)
  | _ => (s, 0)

/-- A program word is taken into the page buffer: FMDNUM is inside the page and aligned, and the
list has a page for it. -/
def takesWord : Bool :=
  ¬ (s.fmdnum = 0 ∨ s.fmdnum.toNat > bytesPerPage ∨ s.fmdnum &&& 3 ≠ 0 ∨
    s.progIndex ≥ min s.progCount maxList)

/-- Put a word into the page buffer; a complete page is programmed. -/
def stage (val : UInt32) (host : Host) : FmcState :=
  let buffer := { s.buffer with
    data := s.buffer.data.setWord ((bytesPerPage - s.fmdnum.toNat) / 4 * 4) val.toNat }
  let s := { s with buffer := buffer, fmdnum := s.fmdnum - 4, staged := true }
  if s.fmdnum = 0 then
    let i := s.progIndex
    -- Bytes 12..63 are the controller's ECC.
    let spare := Mem.blit (fun _ => 0xff) 0 metaBytes (s.progSpares i)
    let s := { s with progIndex := i + 1 }
    let s := s.programPage (s.banksToRead i) (s.pagesToRead i).toNat ⟨buffer.data, spare⟩ host
    { s with fmdnum := UInt32.ofNat bytesPerPage, progPad := programPad }
  else s

/-- A word of a program: each page's data, then a pad that carries nothing. -/
def fifoPush (val : UInt32) (host : Host) : FmcState :=
  if ¬ s.isWriting then s
  else if s.progPad ≠ 0 then
    let left := s.progPad - 4
    { s with progPad := left, isWriting := ¬ (left = 0 ∧ s.progIndex = s.progCount) }
  else if s.takesWord then s.stage val host
  else { s with isWriting := false }

def write (reg : Reg) (val : UInt32) (host : Host) : FmcState :=
  match reg with
  | .fmctrl0 => { s with fmctrl0 := val }
  | .fmctrl1 => { s with fmctrl1 := val }
  | .fmaddr0 => { s with fmaddr0 := val }
  | .fmaddr1 => { s with fmaddr1 := val }
  | .fmanum => { s with fmanum := val }
  | .cmd => { s with cmd := val }
  | .fmdnum => { s with readingSpare := val.toNat == bytesPerSpare - 1, fmdnum := val }
  | .fmfifo => s.fifoPush val host
  | .rsctrl => { s with rsctrl := val }
  | .fmcstat => s

def reset : FmcState :=
  { s with
    fmctrl0 := 0, fmctrl1 := 0, fmaddr0 := 0, fmaddr1 := 0, fmanum := 0, fmdnum := 0, rsctrl := 0
    cmd := 0
    readingSpare := false
    readingMultiplePages := false
    isWriting := false
    progCount := 0, progIndex := 0, progPad := 0
    curBankReading := -1
    bufferedPage := -1
    bufferedBank := -1 }

end FmcState

end QemuIos.Fmc

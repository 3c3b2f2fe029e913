import QemuIos.Fmc.Device

/-!
# The ADM

The flash driver drops a transfer block into the ADM's data2 section of guest memory and kicks
CTRL2: the ADM queues a page list on the FMC, reports spares into data3, starts a program or erases
a block.
-/

namespace QemuIos.Fmc

def admTfV17 : UInt32 := 0x1104
def admTfV14 : UInt32 := 0x824
def admCmdOffset : Nat := 0x24
def admCmdNpages : Nat := 0x28
def admCmdCe : Nat := 0x34
def admCmdBanks : Nat := 0x44
def admStatusClean : UInt32 := 0xFE

/-- The registers of the ADM. -/
inductive AdmReg
  | ctrl | ctrl2 | codeSecAddr | data1SecAddr | data2SecAddr | data3SecAddr | other
  deriving DecidableEq

structure AdmState where
  codeSecAddr : UInt32
  data1SecAddr : UInt32
  data2SecAddr : UInt32
  data3SecAddr : UInt32
  /-- The completion mailbox, four words. -/
  result : Nat → UInt32
  /-- The transfer block's offset in data2, 0 if it is not found yet. -/
  tf : UInt32
  irq : Bool

/-- The two devices and guest memory. -/
structure System where
  fmc : FmcState
  adm : AdmState
  mem : Mem

namespace System

def be16 (m : Mem) (a : Nat) : Nat := 2 ^ 8 * (m a).toNat + (m (a + 1)).toNat

def be32 (m : Mem) (a : Nat) : UInt32 := UInt32.ofNat (2 ^ 16 * be16 m a + be16 m (a + 2))

/-- The transfer block: the first word in data2 followed by the three section addresses. -/
def admFindTf (a : AdmState) (mem : Mem) : AdmState × UInt32 :=
  if a.tf ≠ 0 then (a, a.tf)
  else
    let base := a.data2SecAddr.toNat
    let found := (List.range 2045).find? fun i =>
      be32 mem (base + 4 * i + 4) == a.data1SecAddr &&
        be32 mem (base + 4 * i + 8) == a.data2SecAddr &&
        be32 mem (base + 4 * i + 12) == a.data3SecAddr
    match found with
    | some i => ({ a with tf := UInt32.ofNat (4 * i) }, UInt32.ofNat (4 * i))
    | none => (a, admTfV17)

/-- Where the page numbers start; each firmware lists its own number of banks before them. -/
def admPagesOff (a : AdmState) : Nat := admCmdBanks + if a.tf = admTfV14 then 0x400 else 0x200

/-- `adm_report_spares`: the first 12 spare bytes of each queued page, into data3. The buffers are
the same for all of them. -/
def admReportSpares (fmc : FmcState) (a : AdmState) (n : Nat) (stack : Record) (mem : Mem) : Mem :=
  ((List.range n).foldl (fun (acc : Record × Mem) i =>
    let got := fmc.store.loadPage (fmc.banksToRead i) (fmc.pagesToRead i).toNat acc.1
    let into := (a.data3SecAddr + UInt32.ofNat (i * metaBytes)).toNat
    (got, acc.2.blit into metaBytes got.spare)) (stack, mem)).2

/-- The commands of the ADM. -/
inductive AdmCmd
  | readSeq | read | writeSeq | write | erase | unknown
  deriving DecidableEq

def AdmCmd.ofWord (word : Nat) : AdmCmd :=
  if word = 0x200 then .readSeq
  else if word = 0x300 then .read
  else if word = 0x400 then .writeSeq
  else if word = 0x500 then .write
  else if word = 0x600 then .erase
  else .unknown

variable (s : System) (cmdblk pages numPages : Nat) (host : Host) (stack : Record)

/-- The same page from every bank, row after row. -/
def admReadSeq : System :=
  let page := be32 s.mem (cmdblk + pages)
  let nb := s.fmc.banks
  let fmc := { s.fmc with
    readingMultiplePages := true
    pagesToRead := fun k =>
      if k < numPages / nb * nb then page + UInt32.ofNat (k / nb) else s.fmc.pagesToRead k
    banksToRead := fun k => if k < numPages / nb * nb then k % nb else s.fmc.banksToRead k
    fmdnum := UInt32.ofNat (numPages * bytesPerPage)
    curBankReading := -1 }
  { s with fmc := fmc, mem := admReportSpares fmc s.adm numPages stack s.mem }

/-- One page: its spare goes straight into data3, and an erased one is reported as clean. -/
def admReadOne : System :=
  let bank := (s.mem (cmdblk + admCmdBanks)).toNat
  let page := be32 s.mem (cmdblk + pages)
  let fmc := { s.fmc with readingMultiplePages := false }.setBank bank
  let fmc := { fmc with
    fmdnum := UInt32.ofNat (bytesPerPage - 1)
    readingSpare := false
    fmaddr0 := page <<< 16
    fmaddr1 := page >>> 16 &&& 0xFF
    cmd := cmdRead }
  let fmc := fmc.bufferPage page
  let result :=
    if fmc.buffer.pageErased then Function.update s.adm.result 2 admStatusClean else s.adm.result
  { s with
    fmc := fmc
    adm := { s.adm with result := result }
    mem := s.mem.blit s.adm.data3SecAddr.toNat bytesPerSpare fmc.buffer.spare }

/-- A scattered list. -/
def admReadList : System :=
  let fmc := { s.fmc with
    readingMultiplePages := true
    pagesToRead := fun k =>
      if k < numPages then be32 s.mem (cmdblk + pages + 4 * k) else s.fmc.pagesToRead k
    banksToRead := fun k =>
      if k < numPages then (s.mem (cmdblk + admCmdBanks + k)).toNat else s.fmc.banksToRead k
    fmdnum := UInt32.ofNat (numPages * bytesPerPage)
    curBankReading := -1 }
  { s with fmc := fmc, mem := admReportSpares fmc s.adm numPages stack s.mem }

def admRead : System :=
  if numPages = 1 then s.admReadOne cmdblk pages
  else if numPages > 1 then s.admReadList cmdblk pages numPages stack
  else s

/-- `READ_SEQ`'s twin: the same page on every bank, each page's metadata in data3. -/
def admWriteSeq : System :=
  let page := be32 s.mem (cmdblk + pages)
  let nb := s.fmc.banks
  let n := numPages - numPages % nb
  let fmc := { s.fmc with
    pagesToRead := fun k => if k < n then page + UInt32.ofNat (k / nb) else s.fmc.pagesToRead k
    banksToRead := fun k => if k < n then k % nb else s.fmc.banksToRead k
    progSpares := fun k =>
      if k < n then s.mem.slice (s.adm.data3SecAddr.toNat + k * metaBytes) else s.fmc.progSpares k }
  { s with fmc := fmc.startProgram n }

def admWrite : System :=
  let fmc := { s.fmc with
    banksToRead := Function.update s.fmc.banksToRead 0 (s.mem (cmdblk + admCmdBanks)).toNat
    pagesToRead := Function.update s.fmc.pagesToRead 0 (be32 s.mem (cmdblk + pages))
    progSpares := Function.update s.fmc.progSpares 0 (s.mem.slice s.adm.data3SecAddr.toNat) }
  { s with fmc := fmc.startProgram 1 }

/-- One block a command. -/
def admErase : System :=
  let bank := (s.mem (cmdblk + admCmdCe)).toNat
  let page := (be32 s.mem (cmdblk + pages)).toNat
  if bank < numBanks then { s with fmc := s.fmc.eraseBlock bank (page / pagesPerBlock) host } else s

def admRunCommand : System :=
  let found := admFindTf s.adm s.mem
  let s := { s with adm := { found.1 with result := fun _ => 0 } }
  let cmdblk := (s.adm.data2SecAddr + found.2).toNat
  let pages := admPagesOff s.adm
  let numPages := min (be16 s.mem (cmdblk + admCmdNpages)) maxList
  match AdmCmd.ofWord (s.mem.word (cmdblk + admCmdOffset)) with
  | .readSeq => s.admReadSeq cmdblk pages numPages stack
  | .read => s.admRead cmdblk pages numPages stack
  | .writeSeq => s.admWriteSeq cmdblk pages numPages
  | .write => s.admWrite cmdblk pages
  | .erase => s.admErase cmdblk pages host
  | .unknown => s

/-- Start-up: the firmware reports itself in data2 and the bank ids in data3. -/
def admStart : System :=
  let ids : Mem := fun k =>
    if k / 4 < s.fmc.banks then UInt8.ofNat (chipId.toNat / 2 ^ (8 * (k % 4))) else 0
  { s with
    mem := (s.mem.setWord s.adm.data2SecAddr.toNat 0x50).blit s.adm.data3SecAddr.toNat 32 ids }

def admWriteReg (reg : AdmReg) (value : UInt32) : System :=
  match reg with
  | .ctrl => if value = 3 then s.admStart else s
  | .ctrl2 =>
    let s := if value = 2 then
      let s := s.admRunCommand host stack
      { s with adm := { s.adm with irq := true } } else s
    if value &&& 2 = 0 then { s with adm := { s.adm with irq := false } } else s
  | .codeSecAddr => { s with adm := { s.adm with codeSecAddr := value } }
  | .data1SecAddr => { s with adm := { s.adm with data1SecAddr := value } }
  | .data2SecAddr => { s with adm := { s.adm with data2SecAddr := value, tf := 0 } }
  | .data3SecAddr => { s with adm := { s.adm with data3SecAddr := value } }
  | .other => s

def admReset : System :=
  { s with adm := { s.adm with
      codeSecAddr := 0, data1SecAddr := 0, data2SecAddr := 0, data3SecAddr := 0, tf := 0
      irq := false } }

/-! ## What can happen -/

inductive Event
  /-- The guest reads a register of the FMC. -/
  | read (reg : Reg)
  | write (reg : Reg) (val : UInt32) (host : Host)
  /-- The guest writes a register of the ADM. -/
  | adm (reg : AdmReg) (value : UInt32) (host : Host) (stack : Record)
  /-- The guest, or another device, writes to memory. -/
  | memory (mem : Mem)
  | resetFmc
  | resetAdm

def step : Event → System
  | .read reg => { s with fmc := (s.fmc.read reg).1 }
  | .write reg val host => { s with fmc := s.fmc.write reg val host }
  | .adm reg value host stack => s.admWriteReg host stack reg value
  | .memory mem => { s with mem := mem }
  | .resetFmc => { s with fmc := s.fmc.reset }
  | .resetAdm => s.admReset

end System

end QemuIos.Fmc

import Mathlib.Data.Nat.Notation
import QemuIos.Lib.Ring

/-!
# The SPI controller

`hw/arm/ipod_touch_spi.c:13-298`: the guest's register accesses, the two FIFOs and the transfers
over the bus. The peripheral is a function of the bytes sent to it so far. `none` is a failed
assertion of a FIFO operation, which aborts the emulator.

`log` records what happens to each byte: taken into the TX FIFO, sent, discarded by a reset; and to
each answer: not asked for, taken into the RX FIFO, dropped because it was full, discarded by a
reset, read.
-/

namespace QemuIos.Spi

abbrev fifoRxDepth : Nat := 16

def rCtrl : Nat := 0x000
def rCfg : Nat := 0x004
def rStatus : Nat := 0x008
def rTxdata : Nat := 0x010
def rRxdata : Nat := 0x020
def rRxcnt : Nat := 0x034
def rTxcnt : Nat := 0x04c

def ctrlRun : UInt32 := 0x1
def ctrlTxReset : UInt32 := 0x4
def ctrlRxReset : UInt32 := 0x8
def cfgAgd : UInt32 := 0x1
def cfgIeRxready : UInt32 := 0x80
def cfgIeTxempty : UInt32 := 0x100
def cfgIeComplete : UInt32 := 0x200000
def statusRxready : UInt32 := 0x1
def statusTxempty : UInt32 := 0x2
def statusRxoverflow : UInt32 := 0x8
def statusComplete : UInt32 := 0x400000

/-- The bytes of a register in memory order. -/
def leBytes (v : UInt32) : List UInt8 :=
  (List.range 4).map fun i => UInt8.ofNat (v.toNat / 256 ^ i)

def leWord (bytes : List UInt8) : UInt32 :=
  UInt32.ofNat (bytes.foldr (fun b n => b.toNat + 256 * n) 0)

inductive Event where
  | accepted (bytes : List UInt8)
  | sent (b : UInt8)
  | txReset
  /-- A byte sent only to fetch one. -/
  | sentinel
  /-- An answer that is not kept, and `RXCNT`. -/
  | unasked (b : UInt8) (rxcnt : UInt32)
  | received (b : UInt8)
  /-- A byte dropped, and `STATUS` after it. -/
  | overflowed (b : UInt8) (status : UInt32)
  | rxReset
  /-- An `RXDATA` read that found bytes: the word size and the value returned. -/
  | read (word : Nat) (value : UInt32)
  deriving DecidableEq, Repr

/-- What comes back for the last of the bytes sent. -/
abbrev Peripheral := List UInt8 → UInt8

/-- `IPodTouchSPIState`; `bus` are the bytes sent to the peripheral. -/
structure Controller (depth : Nat) where
  s5l8900 : Bool
  regs : Nat → UInt32
  lastIrq : Bool
  tx : Ring UInt8 depth
  rx : Ring UInt8 fifoRxDepth
  bus : List UInt8 := []
  log : List Event := []

namespace Controller

variable {depth : Nat} (p : Peripheral) (s : Controller depth)

def reg (addr : Nat) : UInt32 := s.regs (addr / 4)

def setReg (addr : Nat) (v : UInt32) : Controller depth :=
  { s with regs := Function.update s.regs (addr / 4) v }

def note (e : Event) : Controller depth := { s with log := s.log ++ [e] }

/-- The reserved word size falls back to a byte. -/
def appleSpiWordSize : Nat :=
  let field := (s.reg rCfg >>> 15) &&& 3
  if field = 1 then 2 else if field = 2 then 4 else 1

def appleSpiUpdateXferTx : Controller depth :=
  if s.tx.num = 0 then s.setReg rStatus (s.reg rStatus ||| statusTxempty) else s

def appleSpiUpdateXferRx : Controller depth :=
  if s.rx.num ≠ 0 then s.setReg rStatus (s.reg rStatus ||| statusRxready) else s

def appleSpiUpdateIrq : Controller depth :=
  let on (ie status : UInt32) : UInt32 := if s.reg rCfg &&& ie ≠ 0 then status else 0
  let mask := on cfgIeRxready statusRxready ||| on cfgIeTxempty statusTxempty |||
    on cfgIeComplete statusComplete
  { s with lastIrq := s.reg rStatus &&& mask ≠ 0 }

/-- `ssi_transfer`. -/
def ssiTransfer (b : UInt8) : UInt8 × Controller depth :=
  (p (s.bus ++ [b]), { s with bus := s.bus ++ [b] })

/-- A byte for the RX FIFO: one less to receive. -/
def rxPush (b : UInt8) : Option (Controller depth) := do
  let rx ← s.rx.push b
  let s := { s with rx }.note (.received b)
  return (s.setReg rRxcnt (s.reg rRxcnt - 1)).appleSpiUpdateXferRx

/-- The answer to a byte from the TX FIFO; without room it is dropped and reported. -/
def receive (b : UInt8) : Option (Controller depth) :=
  if s.reg rRxcnt = 0 then some (s.note (.unasked b (s.reg rRxcnt)))
  else if s.rx.num = fifoRxDepth then
    let status := s.reg rStatus ||| statusRxoverflow
    some ((s.setReg rStatus status).note (.overflowed b status))
  else s.rxPush b

/-- One less to send, where a count was set. -/
def countSent : Controller depth :=
  if s.reg rTxcnt ≠ 0 then s.setReg rTxcnt (s.reg rTxcnt - 1) else s

/-- A byte of the TX FIFO over the bus. -/
def sendOne : Option (Controller depth) := do
  let (b, tx) ← s.tx.pop
  let (answer, s) := ssiTransfer p ({ s with tx }.note (.sent b)) b
  s.countSent.appleSpiUpdateXferTx.receive answer

/-- The first loop of `apple_spi_run`: the TX FIFO, as far as the count goes. -/
def sendLoop (p : Peripheral) (drainTx : Bool) : Nat → Controller depth →
    Option (Controller depth)
  | 0, s => some s
  | fuel + 1, s =>
    if (s.reg rTxcnt ≠ 0 ∨ drainTx) ∧ s.tx.num ≠ 0 then do
      let s ← s.sendOne p
      sendLoop p drainTx fuel s
    else some s

def fetchOne : Option (Controller depth) :=
  let (answer, s) := ssiTransfer p (s.note .sentinel) 0xff
  s.rxPush answer

/-- The second one: the rest is fetched by sending sentinel bytes. -/
def fetchLoop (p : Peripheral) : Nat → Controller depth → Option (Controller depth)
  | 0, s => some s
  | fuel + 1, s =>
    if s.rx.num ≠ fifoRxDepth ∧ s.reg rRxcnt ≠ 0 ∧ s.reg rCfg &&& cfgAgd ≠ 0 then do
      let s ← s.fetchOne p
      fetchLoop p fuel s
    else some s

def appleSpiRun : Option (Controller depth) :=
  let drainTx : Bool := s.s5l8900 && s.tx.num ≠ 0
  if s.reg rCtrl &&& ctrlRun = 0 then some s
  else if s.reg rRxcnt = 0 ∧ s.reg rTxcnt = 0 ∧ !drainTx then some s
  else do
    let s := s.appleSpiUpdateXferTx
    let s ← sendLoop p drainTx s.tx.num s
    let s ← fetchLoop p (fifoRxDepth - s.rx.num) s
    return if s.reg rRxcnt = 0 ∧ s.reg rTxcnt = 0 then
      s.setReg rStatus (s.reg rStatus ||| statusComplete) else s

def runIf (run : Bool) (s : Controller depth) : Option (Controller depth) :=
  if run then s.appleSpiRun p else some s

/-- `RXDATA`: a word, over what the register holds. An empty FIFO reads as 0. -/
def readRxdata : Option (UInt32 × Controller depth) :=
  if s.rx.num = 0 then do
    let s ← s.appleSpiRun p
    return (0, s)
  else do
    let (buf, rx) ← s.rx.popBufptr s.appleSpiWordSize
    let r := leWord (buf ++ (leBytes (s.reg rRxdata)).drop buf.length)
    let s := { s with rx }.note (.read s.appleSpiWordSize r)
    let s ← s.runIf p (s.rx.num = 0)
    return (r, s)

/-- The fill counts a `STATUS` read adds. -/
def fifoCounts : UInt32 :=
  if s.s5l8900 then UInt32.ofNat s.tx.num <<< 4 ||| UInt32.ofNat s.rx.num <<< 8
  else UInt32.ofNat s.tx.num <<< 6 ||| UInt32.ofNat s.rx.num <<< 11

def readReg (addr : Nat) : Option (UInt32 × Controller depth) :=
  if addr = rRxdata then s.readRxdata p
  else if addr = rStatus then some (s.reg rStatus ||| s.fifoCounts, s)
  else some (s.reg addr, s)

def ipodTouchSpiRead (addr : Nat) : Option (UInt32 × Controller depth) := do
  let (r, s) ← s.readReg p addr
  return (r, s.appleSpiUpdateIrq)

/-- The FIFO resets of a `CTRL` write. -/
def resetFifos (r : UInt32) : Controller depth :=
  let s := if r &&& ctrlTxReset ≠ 0 then { s with tx := s.tx.reset }.note .txReset else s
  if r &&& ctrlRxReset ≠ 0 then { s with rx := s.rx.reset }.note .rxReset else s

/-- A word for the TX FIFO; without room it is dropped. -/
def pushTxdata (r : UInt32) : Option (Controller depth) :=
  let word := s.appleSpiWordSize
  if s.tx.num = depth ∨ depth - s.tx.num < word then some s
  else do
    let bytes := (leBytes r).take word
    let tx ← s.tx.pushAll bytes
    return { s with tx }.note (.accepted bytes)

/-- What a write does before the register is set: the value it is set to, and whether the
controller runs then. -/
def prepare (addr : Nat) (r : UInt32) : Option (Controller depth × UInt32 × Bool) :=
  if addr = rCtrl then
    let s := s.resetFifos r
    some (s, r, r &&& ctrlRun ≠ 0 && (s.reg rCfg &&& cfgAgd ≠ 0 || s.tx.num ≠ 0))
  else if addr = rStatus then some (s, s.reg rStatus &&& ~~~r, true)
  else if rTxdata ≤ addr ∧ addr ≤ rTxdata + 3 then do
    let s ← s.pushTxdata r
    return (s, r, false)
  else if addr = rCfg then some (s, r, true)
  else some (s, r, false)

def ipodTouchSpiWrite (addr : Nat) (data : UInt32) : Option (Controller depth) := do
  let (s, r, run) ← s.prepare addr data
  let s := s.setReg addr r
  let s ← s.runIf p run
  let s := if addr = rStatus ∧ !s.s5l8900 then s.appleSpiUpdateXferTx.appleSpiUpdateXferRx else s
  return s.appleSpiUpdateIrq

/-- A controller as the machine makes it. -/
def create (s5l8900 : Bool) : Controller depth where
  s5l8900
  regs := fun _ => 0
  lastIrq := false
  tx := ⟨fun _ => 0, 0, 0, fun some => some, Nat.zero_le _⟩
  rx := ⟨fun _ => 0, 0, 0, fun some => some, Nat.zero_le _⟩

end Controller

/-- A guest access. -/
inductive Access where
  | read (addr : Nat)
  | write (addr : Nat) (data : UInt32)
  deriving DecidableEq, Repr

/-- One access; an aborted emulator takes no more of them. -/
def step {depth : Nat} (p : Peripheral) : Option (Controller depth) → Access →
    Option (Controller depth)
  | none, _ => none
  | some s, .read addr => (s.ipodTouchSpiRead p addr).map Prod.snd
  | some s, .write addr data => s.ipodTouchSpiWrite p addr data

end QemuIos.Spi

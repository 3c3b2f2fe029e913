import QemuIos.Cdma.Aes
import QemuIos.Lib.Handler
import QemuIos.Lib.Mem

/-!
# The CDMA's channels

A channel walks a chain of descriptors in memory and moves their segments between memory and a
device FIFO, a second buffer or the AES engine. A FIFO that is registered as a source paces its
channels: a segment the device has no data or no room for stalls, and the device kicks the engine
when it can go on. A device is reached through its registers, and its handlers may call back into
the engine while a channel is in the middle of its walk.
-/

namespace QemuIos.Cdma

def channels : Nat := 0x26

def aesContexts : Nat := 9

def dramBase : Nat := 0x40000000

def uartBase (n : Nat) : Nat := 0x82500000 + n * 0x100000

/-- A channel's control register: the bits the guest owns, and the state bits 16 to 21. -/
structure Ctrl where
  config : Nat
  running : Bool
  held : Bool
  error : Bool
  done : Bool
  flag : Bool
  aborted : Bool
  deriving DecidableEq, Repr

namespace Ctrl

def zero : Ctrl := ⟨0, false, false, false, false, false, false⟩

def irqEn (c : Ctrl) : Bool := c.config.testBit 3
def hold (c : Ctrl) : Bool := c.config.testBit 5
def aesCtx (c : Ctrl) : Nat := c.config / 2 ^ 8 % 2 ^ 8

end Ctrl

structure Channel where
  ctrl : Ctrl
  settings : Nat
  fifo : Nat
  remain : Nat
  addr : Nat
  desc : Nat
  error : Nat
  /-- Stalled inside the segment at `desc`. -/
  inSeg : Bool
  deriving DecidableEq, Repr

variable (c : Channel)

namespace Channel

def zero : Channel := ⟨.zero, 0, 0, 0, 0, 0, 0, false⟩

def toDevice : Bool := c.settings.testBit 1
def width : Nat := 2 ^ (c.settings / 4 % 4)

/-- A receive chain from a UART's data register. -/
def waitsForUart : Bool :=
  !c.toDevice && decide (uartBase 0 ≤ c.fifo ∧ c.fifo < uartBase 6) && c.fifo % 2 ^ 20 == 0x24

/-- Stalled, and resumed by a kick. -/
def stalled : Bool := c.ctrl.running && c.inSeg

end Channel

/-- The properties of the machine the engine is part of. -/
structure Board where
  dramSize : Nat
  /-- Version 1 has no channel-enable registers. -/
  version : Nat
  pacedBase : Nat
  pacedPorts : Nat
  /-- The device FIFOs that pace their channels: base and size of each window. -/
  sources : List (Nat × Nat)
  /-- Whether an address is memory a transfer can reach. -/
  mapped : Nat → Bool
  fuses : Fuses

/-- What a device asks of the engine. -/
inductive Call where
  | kick
  | sinkDone (base size : Nat)
  deriving DecidableEq, Repr

/-- The devices behind the FIFOs. `push` and `pop` are one access to a FIFO; the I2S ports do not
know the engine, so playing and capturing call nothing. -/
structure Device (ω : Type) where
  avail : ω → Nat → Bool → Nat
  push : ω → Nat → List UInt8 → ω × Handler Call ω
  pop : ω → Nat → Nat → (ω × (Nat → UInt8)) × Handler Call ω
  play : ω → Nat → List UInt8 → ω
  capture : ω → Nat → Nat → ω × (Nat → UInt8)
  rate : ω → Nat → Nat

/-- What the engine has done: taken up a segment or a piece of one, to be moved between memory and
the far end of its channel; stored to memory; reported a chain done. -/
inductive Entry where
  | segment (ch addr len : Nat)
  | store (addr len : Nat)
  | done (ch : Nat)
  deriving DecidableEq, Repr

structure State (ω : Type) where
  enabled : Nat → Bool
  ch : Nat → Channel
  aes : Nat → AesContext
  /-- The engine's output, filled by the feeding channel. -/
  fifo : List UInt8
  paced : Nat → Bool
  /-- A chain to a device is in its FIFO and done when that drains. -/
  sinkPending : Nat → Bool
  /-- The channel pushes to a device right now. -/
  inRun : Nat → Bool
  /-- The device has drained its FIFO behind the last push. -/
  sinkEarly : Nat → Bool
  pacedStart : Nat → Int
  pacedEnd : Nat → Int
  pacedDesc : Nat → Nat
  pacedSent : Nat → Nat
  pacedBps : Nat → Nat
  irq : Nat → Bool
  mem : Mem
  now : Int
  world : ω
  log : List Entry

/-- A descriptor as it lies in memory. -/
structure Desc where
  next : Nat
  flags : Nat
  addr : Nat
  len : Nat
  deriving DecidableEq, Repr

namespace Desc

def kind (d : Desc) : Nat := d.flags % 16
def last (d : Desc) : Bool := d.flags.testBit 8
def aes (d : Desc) : Bool := d.flags.testBit 16
def aesRestart (d : Desc) : Bool := d.flags.testBit 17

/-- A data segment the walker moves. -/
def isData (d : Desc) : Bool := d.kind == 3 && decide (d.len ≤ maxSegment)

end Desc

namespace Board

variable (b : Board)

def isMemory (addr : Nat) : Bool := decide (dramBase ≤ addr ∧ addr < dramBase + b.dramSize)

/-- Whether an address is in the window of a pacing source. -/
def isSource (addr : Nat) : Bool :=
  b.sources.any fun src => decide (src.1 ≤ addr ∧ addr - src.1 < src.2)

def fifoFed : Bool := !b.isMemory c.fifo && !c.toDevice && b.isSource c.fifo

/-- The descriptor at an address, if it can be read. -/
def readDesc (mem : Mem) (desc : Nat) : Option Desc :=
  if (List.range 16).all fun i => b.mapped (desc + i) then
    some ⟨mem.word desc, mem.word (desc + 4), mem.word (desc + 8), mem.word (desc + 12)⟩
  else none

/-- A transfer into memory; where there is none nothing is stored. -/
def store (mem : Mem) (addr : Nat) (buf : List UInt8) : Mem :=
  fun k => if b.mapped k then mem.blit addr buf.length (Mem.ofList buf) k else mem k

end Board

/-- A transfer out of memory. -/
def load (mem : Mem) (addr len : Nat) : List UInt8 := (List.range len).map fun i => mem (addr + i)

end QemuIos.Cdma

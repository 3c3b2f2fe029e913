import Mathlib.Data.List.FinRange
import Mathlib.Data.UInt
import QemuIos.Lib.Sizes

/-!
# The vectored interrupt controllers

The PL192 of `hw/intc/pl192.c` and the daisy chain the machines build of it: controller 0 drives the
CPU's IRQ and FIQ, and every other controller hands its request to the one before it
(`vic1->daisy = vic0`). A chain is a family of controllers by their place, so that a controller's
`daisy` is the place below its own.

What a controller may touch through a wrong index or a null pointer is a `Fault`: the program has no
behaviour past it.
-/

namespace QemuIos.Vic

/-- `PL192_DAISY_IRQ`: the number the daisy input has among the sources. -/
def daisyIrq : Nat := 32

/-- `PL192_NO_IRQ`. -/
def noIrq : Nat := 33

/-- A bit of a register. -/
def bit (x : UInt32) (i : Nat) : Bool := x.toBitVec.getLsbD i

/-- An entry of an array is replaced. -/
def setAt {α β : Type} [DecidableEq α] (f : α → β) (i : α) (x : β) : α → β :=
  fun j => if j = i then x else f j

/-- The registers of one controller (`PL192State`). The priorities are four bits wide: every write
masks them, and they index `prio_irq`. -/
structure Pl192 where
  irqStatus : UInt32
  fiqStatus : UInt32
  rawintr : UInt32
  intselect : UInt32
  intenable : UInt32
  softint : UInt32
  protection : UInt32
  swPriorityMask : UInt32
  vectAddr : Fin 32 → UInt32
  vectPriority : Fin 32 → Fin 16
  address : UInt32
  current : Nat
  currentHighest : Nat
  stackI : Int
  priorityStack : Fin 17 → Nat
  irqStack : Fin 17 → UInt8
  priority : Nat
  daisyVectaddr : UInt32
  daisyPriority : Fin 16
  /-- The controller `daisy_callback` points at. -/
  daisyCallback : Option Nat
  daisyInput : Bool

/-- What the code would do out of bounds. -/
inductive Fault where
  /-- `vect_priority` is indexed by a `current` that is no source. -/
  | vector (current : Nat)
  /-- `daisy_callback` is followed and is not set. -/
  | callback
  /-- The priority stack is read above its last entry. -/
  | depth
deriving Repr, DecidableEq

namespace Pl192

variable (s : Pl192)

/-- The slot of each priority level in `pl192_priority_sorter`: the lowest source of that priority,
else the daisy input, else `PL192_NO_IRQ`. -/
def prioIrq : Fin 16 → Nat :=
  let prioIrq : Fin 16 → Nat := fun _ => noIrq
  let prioIrq := if s.daisyInput then setAt prioIrq s.daisyPriority daisyIrq else prioIrq
  (List.finRange 32).reverse.foldl
    (fun prioIrq (i : Fin 32) =>
      if bit s.irqStatus i then setAt prioIrq (s.vectPriority i) i else prioIrq)
    prioIrq

/-- Finds the interrupt of the highest priority that the software mask lets through
(`pl192_priority_sorter`). -/
def prioritySorter : Nat :=
  let slot := (List.finRange 16).find? fun (i : Fin 16) =>
    bit s.swPriorityMask i && s.prioIrq i ≤ daisyIrq
  match slot with
  | some i => s.prioIrq i
  | none => noIrq

/-- The registers `pl192_update` computes: the statuses, the highest pending interrupt and its
vector. -/
def sense : Pl192 :=
  let s := { s with
    irqStatus := (s.rawintr ||| s.softint) &&& s.intenable &&& ~~~s.intselect
    fiqStatus := (s.rawintr ||| s.softint) &&& s.intenable &&& s.intselect }
  if s.irqStatus != 0 || s.daisyInput then
    let highest := s.prioritySorter
    { s with
      currentHighest := highest
      address := if h : highest < 32 then s.vectAddr ⟨highest, h⟩ else s.daisyVectaddr }
  else
    { s with currentHighest := noIrq }

/-- The highest pending interrupt is not above the priority being served. -/
def outranked : Bool :=
  if h : s.currentHighest < 32 then
    s.priority ≤ (s.vectPriority ⟨s.currentHighest, h⟩ : Nat)
  else
    s.currentHighest == daisyIrq && s.priority ≤ (s.daisyPriority : Nat)

/-- What `pl192_update` does about its IRQ output once the registers are computed: raise it, lower
it, or leave it as it is. -/
def output : Option Bool :=
  if s.irqStatus != 0 || s.daisyInput then
    if s.currentHighest = s.current || s.outranked then
      none
    else
      some (s.currentHighest ≤ daisyIrq)
  else
    some false

/-- `IT_IDX` for the two stacks: the index as an unsigned number, held below their length. -/
def stackIdx (i : Int) : Fin 17 :=
  if h : 0 ≤ i ∧ i < 17 then ⟨i.toNat, by omega⟩ else 16

/-- Sets the priority level when the CPU has acknowledged `current`, and saves both on the stack
(`pl192_mask_priority`). -/
def maskPriority : Except Fault Pl192 := do
  let top := stackIdx (s.stackI + 1)
  let priority : Nat ←
    if s.current = daisyIrq then
      pure s.daisyPriority
    else if h : s.current < 32 then
      pure (s.vectPriority ⟨s.current, h⟩ : Nat)
    else
      throw (.vector s.current)
  return { s with
    stackI := (top : Nat)
    priority := priority
    priorityStack := setAt s.priorityStack top priority
    irqStack := setAt s.irqStack top (UInt8.ofNat s.current) }

/-- Restores the interrupt and the priority served before (`pl192_unmask_priority`). -/
def unmaskPriority : Except Fault Pl192 :=
  if s.stackI < 1 then
    return s
  else if h : (s.stackI - 1).toNat < 17 then
    return { s with
      stackI := s.stackI - 1
      priority := s.priorityStack ⟨_, h⟩
      current := (s.irqStack ⟨_, h⟩).toNat }
  else
    throw .depth

/-- The registers `pl192_reset` sets. The raw levels mirror the device lines and stay, and the daisy
interface is the child's. -/
def resetRegs : Pl192 :=
  { s with
    vectPriority := fun _ => 15
    swPriorityMask := 0xffff
    daisyPriority := 15
    current := noIrq
    currentHighest := noIrq
    stackI := 0
    priorityStack := setAt s.priorityStack 0 16
    irqStack := setAt s.irqStack 0 (UInt8.ofNat noIrq)
    priority := 16
    intenable := 0
    intselect := 0
    softint := 0
    protection := 0
    address := 0
    vectAddr := fun _ => 0 }

/-- A controller as it is allocated. -/
def zero : Pl192 where
  irqStatus := 0
  fiqStatus := 0
  rawintr := 0
  intselect := 0
  intenable := 0
  softint := 0
  protection := 0
  swPriorityMask := 0
  vectAddr := fun _ => 0
  vectPriority := fun _ => 0
  address := 0
  current := 0
  currentHighest := 0
  stackI := 0
  priorityStack := fun _ => 0
  irqStack := fun _ => 0
  priority := 0
  daisyVectaddr := 0
  daisyPriority := 0
  daisyCallback := none
  daisyInput := false

end Pl192

/-- A daisy chain: its controllers by place, and the lines controller 0 drives. -/
structure Chain where
  ctl : Nat → Pl192
  irq : Bool
  fiq : Bool

namespace Chain

variable (c : Chain) (i : Nat)

/-- One controller's registers are replaced. -/
def put (s : Pl192) : Chain := { c with ctl := setAt c.ctl i s }

/-- What a controller's child raises or lowers at it: the daisy input, and with a request the
child's vector and the child itself. -/
def hand (level : Bool) : Chain :=
  c.put i (
    if level then
      { c.ctl i with
        daisyVectaddr := (c.ctl (i + 1)).address
        daisyCallback := some (i + 1)
        daisyInput := true }
    else
      { c.ctl i with daisyInput := false })

/-- A controller computes its registers, and its FIQ goes straight to the CPU's line: a child has no
lines of its own. -/
def sensed : Chain :=
  let s := (c.ctl i).sense
  { c.put i s with fiq := s.fiqStatus != 0 }

/-- Computes a controller's registers and drives its outputs (`pl192_update` with `pl192_raise` and
`pl192_lower`). A child's IRQ is the daisy input of the next controller, which is then updated in
turn. -/
def update : Nat → Chain → Chain
  | 0, c =>
    let c := c.sensed 0
    match (c.ctl 0).output with
    | none => c
    | some level => { c with irq := level }
  | i + 1, c =>
    let c := c.sensed (i + 1)
    match (c.ctl (i + 1)).output with
    | none => c
    | some level => update i (c.hand i level)

/-- The pending interrupt becomes the current one; with the daisy input the child's vector is
acknowledged too. -/
def acknowledge : Except Fault Chain := do
  let s := c.ctl i
  let c := c.put i (← { s with current := s.currentHighest }.maskPriority)
  if s.currentHighest = daisyIrq then
    match s.daisyCallback with
    | none => throw .callback
    | some j =>
      let child := c.ctl j
      return c.put j (← { child with current := child.currentHighest }.maskPriority)
  else
    return c

/-- The CPU acknowledges the pending interrupt (`pl192_irq_ack`). -/
def irqAck : Except Fault (UInt32 × Chain) := do
  let res := (c.ctl i).address
  if (c.ctl i).currentHighest = noIrq then
    return (res, c)
  else
    let c ← c.acknowledge i
    return (res, c.update i)

/-- The CPU has processed the interrupt (`pl192_irq_fin`). -/
def irqFin : Except Fault Chain := do
  let s := c.ctl i
  let c := c.put i (← s.unmaskPriority)
  if s.current = daisyIrq then
    match s.daisyCallback with
    | none => throw .callback
    | some j =>
      -- The child's vector is selected again before this controller uses it.
      let c := (c.put j (← (c.ctl j).unmaskPriority)).update j
      return c.update i
  else
    return c.update i

/-- The identification bytes at the end of the register space. -/
def pl192Id : List UInt32 := [0x92, 0x11, 0x04, 0x00, 0x0D, 0xF0, 0x05, 0xB1]

/-- The `switch` of `pl192_read`. Reading VECTADDR acknowledges; so does reading SOFTINTCLEAR, which
only complains and falls through. -/
def readControl : Nat → Except Fault (UInt32 × Chain)
  | 0x00 => return ((c.ctl i).irqStatus, c)
  | 0x04 => return ((c.ctl i).fiqStatus, c)
  | 0x08 => return ((c.ctl i).rawintr, c)
  | 0x0C => return ((c.ctl i).intselect, c)
  | 0x10 => return ((c.ctl i).intenable, c)
  | 0x18 => return ((c.ctl i).softint, c)
  | 0x20 => return ((c.ctl i).protection, c)
  | 0x24 => return ((c.ctl i).swPriorityMask, c)
  | 0x28 => return (UInt32.ofNat (c.ctl i).daisyPriority, c)
  | 0x1C => c.irqAck i
  | 0xF00 => c.irqAck i
  -- INTENCLEAR, the PL190's registers and every other offset read as zero.
  | _ => return (0, c)

/-- A guest read of a register (`pl192_read`). -/
def read (i offset : Nat) : Except Fault (UInt32 × Chain) :=
  if offset % 4 ≠ 0 then
    return (0, c)
  else if 0xfe0 ≤ offset ∧ offset < 0x1000 then
    return (pl192Id.getD ((offset - 0xfe0) / 4) 0, c)
  else if h : 0x100 ≤ offset ∧ offset < 0x180 then
    return ((c.ctl i).vectAddr ⟨(offset - 0x100) / 4, by omega⟩, c)
  else if h : 0x200 ≤ offset ∧ offset < 0x280 then
    return (UInt32.ofNat ((c.ctl i).vectPriority ⟨(offset - 0x200) / 4, by omega⟩), c)
  else
    c.readControl i offset

/-- The `switch` of `pl192_write` but for VECTADDR. -/
def writtenControl (s : Pl192) (word : UInt32) : Nat → Option Pl192
  -- The two read-only registers complain and still run the update.
  | 0x04 => some s
  | 0x08 => some s
  | 0x0C => some { s with intselect := word }
  | 0x10 => some { s with intenable := s.intenable ||| word }
  | 0x14 => some { s with intenable := s.intenable &&& ~~~word }
  | 0x18 => some { s with softint := s.softint ||| word }
  | 0x1C => some { s with softint := s.softint &&& ~~~word }
  | 0x20 => some { s with protection := word &&& 1 }
  | 0x24 => some { s with swPriorityMask := word &&& 0xffff }
  | 0x28 => some { s with daisyPriority := Fin.ofNat 16 word.toNat }
  -- IRQSTATUS, the PL190's registers and every other offset drop the write.
  | _ => none

/-- The registers as a guest write leaves them, with `pl192_update` still to run; `none` where the
write is dropped. -/
def written (s : Pl192) (offset : Nat) (value : UInt64) : Option Pl192 :=
  let word := value.toUInt32
  if offset % 4 ≠ 0 then
    none
  else if 0xfe0 ≤ offset ∧ offset < 0x1000 then
    none
  else if h : 0x100 ≤ offset ∧ offset < 0x180 then
    some { s with vectAddr := setAt s.vectAddr ⟨(offset - 0x100) / 4, by omega⟩ word }
  else if h : 0x200 ≤ offset ∧ offset < 0x280 then
    some { s with
      vectPriority := setAt s.vectPriority ⟨(offset - 0x200) / 4, by omega⟩
        (Fin.ofNat 16 word.toNat) }
  else
    writtenControl s word offset

/-- A guest write of a register (`pl192_write`). -/
def write (i offset : Nat) (value : UInt64) : Except Fault Chain :=
  if offset = 0xF00 then
    c.irqFin i
  else match written (c.ctl i) offset value with
  | none => return c
  | some s => return (c.put i s).update i

/-- The raw levels once a device has driven one of the sources. -/
def driven (s : Pl192) (irq : Fin 32) (level : Bool) : UInt32 :=
  if level then s.rawintr ||| 1 <<< UInt32.ofNat irq else s.rawintr &&& ~~~(1 <<< UInt32.ofNat irq)

/-- A device drives one of the sources (`pl192_irq_handler`); a level the line already has runs no
update. -/
def irqHandler (irq : Fin 32) (level : Bool) : Chain :=
  let s := c.ctl i
  if driven s irq level ≠ s.rawintr then
    (c.put i { s with rawintr := driven s irq level }).update i
  else
    c

/-- One controller is reset (`pl192_reset`). -/
def reset : Chain := (c.put i (c.ctl i).resetRegs).update i

/-- The machine resets its controllers in the order it made them. -/
def resetAll (n : Nat) (c : Chain) : Chain := (List.range n).foldl reset c

/-- A chain of controllers after the machine's first reset. -/
def boot (n : Nat) : Chain := resetAll n ⟨fun _ => .zero, false, false⟩

end Chain

/-- What can happen to a chain of `n` controllers. -/
inductive Event (n : Nat) where
  | read (i : Fin n) (offset : Nat)
  | write (i : Fin n) (offset : Nat) (value : UInt64)
  | line (i : Fin n) (irq : Fin 32) (level : Bool)
  | reset

variable {n : Nat}

/-- One event. -/
def Chain.step (c : Chain) : Event n → Except Fault Chain
  | .read i offset => (c.read i offset).map Prod.snd
  | .write i offset value => c.write i offset value
  | .line i irq level => return c.irqHandler i irq level
  | .reset => return c.resetAll n

/-- A run: a fault ends it. -/
def next (run : Except Fault Chain) (e : Event n) : Except Fault Chain := run.bind (·.step e)

end QemuIos.Vic

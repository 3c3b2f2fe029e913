import QemuIos.Cdma.Engine

/-!
# Walking a chain

`cdma_run` with its callees. The device calls back from inside a push or a pop, and a kick then runs
the other stalled channels; so a run is written over the meaning of a call, and `run` closes the
recursion. A channel in the middle of its walk is not marked running, so no channel is entered twice
and a depth of one run for each channel is enough.
-/

namespace QemuIos.Cdma

variable {ω : Type} (b : Board) (dev : Device ω)

namespace State

variable (s : State ω) (ch : Nat)

def setCh (c : Channel) : State ω := { s with ch := Function.update s.ch ch c }

def setSinkPending (v : Bool) : State ω :=
  { s with sinkPending := Function.update s.sinkPending ch v }

def setSinkEarly (v : Bool) : State ω := { s with sinkEarly := Function.update s.sinkEarly ch v }

def setInRun (v : Bool) : State ω := { s with inRun := Function.update s.inRun ch v }

def setAes (ctx : Nat) (c : AesContext) : State ω := { s with aes := Function.update s.aes ctx c }

def setFifo (fifo : List UInt8) : State ω := { s with fifo }

def putWorld (w : ω) : State ω := { s with world := w }

def note (e : Entry) : State ω := { s with log := s.log ++ [e] }

/-- A transfer into memory. -/
def storeAt (addr : Nat) (buf : List UInt8) : State ω :=
  { s with mem := b.store s.mem addr buf }.note (.store addr buf.length)

/-- `cdma_update_irq`: the line of a memory-to-memory channel is gated by control bit 3 as well. -/
def updateIrq : State ω :=
  let c := s.ch ch
  let gated := !c.ctrl.irqEn && (c.fifo == 0 || b.isMemory c.fifo)
  let level := s.enabled ch && !gated && (c.ctrl.done || c.ctrl.error)
  { s with irq := Function.update s.irq ch level }

/-- A chain is reported done. -/
def reportDone : State ω :=
  let c := s.ch ch
  ((s.setCh ch { c with ctrl := { c.ctrl with done := true } }).note (.done ch)).updateIrq b ch

end State

/-- What `cdma_run` takes from the channel's registers once, at its start. -/
structure Setup where
  devMem : Bool
  fed : Bool
  devFifo : Bool
  /-- The AES context of a channel that feeds the engine. -/
  feeds : Option Nat
  drains : Bool
  toDevice : Bool
  width : Nat
  /-- The far end paces the channel. -/
  paced : Bool
  deriving DecidableEq

def setup (c : Channel) : Setup :=
  let devMem := b.isMemory c.fifo
  let fed := b.fifoFed c
  let devFifo := c.fifo != 0 && !devMem
  let ctx := c.ctrl.aesCtx
  let feeds := if 0 < ctx ∧ ctx < aesContexts ∧ ¬ fed ∧ ¬ devFifo then some ctx else none
  let toDevice := feeds.isSome || c.toDevice
  { devMem, fed, devFifo, feeds
    drains := feeds.isNone && c.fifo == 0 && c.settings == 0
    toDevice
    width := c.width
    paced := fed || (toDevice && devFifo && b.isSource c.fifo) }

/-- `aes_for_channel`: the first enabled context bound to a channel. -/
def aesForChannel (aes : Nat → AesContext) (ch : Nat) : Option Nat :=
  (List.range' 1 (aesContexts - 1)).find? fun i => (aes i).enabled && (aes i).channel == ch

/-- The pieces a FIFO is accessed in. -/
def units (width len : Nat) : List (Nat × Nat) :=
  (List.range ((len + width - 1) / width)).map fun i => (i * width, min width (len - i * width))

section Open

variable (call : Call → State ω → State ω)

/-- A device's handler runs, and calls the engine. -/
def State.handle (s : State ω) (h : Handler Call ω) : State ω :=
  h.exec call State.world State.putWorld s

/-- `cdma_fifo_xfer` to the device. -/
def State.pushAll (s : State ω) (fifo width : Nat) (buf : List UInt8) : State ω :=
  (units width buf.length).foldl (fun s unit =>
    let pushed := dev.push s.world fifo ((buf.drop unit.1).take unit.2)
    (s.putWorld pushed.1).handle call pushed.2) s

/-- `cdma_fifo_xfer` from the device. -/
def State.popAll (s : State ω) (fifo width len : Nat) : State ω × List UInt8 :=
  (units width len).foldl (fun (s, buf) unit =>
    let popped := dev.pop s.world fifo unit.2
    ((s.putWorld popped.1.1).handle call popped.2, buf ++ (List.range unit.2).map popped.1.2))
      (s, [])

/-- A segment's bytes through a channel's AES context. -/
def State.filter (s : State ω) (aes : Option Nat) (buf : List UInt8) (restart : Bool) :
    State ω × List UInt8 × Bool :=
  match aes with
  | none => (s, buf, true)
  | some ctx =>
    match aesApply b.fuses (s.aes ctx) buf restart with
    | some (c, out) => (s.setAes ctx c, out, true)
    | none => (s, buf, false)

/-- What a feeding channel does with a segment. -/
def State.feed (s : State ω) (ctx : Nat) (d : Desc) (buf : List UInt8) : State ω × Bool :=
  if d.aes then
    let fed := aesFeed b.fuses (s.aes ctx) s.fifo buf d.aesRestart
    ((s.setAes ctx fed.1).setFifo fed.2.1, fed.2.2)
  else
    match fifoPush s.fifo buf with
    | some fifo => (s.setFifo fifo, true)
    | none => (s, false)

/-- Memory to the far end. `far` is where the far end is now; an error stops the chain. -/
def State.moveOut (s : State ω) (u : Setup) (ch far len : Nat) (d : Desc) (aes : Option Nat) :
    State ω × Nat × Nat :=
  let addr := (s.ch ch).addr
  let buf := load s.mem addr len
  match u.feeds with
  | some ctx =>
    let fed := s.feed b ctx d buf
    (fed.1, far, if fed.2 then 0 else 4)
  | none =>
    let filtered := s.filter b aes buf d.aesRestart
    let s := filtered.1
    let err := if filtered.2.2 then 0 else 4
    if u.devMem then
      (s.storeAt b far filtered.2.1, (far + len) % 2 ^ 32, err)
    else
      let s := (s.setSinkEarly ch false).setInRun ch true
      let s := s.pushAll dev call far u.width filtered.2.1
      (s.setInRun ch false, far, err)

/-- The far end to memory. -/
def State.moveIn (s : State ω) (u : Setup) (ch far len : Nat) (d : Desc) (aes : Option Nat)
    (resume : Bool) : State ω × Nat × Nat :=
  let addr := (s.ch ch).addr
  if u.drains ∧ s.fifo.length < len then
    (s.setFifo [], far, 5)
  else
    let taken : State ω × List UInt8 :=
      if u.drains then (s.setFifo (s.fifo.drop len), s.fifo.take len)
      else if u.devMem then (s, load s.mem far len)
      else s.popAll dev call far u.width len
    let filtered := taken.1.filter b aes taken.2 (!resume && d.aesRestart)
    (filtered.1.storeAt b addr filtered.2.1,
      if u.devMem && !u.drains then (far + len) % 2 ^ 32 else far,
      if filtered.2.2 then 0 else 4)

/-- How a turn of the walk's loop ends. -/
inductive Turn where
  /-- The walk goes on; the far end is at this address now. -/
  | more (far : Nat)
  | stall
  | stop (error : Nat)
  deriving DecidableEq, Repr

/-- Move a piece of the segment at the channel's address. -/
def State.move (s : State ω) (u : Setup) (ch far len : Nat) (d : Desc) (resume : Bool) :
    State ω × Nat × Nat :=
  let crypt := d.aes && !u.devFifo
  let aes := if crypt then u.feeds.or (aesForChannel s.aes ch) else none
  if crypt ∧ aes = none then (s, far, 3)
  else if u.toDevice then s.moveOut b dev call u ch far len d aes
  else s.moveIn b dev call u ch far len d aes resume

/-- The segment at the descriptor `d`: as much as the far end has or has room for. -/
def State.segment (s : State ω) (u : Setup) (ch far : Nat) (d : Desc) : State ω × Turn :=
  let c := s.ch ch
  let resume := c.inSeg
  let c := if resume then c else { c with addr := d.addr, remain := d.len }
  let avail := if u.paced then dev.avail s.world far u.toDevice / u.width * u.width else c.remain
  let len := min avail c.remain
  let s := s.setCh ch { c with inSeg := decide (avail < c.remain) }
  let moved :=
    if len = 0 then (s, far, 0)
    else (s.note (.segment ch c.addr len)).move b dev call u ch far len d resume
  let s := moved.1
  if moved.2.2 ≠ 0 then (s, .stop moved.2.2)
  else
    let c := s.ch ch
    let c := { c with addr := (c.addr + len) % 2 ^ 32, remain := c.remain - len }
    if c.inSeg then (s.setCh ch { c with ctrl := { c.ctrl with running := true } }, .stall)
    else (s.setCh ch { c with desc := d.next }, if d.last then .stop 0 else .more moved.2.1)

/-- One turn of the loop. -/
def State.turn (s : State ω) (u : Setup) (ch far : Nat) : State ω × Turn :=
  let c := s.ch ch
  match b.readDesc s.mem c.desc with
  | none => (s, .stop 1)
  | some d =>
    if d.kind = 0 then (s, .stop 0)
    else if d.kind = 2 then (s.setCh ch { c with desc := d.next }, .more far)
    else if ¬ d.isData then (s, .stop 2)
    else s.segment b dev call u ch far d

/-- The loop, for so many turns. -/
def State.walk (u : Setup) (ch : Nat) : Nat → Nat → State ω → State ω × Turn
  | 0, far, s => (s, .more far)
  | n + 1, far, s =>
    let taken := s.turn b dev call u ch far
    match taken.2 with
    | .more far => walk u ch n far taken.1
    | .stall => (taken.1, .stall)
    | .stop error => (taken.1, .stop error)

/-- Behind the loop. A chain to a device FIFO that paces it is done when the device has drained
it. -/
def State.finish (s : State ω) (u : Setup) (ch error : Nat) : State ω :=
  let c := s.ch ch
  if error ≠ 0 then
    (s.setCh ch { c with error, ctrl := { c.ctrl with error := true } }).reportDone b ch
  else if u.toDevice && u.paced then
    if s.sinkEarly ch then (s.setSinkEarly ch false).reportDone b ch
    else (s.setSinkPending ch true).setCh ch { c with ctrl := { c.ctrl with running := true } }
  else s.reportDone b ch

/-- How a run ends: a stalled chain is left as it is, one with too many descriptors ends early. -/
def State.conclude (s : State ω) (u : Setup) (ch : Nat) : Turn → State ω
  | .stall => s
  | .stop error => s.finish b u ch error
  | .more _ => s.finish b u ch 0

def maxTurns : Nat := 4096

/-- `cdma_run`, with the meaning of a device's calls left open. -/
def State.runWith (s : State ω) (ch : Nat) : State ω :=
  let c := s.ch ch
  let u := setup b c
  let s := s.setCh ch { c with ctrl := { c.ctrl with running := false, error := false } }
  let walked := s.walk b dev call u ch maxTurns c.fifo
  walked.1.conclude b u ch walked.2

end Open

/-- `s5l8930_cdma_sink_done`, for one channel. -/
def State.sinkOne (s : State ω) (base size ch : Nat) : State ω :=
  let c := s.ch ch
  let here := decide (base ≤ c.fifo ∧ c.fifo < base + size)
  let s := if s.inRun ch && here then s.setSinkEarly ch true else s
  if s.sinkPending ch && !c.inSeg && here then
    ((s.setSinkPending ch false).setCh ch
      { c with ctrl := { c.ctrl with running := false } }).reportDone b ch
  else s

def State.sinkDone (s : State ω) (base size : Nat) : State ω :=
  (List.range' 1 (channels - 1)).foldl (fun s ch => s.sinkOne b base size ch) s

/-- `s5l8930_cdma_kick`: resume every stalled channel. -/
def State.kickWith (run : Nat → State ω → State ω) (s : State ω) : State ω :=
  (List.range' 1 (channels - 1)).foldl (fun s ch => if (s.ch ch).stalled then run ch s else s) s

/-- What a call of a device does, given what running a channel does. -/
def Call.exec (run : Nat → State ω → State ω) : Call → State ω → State ω
  | kick, s => s.kickWith run
  | sinkDone base size, s => s.sinkDone b base size

/-- `cdma_run`, for a depth of nested runs. -/
def runAt : Nat → Nat → State ω → State ω
  | 0, _, s => s
  | depth + 1, ch, s => s.runWith b dev (Call.exec b (runAt depth)) ch

def run : Nat → State ω → State ω := runAt b dev channels

end QemuIos.Cdma

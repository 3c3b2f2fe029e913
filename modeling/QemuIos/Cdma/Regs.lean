import QemuIos.Cdma.Run

/-!
# The CDMA's registers

The guest's accesses, the audio channels that play out in time, and the device's reset. `step` is
one thing that happens to the engine: an access by the guest, a device that calls, time that passes.
-/

namespace QemuIos.Cdma

variable {ω : Type} (b : Board) (dev : Device ω)

def nanosecondsPerSecond : Nat := 1000000000

def pacedContinueNs : Int := 50 * 1000000

namespace State

variable (s : State ω) (ch : Nat)

/-- The bytes a segment of a paced chain takes or gives for its part of the playing time. -/
def pacedXfer (addr first upTo : Nat) : State ω :=
  let c := s.ch ch
  let len := upTo - first
  if c.toDevice then s.putWorld (dev.play s.world c.fifo (load s.mem (addr + first) len))
  else
    let taken := dev.capture s.world c.fifo len
    (s.putWorld taken.1).storeAt b (addr + first) ((List.range len).map taken.2)

/-- `cdma_paced_advance`: move what has played, from the head of the chain; whether it has all. -/
def pacedWalk (upto : Nat) : Nat → Nat → Nat → State ω → State ω × Bool
  | 0, _, _, s => (s, true)
  | n + 1, desc, base, s =>
    match b.readDesc s.mem desc with
    | none => (s, true)
    | some d =>
      if d.kind ≠ 3 then (s, true)
      else
        let sent := s.pacedSent ch
        let s := if sent < base + d.len ∧ base < upto
          then s.pacedXfer b dev ch d.addr (max sent base - base) (min upto (base + d.len) - base)
          else s
        let c := s.ch ch
        if upto < base + d.len then
          ({ s with pacedSent := Function.update s.pacedSent ch upto }.setCh ch
            { c with
              desc, addr := (d.addr + (upto - base)) % 2 ^ 32, remain := base + d.len - upto },
            false)
        else if d.last then
          let c := match b.readDesc s.mem d.next with
            | some next => { c with desc := d.next, addr := next.addr, remain := next.len }
            | none => { c with desc := d.next, addr := (d.addr + d.len) % 2 ^ 32, remain := 0 }
          ({ s with pacedSent := Function.update s.pacedSent ch (base + d.len) }.setCh ch c, true)
        else pacedWalk upto n d.next (base + d.len) s

def pacedAdvance (upto : Nat) : State ω × Bool :=
  pacedWalk b dev ch upto maxTurns (s.pacedDesc ch) 0 s

/-- Whole stereo frames only. -/
def pacedPos : Nat :=
  let elapsed := (s.now - s.pacedStart ch).toNat
  elapsed * s.pacedBps ch % 2 ^ 64 / nanosecondsPerSecond / 4 * 4

/-- `cdma_pace_tick`, for one channel. -/
def paceOne : State ω :=
  if s.paced ch then
    match s.pacedAdvance b dev ch (s.pacedPos ch) with
    | (s, false) => s
    | (s, true) =>
      let played : Nat := s.pacedSent ch * nanosecondsPerSecond % 2 ^ 64 / s.pacedBps ch
      let c := s.ch ch
      ({ s with paced := Function.update s.paced ch false
                pacedEnd := Function.update s.pacedEnd ch (s.pacedStart ch + played) }.setCh ch
        { c with ctrl := { c.ctrl with running := false } }).reportDone b ch
  else s

def paceTick : State ω := (List.range channels).foldl (fun s ch => s.paceOne b dev ch) s

/-- `cdma_paced_stop`: stop a paced chain where playback is. -/
def pacedStop : State ω :=
  if s.paced ch then
    let s := (s.pacedAdvance b dev ch (s.pacedPos ch)).1
    { s with
      paced := Function.update s.paced ch false, pacedEnd := Function.update s.pacedEnd ch 0 }
  else s

/-- A device address in an I2S block. -/
def isPacedPort (fifo : Nat) : Bool :=
  decide (b.pacedBase ≤ fifo ∧ fifo < (b.pacedBase + b.pacedPorts * 0x1000) % 2 ^ 32)

/-- `cdma_start_paced`. -/
def startPaced : State ω :=
  let c := s.ch ch
  let start := if s.now - s.pacedEnd ch < pacedContinueNs then s.pacedEnd ch else s.now
  { s with
    pacedDesc := Function.update s.pacedDesc ch c.desc
    pacedSent := Function.update s.pacedSent ch 0
    pacedBps := Function.update s.pacedBps ch
      (4 * dev.rate s.world ((c.fifo - b.pacedBase) / 2 ^ 12))
    pacedStart := Function.update s.pacedStart ch start
    paced := Function.update s.paced ch true }.setCh ch
      { c with ctrl := { c.ctrl with error := false, running := true } }

/-- The go bit: park on a UART nobody feeds, play out on an I2S port, run anywhere else. -/
def go : State ω :=
  let c := s.ch ch
  if c.waitsForUart ∧ ¬ b.isSource c.fifo then
    s.setCh ch { c with addr := s.mem.word (c.desc + 8), remain := s.mem.word (c.desc + 12)
                        ctrl := { c.ctrl with running := true } }
  else if isPacedPort b c.fifo then s.startPaced b dev ch
  else run b dev ch s

end State

/-- A value written to a control register. -/
structure CtrlWord where
  go : Bool
  reset : Bool
  abort : Bool
  config : Nat
  error : Bool
  done : Bool
  flag : Bool
  aborted : Bool
  deriving DecidableEq, Repr

/-- The bits of a written word. -/
def CtrlWord.of (v : Nat) : CtrlWord :=
  { go := v.testBit 0, reset := v.testBit 1, abort := v.testBit 2, config := v &&& 0xfff8
    error := v.testBit 18, done := v.testBit 19, flag := v.testBit 20, aborted := v.testBit 21 }

/-- Whether a written word starts the channel: a reset comes first, and a hold keeps it. -/
def CtrlWord.starts (v : CtrlWord) : Bool := v.go && !v.config.testBit 5 && !v.reset

/-- The guest's bits, and the status bits that are written to be cleared; a hold parks a running
channel. -/
def Ctrl.write (c : Ctrl) (v : CtrlWord) : Ctrl :=
  let c := { c with config := v.config, error := c.error && !v.error, done := c.done && !v.done
                    flag := c.flag && !v.flag, aborted := c.aborted && !v.aborted }
  { c with held := c.hold && c.running }

namespace State

variable (s : State ω) (ch : Nat)

/-- A write to `CH_CTRL`. -/
def writeCtrl (v : CtrlWord) : State ω :=
  if v.reset then
    let s := s.pacedStop b dev ch
    let c := s.ch ch
    s.setCh ch { c with
      ctrl := .zero, settings := 0, fifo := 0, remain := 0, error := 0, inSeg := false }
  else
    let c := s.ch ch
    let s := s.setCh ch { c with ctrl := c.ctrl.write v }
    let s :=
      if v.abort then
        let c := s.ch ch
        (s.setCh ch { c with ctrl := { c.ctrl with running := false, aborted := true }
                             inSeg := false }).pacedStop b dev ch
      else s
    if v.go && !v.config.testBit 5 then s.go b dev ch else s

end State

/-- The registers of a channel. -/
inductive Reg where
  | ctrl | settings | fifo | remain | addr | desc | error
  deriving DecidableEq, Repr

variable (s : State ω)

/-- `cdma_write`, to a channel. -/
def State.writeReg (ch : Nat) (reg : Reg) (v : Nat) : State ω :=
  let c := s.ch ch
  let v := v % 2 ^ 32
  let s := match reg with
    | .ctrl => s.writeCtrl b dev ch (.of v)
    | .settings => s.setCh ch { c with settings := v }
    | .fifo => s.setCh ch { c with fifo := v }
    | .remain => s.setCh ch { c with remain := v }
    | .addr => s.setCh ch { c with addr := v }
    | .desc => s.setCh ch { c with desc := v }
    | .error => s.setCh ch { c with error := 0 }
  s.updateIrq b ch

/-- Set or clear the bits of a channel-enable word. -/
def State.setEnabled (word v : Nat) (value : Bool) : State ω :=
  { s with enabled := fun i => if i / 32 = word ∧ v.testBit (i % 32) then value else s.enabled i }

/-- `cdma_write`, to the channel-enable words. -/
def State.writeEnable (word v : Nat) (value : Bool) : State ω :=
  (List.range' 1 (channels - 1)).foldl (fun s ch => s.updateIrq b ch) (s.setEnabled word v value)

/-- The registers of an AES context. -/
inductive AesReg where
  | setup
  | iv (i : Fin 4)
  | key (i : Fin 8)
  deriving DecidableEq, Repr

/-- `aes_write`. The bits of context 0 are sticky. -/
def State.writeAes (ctx : Nat) (reg : AesReg) (v : Nat) : State ω :=
  let c := s.aes ctx
  let c := match reg with
    | .setup => { c with setup := if ctx = 0 then c.setup ||| v else v }
    | .iv i => { c with iv := Function.update c.iv i v }
    | .key i => { c with key := Function.update c.key i v }
  { s with aes := Function.update s.aes ctx c }

/-- `cdma_read` of a channel brings a paced one up to date. -/
def State.readReg (ch : Nat) : State ω :=
  if s.paced ch then (s.pacedAdvance b dev ch (s.pacedPos ch)).1 else s

def AesContext.zero : AesContext :=
  ⟨0, fun _ => 0, fun _ => 0, List.replicate 16 0, []⟩

/-- `s5l8930_cdma_reset`. -/
def State.reset : State ω :=
  { s with
    enabled := fun _ => b.version == 1
    ch := fun _ => .zero
    aes := fun _ => .zero
    fifo := []
    paced := fun _ => false
    pacedEnd := fun _ => 0
    irq := fun _ => false }

/-- What happens to the engine. -/
inductive Event (ω : Type) where
  | write (ch : Nat) (reg : Reg) (v : Nat)
  | enable (word v : Nat) (value : Bool)
  | aes (ctx : Nat) (reg : AesReg) (v : Nat)
  | read (ch : Nat)
  /-- The guest's own stores. -/
  | store (addr : Nat) (buf : List UInt8)
  /-- A device does something by itself and calls the engine. -/
  | device (change : ω → ω) (handler : ω → Handler Call ω)
  /-- Time passes and the timer of the paced channels fires. -/
  | tick (ns : Nat)
  | reset

def State.step : Event ω → State ω
  | .write ch reg v => if 0 < ch ∧ ch < channels then s.writeReg b dev ch reg v else s
  | .enable word v value => if word < 2 then s.writeEnable b word v value else s
  | .aes ctx reg v => if ctx < aesContexts then s.writeAes ctx reg v else s
  | .read ch => if 0 < ch ∧ ch < channels then s.readReg b dev ch else s
  | .store addr buf => { s with mem := b.store s.mem addr buf }
  | .device change handler =>
    let w := change s.world
    (s.putWorld w).handle (Call.exec b (run b dev)) (handler w)
  | .tick ns => { s with now := s.now + ns }.paceTick b dev
  | .reset => s.reset b

/-- The engine as it is built. -/
def State.init (world : ω) (mem : Mem) : State ω :=
  { enabled := fun _ => b.version == 1
    ch := fun _ => .zero
    aes := fun _ => .zero
    fifo := []
    paced := fun _ => false
    sinkPending := fun _ => false
    inRun := fun _ => false
    sinkEarly := fun _ => false
    pacedStart := fun _ => 0
    pacedEnd := fun _ => 0
    pacedDesc := fun _ => 0
    pacedSent := fun _ => 0
    pacedBps := fun _ => 0
    irq := fun _ => false
    mem
    now := 0
    world
    log := [] }

/-- The board of the first iPad: the flash interfaces and the AMC's output port pace their
channels. -/
def ipad1 (fuses : Fuses) : Board :=
  { dramSize := 0x10000000
    version := 2
    pacedBase := 0x84500400
    pacedPorts := 3
    sources := [(0x81200000, 0x200000), (0x84800000, 0x1000)]
    mapped := fun addr => decide (dramBase ≤ addr ∧ addr < dramBase + 0x10000000)
    fuses }

/-- A descriptor's bytes. -/
def Desc.bytes (d : Desc) : List UInt8 :=
  AesContext.wordBytes (fun i => [d.next, d.flags, d.addr, d.len].getD i 0) 4

end QemuIos.Cdma

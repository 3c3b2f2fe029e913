import QemuIos.Lib.Buffer

/-!
# The 27.010 multiplexer's frames

`hw/misc/ios_baseband_core.c:341-458` and `593-680`: frames of the basic mode between flags,
and the receiver that takes them apart byte by byte.
-/

namespace QemuIos.Baseband
open CText

def mxFlag : UInt8 := 0xf9
def mxEa : UInt8 := 0x01
def mxPf : UInt8 := 0x10
def mxUih : UInt8 := 0xef
def mxUi : UInt8 := 0x03
def mxSabm : UInt8 := 0x2f
def mxUa : UInt8 := 0x63
def mxDm : UInt8 := 0x0f
def mxDisc : UInt8 := 0x43
def mxInitFcs : UInt8 := 0xff
def mxGoodFcs : UInt8 := 0xcf
abbrev mxBufSize : Nat := 1600

/-- An entry of the frame check table: `x^8 + x^2 + x + 1`, reflected. -/
def mxFcsTable (i : UInt8) : UInt8 :=
  (List.range 8).foldl (fun c _ => if c &&& 1 ≠ 0 then (c >>> 1) ^^^ 0xe0 else c >>> 1) i

def mxFcs (fcs : UInt8) (p : Bytes) : UInt8 := p.foldl (fun fcs b => mxFcsTable (fcs ^^^ b)) fcs

/-- The control byte without its poll/final bit. -/
def ctrlKind (ctrl : UInt8) : UInt8 := ctrl &&& ~~~mxPf

def mxAddr (dlci : Nat) (cr : Bool) : UInt8 :=
  (UInt8.ofNat dlci <<< 2) ||| (UInt8.ofNat cr.toNat <<< 1) ||| mxEa

/-- The length field: one byte below 128, two from there on. -/
def mxLength (len : Nat) : Bytes :=
  if len < 128 then [UInt8.ofNat (len * 2) ||| mxEa]
  else [UInt8.ofNat (len % 128 * 2), UInt8.ofNat (len / 128)]

/-- The check octet: over the header, and over the information field unless the frame is UIH. -/
def mxCheck (header : Bytes) (ctrl : UInt8) (data : Bytes) : UInt8 :=
  let fcs := mxFcs mxInitFcs header
  0xff - if ctrlKind ctrl ≠ mxUih then mxFcs fcs data else fcs

/-- A frame as `mx_send` builds it from its address byte, without the flags. -/
def mxFrame (addr ctrl : UInt8) (data : Bytes) : Bytes :=
  let header := addr :: ctrl :: mxLength data.length
  header ++ data ++ [mxCheck header ctrl data]

/-- `mx_emit`: a frame between its flags. -/
def mxEncode (frame : Bytes) : Bytes := mxFlag :: frame ++ [mxFlag]

/-! ## The receiver -/

inductive MxState where
  | search
  | addr
  | ctrl
  | len0
  | len1
  | data
  | fcs
  deriving DecidableEq, Repr

/-- `IosBbMuxRx`; the count of `buf` is `cnt`. -/
structure MuxRx where
  state : MxState := .search
  flagsRun : Nat := 0
  addr : UInt8 := 0
  ctrl : UInt8 := 0
  len : Nat := 0
  buf : Buf mxBufSize := .zero
  fcs : UInt8 := 0

/-- What a byte makes the multiplexer do. -/
inductive MuxEvent where
  | wake
  | frame (addr ctrl : UInt8) (data : Bytes)
  deriving DecidableEq, Repr

namespace MuxRx

/-- The state `ADDR`, also fallen into from `SEARCH`. -/
def addrByte (m : MuxRx) (c : UInt8) : MuxRx :=
  if c = mxFlag then { m with state := .search, flagsRun := 1 }
  else
    { m with
      fcs := mxFcsTable (mxInitFcs ^^^ c)
      addr := c
      state := if c &&& mxEa ≠ 0 then .ctrl else .addr }

/-- Once the length is known. -/
def lengthKnown (m : MuxRx) (len : Nat) : MuxRx :=
  { m with len, buf := m.buf.clear, state := if len ≠ 0 then .data else .fcs }

/-- The state `DATA`. -/
def dataByte (m : MuxRx) (c : UInt8) : MuxRx :=
  let m := { m with buf := m.buf.push c }
  if m.len ≤ m.buf.len then
    { m with
      fcs := if ctrlKind m.ctrl ≠ mxUih then mxFcs m.fcs m.buf.contents else m.fcs
      state := .fcs }
  else m

/-- One byte, and what it makes the multiplexer do. -/
def step (m : MuxRx) (c : UInt8) : MuxRx × Option MuxEvent :=
  match m.state with
  | .search =>
    if c = mxFlag then
      ({ m with flagsRun := (m.flagsRun + 1) % 2 ^ 32 },
        if 1 ≤ m.flagsRun ∧ m.flagsRun % 2 = 0 then some .wake else none)
    else ({ m with flagsRun := 0 }.addrByte c, none)
  | .addr => (m.addrByte c, none)
  | .ctrl => ({ m with fcs := mxFcsTable (m.fcs ^^^ c), ctrl := c, state := .len0 }, none)
  | .len0 =>
    let m := { m with fcs := mxFcsTable (m.fcs ^^^ c) }
    if c &&& mxEa ≠ 0 then (m.lengthKnown (c.toNat / 2), none)
    else ({ m with len := c.toNat / 2, state := .len1 }, none)
  | .len1 =>
    let m := { m with fcs := mxFcsTable (m.fcs ^^^ c) }
    (m.lengthKnown (m.len ||| c.toNat * 128), none)
  | .data => (m.dataByte c, none)
  | .fcs =>
    ({ m with state := .search, flagsRun := 0 },
      if mxFcsTable (m.fcs ^^^ c) = mxGoodFcs then some (.frame m.addr m.ctrl m.buf.contents)
      else none)

/-- The events of a piece of the stream. -/
def feed (m : MuxRx) : Bytes → MuxRx × List MuxEvent
  | [] => (m, [])
  | c :: rest =>
    let (m₁, event) := m.step c
    let (m₂, events) := m₁.feed rest
    (m₂, event.toList ++ events)

theorem feed_append (m : MuxRx) (first second : Bytes) :
    m.feed (first ++ second) =
      (((m.feed first).1.feed second).1, (m.feed first).2 ++ ((m.feed first).1.feed second).2) := by
  induction first generalizing m with
  | nil => rfl
  | cons c first ih => simp [feed, ih]

end MuxRx

end QemuIos.Baseband

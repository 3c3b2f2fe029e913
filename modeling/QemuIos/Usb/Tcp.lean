import QemuIos.Lib.Mem

/-!
# USB over TCP, the device's side

The host sends requests, a header of five bytes and the payload of an OUT; the device answers each
with a header and the payload of an IN. One state machine does both over a socket that does not
block, so that every call of `read` and `write` may do a part of what is asked, or nothing; how far
the packet is read or written is counted in one variable through header and payload.
-/

namespace QemuIos.Usb

def headerBytes : Nat := 5

structure Header where
  addr : UInt8
  ep : UInt8
  flags : UInt8
  length : Int16

namespace Header

/-- The header in memory. -/
def ofMem (m : Mem) : Header where
  addr := m 0
  ep := m 1
  flags := m 2
  length := (UInt16.ofNat (m.half 3)).toInt16

def byte (h : Header) (i : Nat) : UInt8 :=
  match i with
  | 0 => h.addr
  | 1 => h.ep
  | 2 => h.flags
  | 3 => UInt8.ofNat h.length.toUInt16.toNat
  | 4 => UInt8.ofNat (h.length.toUInt16.toNat / 2 ^ 8)
  | _ => 0

/-- `USB_DIR_IN` is set. -/
def dirIn (h : Header) : Bool := h.ep &&& 0x80 != 0

/-- `tcp_usb_payload_len`: a length that is not positive means no payload. -/
def payloadLen (h : Header) : Nat := h.length.toInt.toNat

/-- The bytes that follow the header of a request. -/
def outLen (h : Header) : Nat := if h.dirIn then 0 else h.payloadLen

/-- The bytes that follow the header of a response. -/
def inLen (h : Header) : Nat := if h.dirIn then h.payloadLen else 0

end Header

/-- What a data callback leaves: its own state, the header and the buffer it was given, and the
length it returns. -/
structure Reply (δ : Type*) where
  device : δ
  header : Header
  buffer : Mem
  ret : Int

abbrev Callback (δ : Type*) := δ → Header → Mem → Reply δ

inductive Phase
  | idle | readRequest | writeResponse
  deriving DecidableEq

/-- What a call of `read` or `write` comes to: one byte and so many more, as far as they are asked
for and there; `EAGAIN` or `EINTR`; the end of the connection. -/
inductive Io
  | moves (more : Nat)
  | again
  | dead

/-- The outcomes of the calls one run of the state machine can make. -/
structure Ios where
  readHeader : Io
  readPayload : Io
  writeHeader : Io
  writePayload : Io

/-- A request as the callback is given it. -/
structure Request where
  header : Header
  payload : List UInt8

/-- The connection, with the bytes the host has still to get across, those the device has sent, and
the calls of the callback. -/
structure Conn (δ : Type*) where
  closed : Bool
  phase : Phase
  header : Mem
  buffer : Mem
  amountDone : Nat
  device : δ
  incoming : List UInt8
  written : List UInt8
  calls : List Request

namespace Conn

variable {δ : Type*} (c : Conn δ)

/-- A state, and whether the state machine goes on with it. -/
abbrev Next (δ : Type*) := Conn δ × Bool

def doClosed : Conn δ := { c with closed := true }

/-- How many bytes a call moves: none if there are none, which on a socket is `EAGAIN`. -/
def moved (asked there more : Nat) : Nat := min (more + 1) (min asked there)

/-- One `read` of up to `asked` bytes; `store` puts them where they belong. -/
def recv (asked : Nat) (io : Io) (store : List UInt8 → Conn δ → Conn δ) (done : Conn δ → Bool) :
    Next δ :=
  match io with
  | .again => (c, false)
  | .dead => (c.doClosed, false)
  | .moves more =>
    let n := moved asked c.incoming.length more
    if n = 0 then (c, false)
    else
      let got := c.incoming.take n
      let c := store got { c with incoming := c.incoming.drop n, amountDone := c.amountDone + n }
      (c, done c)

/-- One `write` of up to `asked` bytes, from `source` on. -/
def send (asked : Nat) (io : Io) (source : Mem) (done : Conn δ → Bool) : Next δ :=
  match io with
  | .again => (c, false)
  | .dead => (c.doClosed, false)
  | .moves more =>
    let n := moved asked asked more
    let c := { c with
      written := c.written ++ (List.range n).map source
      amountDone := c.amountDone + n }
    (c, done c)

def readHeader (io : Io) : Next δ :=
  if c.amountDone < headerBytes then
    c.recv (headerBytes - c.amountDone) io
      (fun got c' =>
        let c' := { c' with header := c'.header.blit c.amountDone got.length (Mem.ofList got) }
        -- With the header there, a buffer for the payload, of zeros.
        if c'.amountDone < headerBytes then c' else { c' with buffer := fun _ => 0 })
      fun c' => decide (headerBytes ≤ c'.amountDone)
  else (c, true)

def readPayload (io : Io) : Next δ :=
  let len := (Header.ofMem c.header).outLen
  if 0 < len then
    let got := c.amountDone - headerBytes
    c.recv (len - got) io
      (fun bytes c' => { c' with buffer := c'.buffer.blit got bytes.length (Mem.ofList bytes) })
      fun c' => decide (headerBytes + len ≤ c'.amountDone)
  else (c, true)

/-- The callback; what it returns becomes the length of the response. -/
def call (cb : Callback δ) : Conn δ :=
  let header := Header.ofMem c.header
  let reply := cb c.device header c.buffer
  { c with
    phase := .writeResponse
    amountDone := 0
    device := reply.device
    header := { reply.header with length := Int16.ofInt reply.ret }.byte
    buffer := reply.buffer
    calls := c.calls ++ [⟨header, (List.range header.outLen).map c.buffer⟩] }

def writeHeader (io : Io) : Next δ :=
  if c.amountDone < headerBytes then
    c.send (headerBytes - c.amountDone) io (c.header.slice c.amountDone)
      fun c' => decide (headerBytes ≤ c'.amountDone)
  else (c, true)

def writePayload (io : Io) : Next δ :=
  let len := (Header.ofMem c.header).inLen
  if 0 < len then
    let sent := c.amountDone - headerBytes
    c.send (len - sent) io (c.buffer.slice sent) fun c' =>
      decide (headerBytes + len ≤ c'.amountDone)
  else (c, true)

def writeResponse (ios : Ios) : Conn δ :=
  let h := c.writeHeader ios.writeHeader
  if h.2 then
    let p := h.1.writePayload ios.writePayload
    if p.2 then { p.1 with phase := .idle } else p.1
  else h.1

def readRequest (cb : Callback δ) (ios : Ios) : Conn δ :=
  let h := c.readHeader ios.readHeader
  if h.2 then
    let p := h.1.readPayload ios.readPayload
    if p.2 then (p.1.call cb).writeResponse ios else p.1
  else h.1

/-- A packet of its own for the next request. -/
def begin : Conn δ := { c with phase := .readRequest, header := fun _ => 0, amountDone := 0 }

/-- `tcp_usb_pump`: the device's states. A request begins when the socket can be read. -/
def pump (cb : Callback δ) (canRead : Bool) (ios : Ios) : Conn δ :=
  if c.closed then c
  else
    match c.phase with
    | .idle =>
      if canRead then c.begin.readRequest cb ios else c
    | .readRequest => c.readRequest cb ios
    | .writeResponse => c.writeResponse ios

end Conn

end QemuIos.Usb

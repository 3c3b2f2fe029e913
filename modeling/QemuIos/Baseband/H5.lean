import QemuIos.Lib.Sizes
import QemuIos.Lib.Slip

/-!
# The H5 link

`hw/misc/ios_baseband_core.c:28-339`: the three-wire UART link to the kernel, with packets in
SLIP frames, a three-bit sequence number, cumulative acknowledgements on every packet and a
window of seven. `Link` also records what was done: the calls of `out` and the payloads that
`h5_queue` took.
-/

namespace QemuIos.Baseband
open CText

def h5TypeAck : Fin 16 := 0
def h5TypeData : Fin 16 := 14
def h5TypeLink : Fin 16 := 15
def h5RetxMs : Int := 250
abbrev h5MaxPayload : Nat := 1024
abbrev h5Window : Nat := 7
abbrev h5TxqSize : Nat := 8192
abbrev h5RxSize : Nat := 2048

/-- An entry of the kext's CRC table: reflected CCITT, bytes swapped. -/
def h5CrcTable (i : UInt8) : UInt16 :=
  let c := (List.range 8).foldl
    (fun (c : UInt16) _ => if c &&& 1 ≠ 0 then (c >>> 1) ^^^ 0x8408 else c >>> 1) i.toUInt16
  (c >>> 8) ||| (c <<< 8)

/-- `ios_bb_h5_crc`: run from the most significant bit, and the result bit-reversed. -/
def h5Crc (p : Bytes) : UInt16 :=
  let c := p.foldl (fun (c : UInt16) b => h5CrcTable (b ^^^ (c >>> 8).toUInt8) ^^^ (c <<< 8)) 0xffff
  (List.range 16).foldl (fun (r : UInt16) i => (r <<< 1) ||| ((c >>> UInt16.ofNat i) &&& 1)) 0

structure H5Pkt where
  seq : Fin 8
  data : Bytes
  deriving DecidableEq, Repr

/-- A call of `out`: bytes as they are, or a packet that `h5_send_wire` puts into a frame. -/
inductive Wire where
  | raw (bytes : Bytes)
  | packet (pkt : Bytes)
  deriving DecidableEq, Repr

def Wire.bytes : Wire → Bytes
  | .raw bytes => bytes
  | .packet pkt => Slip.encode pkt

structure Link where
  active : Bool := false
  crc : Bool := false
  needAck : Bool := false
  txSeq : Fin 8 := 0
  rxNext : Fin 8 := 0
  unacked : List H5Pkt := []
  lastTxMs : Int := 0
  txq : Bytes := []
  /-- The calls of `out`. -/
  out : List Wire := []
  /-- The payloads `h5_queue` took. -/
  queued : List Bytes := []
  deriving DecidableEq, Repr

/-- The four bytes before a payload, from sequence numbers of any size. -/
def headerOf (type : Fin 16) (reliable crc : Bool) (seq ack : UInt8) (len : Nat) : Bytes :=
  let p0 := seq ||| (ack <<< 3) ||| (UInt8.ofNat crc.toNat <<< 6) |||
    (UInt8.ofNat reliable.toNat <<< 7)
  let p1 := UInt8.ofNat type ||| (UInt8.ofNat (len % 16) <<< 4)
  let p2 := UInt8.ofNat (len / 16)
  [p0, p1, p2, ~~~(p0 + p1 + p2)]

/-- A built packet: header, payload and the check sequence where it was negotiated. -/
def packetOf (type : Fin 16) (reliable crc : Bool) (seq ack : UInt8) (data : Bytes) : Bytes :=
  let p := headerOf type reliable crc seq ack data.length ++ data
  if crc then p ++ [(h5Crc p >>> 8).toUInt8, (h5Crc p).toUInt8] else p

def h5Header (type : Fin 16) (reliable crc : Bool) (seq ack : Fin 8) (len : Nat) : Bytes :=
  headerOf type reliable crc (UInt8.ofNat seq) (UInt8.ofNat ack) len

def h5Packet (type : Fin 16) (reliable crc : Bool) (seq ack : Fin 8) (data : Bytes) : Bytes :=
  packetOf type reliable crc (UInt8.ofNat seq) (UInt8.ofNat ack) data

variable (l : Link)

namespace Link

def emit (wire : Wire) : Link := { l with out := l.out ++ [wire] }

def h5SendWire (pkt : Bytes) : Link := l.emit (.packet pkt)

def h5SendPkt (now : Int) (type : Fin 16) (reliable : Bool) (seq : Fin 8)
    (data : Bytes) : Link :=
  if h5MaxPayload < data.length then l
  else
    let crc := l.crc && type ≠ h5TypeLink
    { l.h5SendWire (h5Packet type reliable crc seq l.rxNext data) with
      needAck := false, lastTxMs := now }

def h5SendAck (now : Int) : Link :=
  let l := if l.active then l.h5SendPkt now h5TypeAck false 0 [] else l
  { l with needAck := false }

/-- Queue a reliable data packet, cut at the largest payload; without room it is dropped. -/
def h5Queue (data : Bytes) : Link :=
  let data := data.take h5MaxPayload
  if h5TxqSize < l.txq.length + 2 + data.length then l
  else
    { l with
      txq := l.txq ++ [UInt8.ofNat data.length, UInt8.ofNat (data.length / 256)] ++ data
      queued := l.queued ++ [data] }

def h5SendOneUnacked (now : Int) (data : Bytes) : Link :=
  let seq := l.txSeq
  let l := { l with unacked := l.unacked ++ [H5Pkt.mk seq data] }
  { l.h5SendPkt now h5TypeData true seq data with txSeq := seq + 1 }

/-- The loop of `h5_pump`, with so many packets left in the window. -/
def h5PumpFrom (now : Int) : Nat → Link → Link
  | 0, l => l
  | left + 1, l =>
    match l.txq with
    | lo :: hi :: rest =>
      let len := lo.toNat + 256 * hi.toNat
      if rest.length < len then l
      else
        h5PumpFrom now left
          (h5SendOneUnacked { l with txq := rest.drop len } now (rest.take len))
    | _ => l

def h5Pump (now : Int) : Link :=
  if l.active then h5PumpFrom now (h5Window - l.unacked.length) l else l

def h5Retransmit (now : Int) : Link :=
  l.unacked.foldl (fun l p => l.h5SendPkt now h5TypeData true p.seq p.data) l

/-- Any packet advances the window for whatever it acknowledges. -/
def h5Acked (now : Int) (ack : Fin 8) : Link :=
  match l.unacked with
  | [] => l
  | first :: _ =>
    let d := (ack - first.seq).val
    if d ≤ l.unacked.length then { l with unacked := l.unacked.drop d }.h5Pump now else l

end Link

/-! ## A received packet -/

/-- The buffer of a packet, of which `len` bytes were received; the code also reads bytes
behind them. -/
abbrev H5Buf := Buf h5RxSize

namespace H5Buf

variable (p : H5Buf)

def payloadLen : Nat := (p.data 1).toNat / 16 + (p.data 2).toNat * 16
def type : Fin 16 := Fin.ofNat 16 (p.data 1).toNat
def seq : Fin 8 := Fin.ofNat 8 (p.data 0).toNat
def ack : Fin 8 := Fin.ofNat 8 ((p.data 0).toNat / 8)
def hasCrc : Bool := p.data 0 &&& 0x40 ≠ 0
def reliable : Bool := p.data 0 &&& 0x80 ≠ 0
def payload : Bytes := (List.range (payloadLen p)).map fun i => p.data (4 + i)

/-- The bytes the check sequence covers. -/
def covered : Bytes := (List.range (4 + payloadLen p)).map p.data

def headerOk : Bool :=
  4 ≤ p.len && p.data 0 + p.data 1 + p.data 2 = ~~~p.data 3

def lengthOk : Bool :=
  payloadLen p ≤ 1500 && 4 + payloadLen p + 2 * (hasCrc p).toNat = p.len

/-- The check sequence, high or low byte first. -/
def crcOk : Bool :=
  !hasCrc p ||
    (let c := h5Crc (covered p)
     let hi := p.data (4 + payloadLen p)
     let lo := p.data (5 + payloadLen p)
     c = (hi.toUInt16 <<< 8) ||| lo.toUInt16 || c = (lo.toUInt16 <<< 8) ||| hi.toUInt16)

def ok : Bool := headerOk p && lengthOk p && crcOk p

end H5Buf

namespace Link

/-- `SYNC` and `CONFIG`, told apart by the byte behind the header. -/
def h5LinkControl (now : Int) (p : H5Buf) : Link :=
  if p.data 4 = 0x01 then l.h5SendPkt now h5TypeLink false 0 [0x02, 0x7d]
  else if p.data 4 = 0x03 then
    let given := 3 ≤ H5Buf.payloadLen p
    let cfg : UInt8 := if given then p.data 6 else 7
    let l := { l with crc := given && p.data 6 &&& 0x10 ≠ 0 }
    let l := l.h5SendPkt now h5TypeLink false 0 [0x04, 0x7b, cfg]
    { l with active := true }.h5Pump now
  else l

/-- `h5_rx_pkt` up to the payload of a new data packet, which is left to the caller. -/
def h5RxPkt (now : Int) (p : H5Buf) : Link × Option Bytes :=
  if H5Buf.ok p then
    let l := l.h5Acked now (H5Buf.ack p)
    if H5Buf.type p = h5TypeLink then (l.h5LinkControl now p, none)
    else if !l.active then (l, none)
    else if H5Buf.type p ≠ h5TypeData || !H5Buf.reliable p then (l, none)
    else if H5Buf.seq p = l.rxNext then ({ l with rxNext := l.rxNext + 1 }, some (H5Buf.payload p))
    else ({ l with needAck := true }, none)
  else (l, none)

end Link

end QemuIos.Baseband

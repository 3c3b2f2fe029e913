import QemuIos.Usb.Tcp

/-!
# The USB controller behind the transport

What the Synopsys controller makes of a host transaction: the handshake of the transport, stalls and
NAKs, an IN that takes bytes of the armed transfer out of guest memory, an OUT that puts them there.
-/

namespace QemuIos.Usb

def usbNumEndpoints : Nat := 8
def retNak : Int := -2
def retStall : Int := -3

def tcpUsbSetup : UInt8 := 1
def tcpUsbReset : UInt8 := 2
def tcpUsbEnumdone : UInt8 := 4
def tcpUsbHello : UInt8 := 8
def tcpUsbEpControl : UInt8 := 0x7f

/-- `tcp_usb_hello_t`: the magic, version 1, and the largest transaction, 32767. -/
def helloBytes : List UInt8 := [0x54, 0x55, 0x53, 0x42, 1, 0, 0, 0, 0xff, 0x7f, 0, 0]

def gintmskReset : UInt32 := (1 : UInt32) <<< 12
def gintmskEnumdone : UInt32 := (1 : UInt32) <<< 13
def gintmskOtg : UInt32 := (1 : UInt32) <<< 2
def gintmskInep : UInt32 := (1 : UInt32) <<< 18
def gintmskOep : UInt32 := (1 : UInt32) <<< 19
def gahbcfgMaskint : UInt32 := 1
def epconEnable : UInt32 := (1 : UInt32) <<< 31
def epconDisable : UInt32 := (1 : UInt32) <<< 30
def epconSetnak : UInt32 := (1 : UInt32) <<< 27
def epconClearnak : UInt32 := (1 : UInt32) <<< 26
def epconStall : UInt32 := (1 : UInt32) <<< 21
def epconNaksts : UInt32 := (1 : UInt32) <<< 17
def epconMpsMask : UInt32 := 0x7FF
def epintXferCompl : UInt32 := 1
def epintEpDisbld : UInt32 := 2
def epintSetUp : UInt32 := 8
def epintInepNakEff : UInt32 := 0x40
def xfersizMask : UInt32 := 0x1FFFF
def pktcntMask : UInt32 := 0x3FF
def pktcntShift : UInt32 := 19

/-- The address has 64 bits; what the guest writes to it has 32. -/
structure Ep where
  control : UInt32
  txSize : UInt32
  dmaAddress : UInt64
  interruptStatus : UInt32

namespace Ep

variable (e : Ep)

def is (bit : UInt32) : Bool := e.control &&& bit != 0

def clear (bit : UInt32) : Ep := { e with control := e.control &&& ~~~bit }

/-- The transfer size that is armed. -/
def armed : Nat := (e.txSize &&& xfersizMask).toNat

def setArmed (n : Nat) : Ep :=
  { e with txSize := e.txSize &&& ~~~xfersizMask ||| UInt32.ofNat n &&& xfersizMask }

def pktcnt : UInt32 := e.txSize >>> pktcntShift &&& pktcntMask

def setPktcnt (n : UInt32) : Ep :=
  { e with txSize := e.txSize &&& ~~~(pktcntMask <<< pktcntShift) ||| n <<< pktcntShift }

def raise (bit : UInt32) : Ep := { e with interruptStatus := e.interruptStatus ||| bit }

/-- `synopsys_usb_update_ep`: a NAK or an end that the guest asks for. -/
def update : Ep :=
  let e := if e.is epconSetnak then
      ({ e with control := e.control ||| epconNaksts }.raise epintInepNakEff).clear epconSetnak
    else e
  if e.is epconDisable then (e.raise epintEpDisbld).clear (epconDisable ||| epconEnable) else e

/-- A guest's write to the registers of an endpoint, all but the control register. -/
def write (addr : Nat) (val : UInt32) : Ep :=
  match addr with
  | 0x08 => { e with interruptStatus := e.interruptStatus &&& ~~~val }
  | 0x10 => { e with txSize := val }
  | 0x14 => { e with dmaAddress := val.toUInt64 }
  | _ => e

end Ep

structure Otg where
  dcfg : UInt32
  gintsts : UInt32
  gintmsk : UInt32
  gotgint : UInt32
  gahbcfg : UInt32
  daintsts : UInt32
  daintmsk : UInt32
  doepmsk : UInt32
  diepmsk : UInt32
  phyReset : Bool
  withholdCharge : Bool
  inEps : Nat → Ep
  outEps : Nat → Ep
  irq : Bool
  mem : Mem

namespace Otg

variable (s : Otg)

/-- One endpoint's share of the interrupt state. -/
def epIrq (s : Otg) (i : Nat) : Otg :=
  let outBit : UInt32 := (1 : UInt32) <<< UInt32.ofNat (i + 16)
  let inBit : UInt32 := (1 : UInt32) <<< UInt32.ofNat i
  let s := if (s.outEps i).interruptStatus &&& s.doepmsk ≠ 0 then
      { s with
        daintsts := s.daintsts ||| outBit
        gintsts := if s.daintmsk &&& outBit ≠ 0 then s.gintsts ||| gintmskOep else s.gintsts }
    else s
  if (s.inEps i).interruptStatus &&& s.diepmsk ≠ 0 then
    { s with
      daintsts := s.daintsts ||| inBit
      gintsts := if s.daintmsk &&& inBit ≠ 0 then s.gintsts ||| gintmskInep else s.gintsts }
  else s

/-- `synopsys_usb_update_irq`. -/
def updateIrq : Otg :=
  let cleared := s.gintsts &&& ~~~(gintmskOep ||| gintmskInep ||| gintmskOtg)
  let s := { s with
    daintsts := 0
    gintsts := if s.gotgint ≠ 0 then cleared ||| gintmskOtg else cleared }
  let s := (List.range usbNumEndpoints).foldl epIrq s
  { s with irq := s.gahbcfg &&& gahbcfgMaskint ≠ 0 ∧ s.gintmsk &&& s.gintsts ≠ 0 }

/-- `synopsys_usb_in_ep_write`. -/
def inEpWrite (ep addr : Nat) (val : UInt32) : Otg :=
  let e := s.inEps ep
  let set (e : Ep) : Otg := { s with inEps := Function.update s.inEps ep e }
  if usbNumEndpoints ≤ ep then s
  else if addr = 0x00 then
    -- NAKSts is read-only: only SNAK, CNAK and the core change it.
    let e := { e with control := val &&& ~~~epconNaksts ||| e.control &&& epconNaksts }
    set (if e.is epconClearnak then e.clear (epconClearnak ||| epconNaksts) else e).update
  else if addr = 0x08 then (set (e.write addr val)).updateIrq
  else set (e.write addr val)

/-- `synopsys_usb_out_ep_write`. -/
def outEpWrite (ep addr : Nat) (val : UInt32) : Otg :=
  let e := s.outEps ep
  let set (e : Ep) : Otg := { s with outEps := Function.update s.outEps ep e }
  if usbNumEndpoints ≤ ep then s
  else if addr = 0x00 then set { e with control := val }.update
  else if addr = 0x08 then (set (e.write addr val)).updateIrq
  else set (e.write addr val)

/-- An IN of the armed transfer: up to `hdrLen` bytes of it. The endpoint stays armed until the
transfer is drained, or if there is no DMA address to drain it from. -/
def inTransfer (ep hdrLen : Nat) (header : Header) (buffer : Mem) : Reply Otg :=
  let e := s.inEps ep
  let sz := e.armed
  let asked := min sz hdrLen
  let noDma : Bool := 0 < asked ∧ e.dmaAddress = 0
  let amtDone := if noDma then 0 else asked
  let buffer := buffer.blit 0 amtDone (s.mem.slice e.dmaAddress.toNat)
  let e := { e with dmaAddress := e.dmaAddress + UInt64.ofNat amtDone }
  let remaining := sz - amtDone
  let e := e.setArmed remaining
  let mps := if ep ≠ 0 then (e.control &&& epconMpsMask).toNat
    else ((64 : UInt32) >>> (e.control &&& 3)).toNat
  let e :=
    if mps ≠ 0 ∧ amtDone ≠ 0 then
      let sent := UInt32.ofNat ((amtDone + mps - 1) / mps)
      e.setPktcnt (if sent < e.pktcnt then e.pktcnt - sent else 0)
    else e
  let e := if remaining = 0 ∨ noDma then (e.clear epconEnable).raise epintXferCompl else e
  ⟨{ s with inEps := Function.update s.inEps ep e }.updateIrq, header, buffer, amtDone⟩

/-- An IN token: a stall is told once, a NAK as long as it is set. -/
def inToken (ep hdrLen : Nat) (header : Header) (buffer : Mem) : Reply Otg :=
  let e := s.inEps ep
  if e.is epconStall then
    let s := { s with inEps := Function.update s.inEps ep (e.clear epconStall) }
    ⟨s.updateIrq, header, buffer, retStall⟩
  else if e.is epconNaksts then ⟨s.updateIrq, header, buffer, retNak⟩
  else if e.is epconEnable then s.inTransfer ep hdrLen header buffer
  else ⟨s.updateIrq, header, buffer, retNak⟩

/-- The end of an OUT transfer: a SETUP ends whatever control transfer came before it. -/
def outEnd (ep sz amtDone : Nat) (setup : Bool) (e : Ep) : Otg :=
  let mps := e.control &&& epconMpsMask
  let pkts := e.pktcnt
  let e := if setup then e.raise epintSetUp else e.raise epintXferCompl
  let inEps :=
    if setup ∧ ep = 0 then
      let zero := (s.inEps 0).clear epconStall
      Function.update s.inEps 0 { zero with control := zero.control ||| epconNaksts }
    else s.inEps
  let e := if setup ∧ ep = 0 then e.clear epconStall else e
  let e := e.setArmed (sz - amtDone)
  let e :=
    if ep ≠ 0 ∧ mps ≠ 0 ∧ ¬ setup then
      let used := min pkts.toNat (max 1 ((amtDone + mps.toNat - 1) / mps.toNat))
      e.setPktcnt (pkts - UInt32.ofNat used)
    else e
  { s with inEps := inEps, outEps := Function.update s.outEps ep e }

/-- An OUT of `hdrLen` bytes, into the armed transfer. A transaction of whole packets short of both
its size and its packet count leaves it armed. -/
def outTransfer (ep hdrLen : Nat) (header : Header) (buffer : Mem) : Reply Otg :=
  let e := (s.outEps ep).clear epconEnable
  let setup := header.flags &&& tcpUsbSetup != 0
  let sz := e.armed
  let amtDone := min sz hdrLen
  let wrote : Bool := 0 < amtDone ∧ e.dmaAddress ≠ 0
  let s := if wrote then { s with mem := s.mem.blit e.dmaAddress.toNat amtDone buffer } else s
  let e := if wrote then { e with dmaAddress := e.dmaAddress + UInt64.ofNat amtDone } else e
  let mps := (e.control &&& epconMpsMask).toNat
  let pkts := e.pktcnt
  if ep ≠ 0 ∧ ¬ setup ∧ mps ≠ 0 ∧ amtDone ≠ 0 ∧ amtDone % mps = 0 ∧ amtDone < sz ∧
      amtDone / mps < pkts.toNat then
    let e := { e with control := e.control ||| epconEnable }
    let e := (e.setArmed (sz - amtDone)).setPktcnt (pkts - UInt32.ofNat (amtDone / mps))
    ⟨{ s with outEps := Function.update s.outEps ep e }.updateIrq, header, buffer, amtDone⟩
  else ⟨(s.outEnd ep sz amtDone setup e).updateIrq, header, buffer, amtDone⟩

def outToken (ep hdrLen : Nat) (header : Header) (buffer : Mem) : Reply Otg :=
  let e := s.outEps ep
  if e.is epconStall then
    let s := { s with outEps := Function.update s.outEps ep (e.clear epconStall) }
    ⟨s.updateIrq, header, buffer, retStall⟩
  else if e.is epconEnable then s.outTransfer ep hdrLen header buffer
  else ⟨s.updateIrq, header, buffer, retNak⟩

/-- `synopsys_usb_tcp_callback`. -/
def tcpCallback : Callback Otg := fun s header buffer =>
  let header := { header with addr := UInt8.ofNat ((s.dcfg &&& (0x7F : UInt32) <<< 4) >>> 4).toNat }
  let ep := header.ep &&& 0x7f
  let hello := header.flags &&& tcpUsbHello != 0 && ep == tcpUsbEpControl
  let hdrLen := header.payloadLen
  -- A PHY held in reset takes nothing but the handshake.
  if s.phyReset && !hello then ⟨s, header, buffer, retNak⟩
  else if header.flags &&& tcpUsbReset != 0 then
    ⟨{ s with gintsts := s.gintsts ||| gintmskReset }.updateIrq, header, buffer, 0⟩
  else
    let s := if header.flags &&& tcpUsbEnumdone != 0
      then { s with gintsts := s.gintsts ||| gintmskEnumdone } else s
    if hello then
      if !header.dirIn || decide (hdrLen < helloBytes.length) then ⟨s, header, buffer, retStall⟩
      else ⟨s, header, buffer.blit 0 helloBytes.length (Mem.ofList helloBytes), helloBytes.length⟩
    else if usbNumEndpoints ≤ ep.toNat then ⟨s.updateIrq, header, buffer, retStall⟩
    -- A port without charge current: the vendor power request is refused.
    else if s.withholdCharge && ep == 0 && (header.flags &&& tcpUsbSetup != 0) &&
        decide (2 ≤ hdrLen) && buffer 0 == 0x40 && buffer 1 == 0x40 then
      ⟨s, header, buffer, retStall⟩
    else if header.dirIn then s.inToken ep.toNat hdrLen header buffer
    else s.outToken ep.toNat hdrLen header buffer

end Otg

end QemuIos.Usb

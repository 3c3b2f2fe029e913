import QemuIos.Lib.CText

/-!
# The IFX SPI framing

`hw/misc/ios_baseband_core.c:2966-3102`: each transfer is full duplex, a four-byte header and a
payload in both directions. What the modem says waits in `txq` until a transfer clocks it out.
The build has `-fwrapv`, so that the `int` credit counts wrap around.
-/

namespace QemuIos.Baseband
open CText

abbrev ifxHdr : Nat := 4
abbrev ifxTxqSize : Nat := 16384
abbrev ifxDataMax : Nat := 0xffe
def ifxMore : UInt8 := 0x10
def ifxV2CreditReq : UInt8 := 0x40
def ifxV2Grant : Int32 := 16

/-- A twelve-bit header field: a byte and the low nibble of the next. -/
def ifxField (lo hi : UInt8) : Nat := lo.toNat ||| ((hi &&& 0xf).toNat <<< 8)

structure Ifx where
  version : Int
  maxData : Nat
  maxData_le : maxData ≤ ifxDataMax
  /-- The credits the AP still holds. -/
  creditsOut : Int32
  /-- The credits the AP granted: data frames that may be sent. -/
  creditsIn : Int32
  txq : Bytes
  txq_le : txq.length ≤ ifxTxqSize
  deriving DecidableEq, Repr

namespace Ifx

variable (x : Ifx)

/-- `ios_bb_ifx_init`. -/
def init (version : Int) (maxData : Nat) : Ifx where
  version := version
  maxData := min maxData ifxDataMax
  maxData_le := Nat.min_le_right _ _
  creditsOut := 0
  creditsIn := 0
  txq := []
  txq_le := Nat.zero_le _

/-- `ios_bb_ifx_modem_reset`: the modem reset, not the AP, so that the credits stay. -/
def modemReset : Ifx :=
  { x with txq := [], txq_le := Nat.zero_le _, creditsIn := min x.creditsIn ifxV2Grant }

/-- What `ios_bb_ifx_queue` takes; it drops anything longer. -/
def Accepts (buf : Bytes) : Prop := x.txq.length + buf.length ≤ ifxTxqSize

instance (x : Ifx) (buf : Bytes) : Decidable (x.Accepts buf) := Nat.decLe _ _

/-- `ios_bb_ifx_queue`. -/
def queue (buf : Bytes) : Ifx :=
  if room : x.Accepts buf then
    { x with txq := x.txq ++ buf, txq_le := by rw [List.length_append]; exact room }
  else x

/-- `ios_bb_ifx_pending`: only data raises SRDY. -/
def pending : Bool := !x.txq.isEmpty

/-- `ifx_can_send`: no data in version 2 without a credit from the AP. -/
def canSend : Nat := if x.version = 2 ∧ x.creditsIn ≤ 0 then 0 else x.txq.length

/-- The AP's half of `ios_bb_ifx_xfer`: the payload inside `mosi` and the credits it grants. -/
def takeMosi (mosi : Bytes) : Ifx × Bytes :=
  if mosi.length < ifxHdr then (x, [])
  else
    let field := ifxField (mosi.getD 0 0) (mosi.getD 1 0)
    -- 0xfff and anything past the frame is no payload
    let inLen := if field ≤ x.maxData ∧ ifxHdr + field ≤ mosi.length then field else 0
    let rx := (mosi.drop ifxHdr).take inLen
    if x.version = 2 then
      let spent := if inLen ≠ 0 then x.creditsOut - 1 else x.creditsOut
      let creditsOut := if mosi.getD 1 0 &&& ifxV2CreditReq ≠ 0 then 0 else spent
      let granted := ifxField (mosi.getD 2 0) (mosi.getD 3 0)
      ({ x with creditsOut, creditsIn := x.creditsIn + Int32.ofNat granted }, rx)
    else (x, rx)

/-- `(unsigned)n - IOS_BB_IFX_HDR`. -/
def room (n : Nat) : Nat := (n % 2 ^ 32 + 2 ^ 32 - ifxHdr) % 2 ^ 32

/-- The payload bytes of the next frame. -/
def outLen (n : Nat) : Nat := min x.canSend (min x.maxData (room n))

/-- Bytes 2 and 3 of a version 2 frame, and the AP's credits behind them. -/
def topUp : Int32 × Int32 :=
  if x.creditsOut < ifxV2Grant then
    (ifxV2Grant - x.creditsOut, x.creditsOut + (ifxV2Grant - x.creditsOut))
  else (0, x.creditsOut)

/-- Byte 1: the length's high bits, "more to follow" and "I need credits". -/
def flags (out : Nat) : UInt8 :=
  let b := UInt8.ofNat (out >>> 8)
  let b := if x.txq.length > out then b ||| ifxMore else b
  if x.version = 2 ∧ out = 0 ∧ x.txq ≠ [] then b ||| ifxV2CreditReq else b

/-- Bytes 2 and 3: the credits granted, or in version 1 what the modem can take. -/
def offer : Bytes :=
  if x.version = 2 then [x.topUp.1.toUInt32.toUInt8, (x.topUp.1.toUInt32 >>> 8).toUInt8]
  else [UInt8.ofNat x.maxData, UInt8.ofNat (x.maxData >>> 8) &&& 0xf]

/-- The modem's half of `ios_bb_ifx_xfer`: the `n` bytes of `miso`. -/
def makeMiso (n : Nat) : Ifx × Bytes :=
  if n < ifxHdr then (x, List.replicate n 0)
  else
    let out := x.outLen n
    let frame := UInt8.ofNat out :: x.flags out :: (x.offer ++ x.txq.take out) ++
      List.replicate (n - (ifxHdr + out)) 0
    let left : Ifx :=
      { x with
        txq := x.txq.drop out
        txq_le := Nat.le_trans (by rw [List.length_drop]; exact Nat.sub_le _ _) x.txq_le }
    if x.version = 2 then
      ({ left with
          creditsIn := if out ≠ 0 then x.creditsIn - 1 else x.creditsIn
          creditsOut := x.topUp.2 }, frame)
    else (left, frame)

/-- `ios_bb_ifx_xfer`: one transfer of `n` bytes; either side may be missing. -/
def xfer {n : Nat} (mosi : Option (Vector UInt8 n)) (miso : Bool) :
    Ifx × Option Bytes × Bytes :=
  let (x, rx) := match mosi with
    | some m => x.takeMosi m.toList
    | none => (x, [])
  if miso then
    let (x, frame) := x.makeMiso n
    (x, some frame, rx)
  else (x, none, rx)

/-- The length `ios_bb_ifx_unsent` reads where `miso` points. -/
def unsentLen (miso : Nat → UInt8) : Nat := ifxField (miso 0) (miso 1)

/-- When `ios_bb_ifx_unsent` puts a payload of that length back. -/
def TakesBack (len : Nat) : Prop :=
  len ≠ 0 ∧ len ≤ x.maxData ∧ x.txq.length + len ≤ ifxTxqSize

instance (x : Ifx) (len : Nat) : Decidable (x.TakesBack len) :=
  inferInstanceAs (Decidable (_ ∧ _ ∧ _))

/-- `ios_bb_ifx_unsent`: the AP never clocked the frame that `miso` points to. -/
def unsent (miso : Nat → UInt8) : Ifx :=
  let len := unsentLen miso
  if back : x.TakesBack len then
    { x with
      txq := (List.range len).map (fun i => miso (ifxHdr + i)) ++ x.txq
      txq_le := by
        have fits := back.2.2
        simp only [List.length_append, List.length_map, List.length_range]
        omega
      creditsIn := if x.version = 2 then x.creditsIn + 1 else x.creditsIn }
  else x

end Ifx

end QemuIos.Baseband

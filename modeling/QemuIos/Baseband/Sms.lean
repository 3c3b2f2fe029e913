import QemuIos.Baseband.Registration

/-!
# Short messages

`hw/misc/ios_baseband_core.c:903-1211` and `1824-1939`: the PDUs of incoming and outgoing
messages, in the default alphabet or UCS2, and the store behind `+CMGR`.
-/

namespace QemuIos.Baseband
open CText

/-- UTF-8 to big-endian UTF-16, `no` octets of at most `max` written. -/
def utf8ToUcs2be (max : Nat) : Bytes → Nat → Bytes
  | [], _ => []
  | c :: rest, no =>
    let unit (v : Nat) : Bytes := [UInt8.ofNat (v / 256), UInt8.ofNat v]
    if no + 2 ≤ max then
      if c < 0x80 then unit c.toNat ++ utf8ToUcs2be max rest (no + 2)
      else
        match rest with
        -- a sequence cut short by the string's end
        | [] => []
        | d :: rest' =>
          if c &&& 0xe0 = 0xc0 then
            unit (c.toNat % 32 * 64 + d.toNat % 64) ++ utf8ToUcs2be max rest' (no + 2)
          else if c &&& 0xf0 = 0xe0 then
            match rest' with
            | [] => []
            | e :: rest'' =>
              unit (c.toNat % 16 * 4096 + d.toNat % 64 * 64 + e.toNat % 64) ++
                utf8ToUcs2be max rest'' (no + 2)
          else unit 63 ++ utf8ToUcs2be max (d :: rest') (no + 2)
    else []

/-- Big-endian UTF-16 to UTF-8, into a buffer of `max`. -/
def ucs2beToUtf8 (max : Nat) : Bytes → Bytes → Bytes
  | hi :: lo :: rest, out =>
    if out.length + 3 < max then
      let c := hi.toNat * 256 + lo.toNat
      let text :=
        if c < 0x80 then [UInt8.ofNat c]
        else if c < 0x800 then [UInt8.ofNat (0xc0 + c / 64), UInt8.ofNat (0x80 + c % 64)]
        else [UInt8.ofNat (0xe0 + c / 4096), UInt8.ofNat (0x80 + c / 64 % 64),
          UInt8.ofNat (0x80 + c % 64)]
      ucs2beToUtf8 max rest (out ++ text)
    else out
  | _, out => out

def hexValue (c : UInt8) : Option Nat :=
  if 48 ≤ c ∧ c ≤ 57 then some (c.toNat - 48)
  else if 97 ≤ c ∧ c ≤ 102 then some (c.toNat - 87)
  else if 65 ≤ c ∧ c ≤ 70 then some (c.toNat - 55)
  else none

/-- Octets from hex digits; what is no digit is skipped, a missing second digit is `f`. -/
def hexNibbles (max : Nat) : Bytes → Bytes → Bytes
  | [], out => out
  | c :: rest, out =>
    if out.length < max then
      match hexValue c with
      | none => hexNibbles max rest out
      | some hi =>
        match rest with
        | [] => out ++ [UInt8.ofNat (hi * 16 + 15)]
        | d :: rest' => hexNibbles max rest' (out ++ [UInt8.ofNat (hi * 16 + (hexValue d).getD 15)])
    else out

/-- Digits to swapped semi-octets. -/
def digitsToSemi (max : Nat) : Bytes → Bytes → Bytes
  | [], out => out
  | c :: rest, out =>
    if out.length < max then
      match rest with
      | d :: rest' =>
        if isDigit 10 d then digitsToSemi max rest' (out ++ [((d - 48) <<< 4) ||| (c - 48)])
        else digitsToSemi max (d :: rest') (out ++ [0xf0 ||| (c - 48)])
      | [] => out ++ [0xf0 ||| (c - 48)]
    else out

/-- Swapped semi-octets to digits, into a buffer of `max`. -/
def semiToDigits (max : Nat) : Bytes → Bytes → Bytes
  | [], out => out
  | b :: rest, out =>
    if out.length + 2 < max then
      let lo := if b.toNat % 16 < 10 then [UInt8.ofNat (48 + b.toNat % 16)] else []
      let hi := if b.toNat / 16 < 10 then [UInt8.ofNat (48 + b.toNat / 16)] else []
      semiToDigits max rest (out ++ lo ++ hi)
    else out

/-- A whole SMS-DELIVER as hex digits, and the octets without the service center's address. -/
def smsBuildDeliver (host : Host) (m : Modem) (number text : Bytes) : Option (Bytes × Nat) := do
  let ucs2 := !gsm7Encodable text
  guard (number.length ≤ 20)
  let semi := digitsToSemi 10 m.sca []
  let sca := if m.sca ≠ [] then [UInt8.ofNat (1 + semi.length), 0x91] ++ semi else [0]
  let head := sca ++ [0x04, UInt8.ofNat number.length, 0x91]
  let head := head ++ digitsToSemi (196 - head.length) number []
  let head := head ++ [0x00, if ucs2 then 0x08 else 0x00] ++ host.scts (m.nowMs + m.wallOffsetMs)
  let user ← if ucs2 then do
      let ud := utf8ToUcs2be 320 text 0
      guard (ud.length ≤ 140)
      some (UInt8.ofNat ud.length :: ud)
    else do
      let (ud, nsept) := gsm7Pack text 180
      guard (nsept ≤ 160 ∧ ud.length ≤ 140)
      some (UInt8.ofNat nsept :: ud)
  let oct := head ++ user
  guard (2 * oct.length + 1 ≤ 400)
  return (bytesToHex oct, oct.length - if m.sca ≠ [] then 2 + semi.length else 1)

/-- What the guest sends with `+CMGS` is recorded. -/
def smsParseSubmit (m : Modem) (p : Bytes) : Modem :=
  let n := p.length
  let octet (i : Nat) : Nat := (p.getD i 0).toNat
  let pos := 1 + octet 0
  if n < 5 ∨ n ≤ pos + 3 then m
  else
    let vp := if octet pos / 8 % 4 = 2 then 1 else 0
    let dlen := octet (pos + 2)
    let da := pos + 4
    let pos := da + (dlen + 1) / 2
    if n ≤ pos + 2 + vp then m
    else
      let num := semiToDigits 32 ((p.drop da).take ((dlen + 1) / 2)) []
      let dcs := octet (pos + 1)
      let udl := octet (pos + 2 + vp)
      let ud := p.drop (pos + 3 + vp)
      let text :=
        if dcs / 4 % 4 = 0 then gsm7Unpack ud (min udl (ud.length * 8 / 7)) 512
        else if dcs / 4 % 4 = 1 then ud.take (min udl 511)
        else ucs2beToUtf8 512 (ud.take udl) []
      { m with lastMoNum := num, lastMoText := text, moCount := m.moCount + 1 }

def Modem.setChan (m : Modem) (ch : Nat) (c : AtChan) : Modem :=
  { m with chans := Function.update m.chans ch c }

/-- The end of a `+CMGS` prompt: the PDU is the C string in the line buffer. -/
def cmgsPromptCommit (m : Modem) (ch : Nat) (send : Bool) : Out :=
  let c := m.chans ch
  let m := m.setChan ch { c with smsPrompt := false, line := c.line.clear }
  if !send then (m, [atError ch])
  else
    let m := smsParseSubmit m (hexNibbles 220 (c.line.cstrFrom 0) [])
    let m := { m with smsMr := (m.smsMr + 1) % 256 }
    (m, [urc ch (ascii "+CMGS: " ++ natDecimal m.smsMr), atOk ch])

def smsSenderOk (number : Bytes) : Bool :=
  let number := bareNumber number
  number ≠ [] && number.length ≤ 20 && number.all (isDigit 10)

/-- `ios_bb_incoming_sms`: the report and the stored message, or nothing if it is refused. -/
def incomingSms (host : Host) (m : Modem) (number text : Bytes) : Option Out := do
  guard (m.isOpen m.smsCh ∧ serviceOk m ∧ smsSenderOk number ∧ text ≠ [])
  let number := bareNumber number
  let (pdu, tpdu) ← smsBuildDeliver host m number text
  let slot : SmsSlot := { used := true, num := number.take 31, pdu := pdu.take 399 }
  let m := { m with
    store := Function.update m.store (m.storeNext % smsStore) slot, storeNext := m.storeNext + 1 }
  return (m, [chanPrintf m.smsCh (crlf (ascii "+CMT: ," ++ natDecimal tpdu) ++ crlf pdu)])

end QemuIos.Baseband

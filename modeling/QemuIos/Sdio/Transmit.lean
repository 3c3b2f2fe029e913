import QemuIos.Lib.CText

/-!
# Frames the guest transmits

A frame written on function 2 carries an 802.3 frame behind an SDPCM header and a BDC header.
How long the BDC header is goes with the CDC header of the driver's control commands;
`sdio_tx_data` does not ask and takes the first offset that leaves a known ethertype.
-/

namespace QemuIos.Sdio
open CText List

/-- The CDC header latched by `cdc_hdrlen`, twelve bytes or sixteen with a status word. -/
inductive CdcForm where
  | plain
  | status
  deriving DecidableEq, Repr

/-- What transmitting reads of `IPodTouchSDIOState`. -/
structure State where
  form : Option CdcForm := none
  toe : UInt32 := 0
  toeOl : UInt32 := 0
  nic : Bool := true

/-- The headers moved together: with the status word goes a BDC header of four bytes, six is the
default. -/
def State.sdioBdcHdrlen (s : State) : Nat :=
  match s.form with
  | some .status => 4
  | _ => 6

def lduwLe (bytes : Bytes) (i : Nat) : Nat :=
  (bytes.getD i 0).toNat + 256 * (bytes.getD (i + 1) 0).toNat

def lduwBe (bytes : Bytes) (i : Nat) : Nat :=
  256 * (bytes.getD i 0).toNat + (bytes.getD (i + 1) 0).toNat

def sdpcmHdrlen : Nat := 12
def sdpcmDataChannel : UInt8 := 2

/-- The payload `sdpcm_receive` hands to `sdio_tx_data`: a tag and its complement, the data
channel, and an offset inside the frame. -/
def sdpcmData (buf : Bytes) : Option Bytes :=
  let framelen := lduwLe buf 0
  let doff := (buf.getD 7 0).toNat
  if buf.length < sdpcmHdrlen then none
  else if framelen ^^^ lduwLe buf 2 ≠ 0xffff then none
  else if doff < sdpcmHdrlen ∨ framelen < doff ∨ buf.length < framelen then none
  else if buf.getD 5 0 &&& 0x0f = sdpcmDataChannel then some ((buf.take framelen).drop doff)
  else none

/-- ARP, IPv4, IPv6 and EAPOL. -/
def knownType (et : Nat) : Bool := et = 0x0806 || et = 0x0800 || et = 0x86dd || et = 0x888e

/-- The offset leaves an Ethernet header with a known type. -/
def leavesHeader (payload : Bytes) (off : Nat) : Bool :=
  off + 14 ≤ payload.length && knownType (lduwBe payload (off + 12))

/-- Where the frame starts: one of the candidates, or behind the header as `dataOffset` has it. -/
def chosen (payload : Bytes) : Nat :=
  (([4, 6, 8].find? (leavesHeader payload)).getD
    (min (4 + 4 * (payload.getD 3 0).toNat) (payload.length - 14)))

/-- `sdio_tx_data`: what goes to the network backend, with the checksums filled in by
`net_checksum_calculate` if the driver left them to the dongle. -/
def State.sdioTxData (s : State) (checksum : Bytes → Bytes) (payload : Bytes) : Option Bytes :=
  let frame := payload.drop (chosen payload)
  if payload.length < 4 + 14 then none
  else if !s.nic then none
  else if s.toe ≠ 0 ∧ s.toeOl &&& 1 ≠ 0 then some (checksum frame)
  else some frame

/-- The data branch of `sdpcm_receive`. -/
def State.sdpcmReceive (s : State) (checksum : Bytes → Bytes) (buf : Bytes) : Option Bytes :=
  (sdpcmData buf).bind (s.sdioTxData checksum)

theorem lduwBe_append (hdr eth : Bytes) (i : Nat) :
    lduwBe (hdr ++ eth) (hdr.length + i) = lduwBe eth i := by
  simp [lduwBe, getD_eq_getElem?_getD, Nat.add_assoc, getElem?_append_right]

/-- Behind its own header a frame of a known type is found. -/
theorem leavesHeader_append {hdr eth : Bytes} (long : 14 ≤ eth.length)
    (known : knownType (lduwBe eth 12) = true) : leavesHeader (hdr ++ eth) hdr.length = true := by
  simp [leavesHeader, lduwBe_append, known, long]

/-- Two bytes early the end of the source address is taken for the type. -/
theorem leavesHeader_early {hdr eth : Bytes} (six : hdr.length = 6) (long : 14 ≤ eth.length) :
    leavesHeader (hdr ++ eth) 4 = knownType (lduwBe eth 10) := by
  have type : lduwBe (hdr ++ eth) (4 + 12) = lduwBe eth 10 := by
    rw [← lduwBe_append hdr eth 10, six]
  simp only [leavesHeader, type, length_append, six]
  simp
  omega

/-- A six-byte header is found unless the frame seems to start two bytes before its end. -/
theorem chosen_six {hdr eth : Bytes} (six : hdr.length = 6) (long : 14 ≤ eth.length)
    (known : knownType (lduwBe eth 12) = true) :
    chosen (hdr ++ eth) = if knownType (lduwBe eth 10) then 4 else 6 := by
  have own : leavesHeader (hdr ++ eth) 6 = true := six ▸ leavesHeader_append long known
  unfold chosen
  rw [find?_cons, leavesHeader_early six long, find?_cons, own]
  cases knownType (lduwBe eth 10) with
  | true => rfl
  | false => rfl

theorem chosen_four {hdr eth : Bytes} (four : hdr.length = 4) (long : 14 ≤ eth.length)
    (known : knownType (lduwBe eth 12) = true) : chosen (hdr ++ eth) = 4 := by
  have own : leavesHeader (hdr ++ eth) 4 = true := four ▸ leavesHeader_append long known
  simp [chosen, own]

/-- A frame of a known type behind the BDC header of the latched form reaches the backend as it is
exactly if that header has four bytes or the source address does not end in a known type. -/
theorem transmitted_exact_iff (s : State) (checksum : Bytes → Bytes) (buf hdr eth : Bytes)
    (framed : sdpcmData buf = some (hdr ++ eth)) (header : hdr.length = s.sdioBdcHdrlen)
    (long : 14 ≤ eth.length) (known : knownType (lduwBe eth 12) = true)
    (attached : s.nic = true) (offloadOff : ¬ (s.toe ≠ 0 ∧ s.toeOl &&& 1 ≠ 0)) :
    s.sdpcmReceive checksum buf = some eth ↔
      s.form = some .status ∨ knownType (lduwBe eth 10) = false := by
  have sent : s.sdpcmReceive checksum buf = some ((hdr ++ eth).drop (chosen (hdr ++ eth))) := by
    have whole : ¬ (hdr ++ eth).length < 4 + 14 := by
      have four : 4 ≤ s.sdioBdcHdrlen := by
        unfold State.sdioBdcHdrlen
        split <;> decide
      rw [length_append]
      omega
    simp only [State.sdpcmReceive, framed, Option.bind_some, State.sdioTxData, if_neg whole,
      attached, Bool.not_true, Bool.false_eq_true, if_false, if_neg offloadOff]
  rw [sent, Option.some_inj]
  by_cases std : s.form = some .status
  · have four : hdr.length = 4 := by rw [header, State.sdioBdcHdrlen, std]
    have start : chosen (hdr ++ eth) = hdr.length := by rw [chosen_four four long known, four]
    simp [start, std]
  have six : hdr.length = 6 := by
    rw [header, State.sdioBdcHdrlen]
    split
    · next latched => exact absurd latched std
    · rfl
  rw [chosen_six six long known]
  cases early : knownType (lduwBe eth 10) with
  | false => simp [← six]
  | true =>
    -- two bytes of the header go out in front of the frame
    have longer : ((hdr ++ eth).drop 4).length ≠ eth.length := by
      rw [length_drop, length_append, six]
      omega
    simp only [std, if_true, false_or, Bool.true_eq_false, iff_false]
    intro same
    exact longer (congrArg length same)

/-- An SDPCM frame on the data channel around a payload shorter than 244 bytes. -/
def dataFrame (payload : Bytes) : Bytes :=
  let len := UInt8.ofNat (12 + payload.length)
  [len, 0, ~~~len, 0xff, 0, 2, 0, 12, 0, 0, 0, 0] ++ payload

/-- An ARP frame from a source address with these last two bytes. -/
def arpFrom (a b : UInt8) : Bytes :=
  replicate 6 0xff ++ [0x00, 0x21, 0xe9, 0x34, a, b, 0x08, 0x06] ++ replicate 28 0

theorem arp_transmitted :
    ({ form := some .plain } : State).sdpcmReceive id
      (dataFrame ([0x20, 0, 0, 0, 0, 0] ++ arpFrom 0x12 0x34)) = some (arpFrom 0x12 0x34) :=
  (transmitted_exact_iff { form := some .plain } id _ [0x20, 0, 0, 0, 0, 0] (arpFrom 0x12 0x34)
    (by decide) rfl (by decide) (by decide) rfl (by decide)).mpr (.inr (by decide))

/-- From an address that ends in 08:00 it goes out behind two bytes of its BDC header. -/
theorem arp_shifted :
    ({ form := some .plain } : State).sdpcmReceive id
      (dataFrame ([0x20, 0, 0, 0, 0, 0] ++ arpFrom 0x08 0x00)) =
        some ([0, 0] ++ arpFrom 0x08 0x00) := by
  decide

end QemuIos.Sdio

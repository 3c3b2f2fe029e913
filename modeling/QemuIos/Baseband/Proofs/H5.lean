import QemuIos.Baseband.H5

/-!
# The packets of the H5 link

What `h5_send_pkt` builds is what `h5_rx_pkt` reads: the bit fields of the header, the check
sums and the payload.
-/

namespace QemuIos.Baseband
open CText List UInt8 H5Buf Nat

/-! ## Bit fields -/

/-- The first header byte holds the two sequence numbers and the two flags. -/
theorem header_byte0 (seq ack : Fin 8) (crc reliable : Bool) :
    let p0 := ofNat seq ||| (ofNat ack <<< 3) ||| (ofNat crc.toNat <<< 6) |||
      (ofNat reliable.toNat <<< 7)
    Fin.ofNat 8 p0.toNat = seq ∧ Fin.ofNat 8 (p0.toNat / 8) = ack ∧
      decide (p0 &&& 0x40 ≠ 0) = crc ∧ decide (p0 &&& 0x80 ≠ 0) = reliable := by
  revert seq ack crc reliable
  decide

/-- The second holds the type and the low digit of the length. -/
theorem header_byte1 (type digit : Fin 16) :
    let p1 := ofNat type ||| (ofNat digit <<< 4)
    Fin.ofNat 16 p1.toNat = type ∧ p1.toNat / 16 = digit := by
  revert type digit
  decide

theorem uint16_of_halves (c : UInt16) :
    ((c >>> 8).toUInt8.toUInt16 <<< 8) ||| c.toUInt8.toUInt16 = c := by
  apply UInt16.toNat_inj.mp
  have small := c.toNat_lt
  have low : c.toNat % 256 < 2 ^ 8 := mod_lt _ (by decide)
  have high : ((c.toNat >>> 8) % 256) <<< 8 % 65536 = (c.toNat / 256) <<< 8 := by
    rw [shiftRight_eq_div_pow, shiftLeft_eq, shiftLeft_eq]
    omega
  have parts : ((c >>> 8).toUInt8.toUInt16 <<< 8 ||| c.toUInt8.toUInt16).toNat =
      ((c.toNat >>> 8) % 256) <<< 8 % 65536 ||| c.toNat % 256 := by
    simp
  rw [parts, high, ← shiftLeft_add_eq_or_of_lt low, shiftLeft_eq]
  omega

/-! ## A packet read back -/

/-- A received buffer passes the checks and carries these fields. -/
structure H5Buf.Carries (b : H5Buf) (type : Fin 16) (reliable : Bool) (seq ack : Fin 8)
    (data : Bytes) : Prop where
  ok : H5Buf.ok b = true
  type : H5Buf.type b = type
  reliable : H5Buf.reliable b = reliable
  seq : H5Buf.seq b = seq
  ack : H5Buf.ack b = ack
  payload : H5Buf.payload b = data

theorem length_h5Header (type : Fin 16) (reliable crc : Bool) (seq ack : Fin 8) (len : Nat) :
    (h5Header type reliable crc seq ack len).length = 4 := rfl

theorem length_h5Packet (type : Fin 16) (reliable crc : Bool) (seq ack : Fin 8) (data : Bytes) :
    (h5Packet type reliable crc seq ack data).length = 4 + data.length + 2 * crc.toNat := by
  have header := length_h5Header type reliable crc seq ack data.length
  unfold h5Header at header
  unfold h5Packet packetOf
  cases crc
  · simp [header]
  · simp [header, add_assoc]

/-- The bytes of a stretch of the buffer. -/
theorem range_map_data {cap : Nat} {b : Buf cap} (before part after : Bytes)
    (whole : b.contents = before ++ part ++ after) :
    (range part.length).map (fun i => b.data (before.length + i)) = part := by
  have size : b.len = before.length + part.length + after.length := by
    rw [← Buf.length_contents, whole, length_append, length_append]
  apply ext_getElem
  · simp
  · intro i left right
    rw [getElem_map, getElem_range, Buf.data_eq b (by omega), whole,
      getD_eq_getElem?_getD, append_assoc, getElem?_append_right (by omega),
      getElem?_append_left (by omega)]
    simp [right]

theorem header_fields {b : H5Buf} {type : Fin 16} {reliable crc : Bool} {seq ack : Fin 8}
    {len : Nat} {rest : Bytes} (small : len < 4096)
    (whole : b.contents = h5Header type reliable crc seq ack len ++ rest) :
    H5Buf.headerOk b = true ∧ H5Buf.type b = type ∧ H5Buf.reliable b = reliable ∧
      H5Buf.seq b = seq ∧ H5Buf.ack b = ack ∧ H5Buf.hasCrc b = crc ∧ H5Buf.payloadLen b = len := by
  have size : b.len = 4 + rest.length := by
    rw [← Buf.length_contents, whole, length_append, length_h5Header]
  obtain ⟨isSeq, isAck, isCrc, isReliable⟩ := header_byte0 seq ack crc reliable
  obtain ⟨isType, isDigit⟩ := header_byte1 type ⟨len % 16, mod_lt _ (by decide)⟩
  have byte0 := b.data_eq (i := 0) (by omega)
  have byte1 := b.data_eq (i := 1) (by omega)
  have byte2 := b.data_eq (i := 2) (by omega)
  have byte3 := b.data_eq (i := 3) (by omega)
  rw [whole] at byte0 byte1 byte2 byte3
  simp only [h5Header, headerOf, cons_append, getD_cons_zero, getD_cons_succ]
    at byte0 byte1 byte2 byte3
  have high : (ofNat (len / 16)).toNat = len / 16 := by
    rw [toNat_ofNat']
    omega
  refine ⟨?_, ?_, ?_, ?_, ?_, ?_, ?_⟩
  · unfold headerOk
    rw [byte0, byte1, byte2, byte3, size]
    simp
  · rw [H5Buf.type, byte1]
    exact isType
  · rw [H5Buf.reliable, byte0]
    exact isReliable
  · rw [H5Buf.seq, byte0]
    exact isSeq
  · rw [H5Buf.ack, byte0]
    exact isAck
  · rw [H5Buf.hasCrc, byte0]
    exact isCrc
  · rw [payloadLen, byte1, byte2, high, isDigit]
    exact mod_add_div' len 16

/-- Every packet `h5_send_pkt` builds passes the checks of `h5_rx_pkt`, which reads back what
was sent. -/
theorem carries_h5Packet {b : H5Buf} {type : Fin 16} {reliable crc : Bool} {seq ack : Fin 8}
    {data : Bytes} (small : data.length ≤ h5MaxPayload)
    (whole : b.contents = h5Packet type reliable crc seq ack data) :
    b.Carries type reliable seq ack data := by
  replace small : data.length ≤ 1024 := small
  have length : b.len = 4 + data.length + 2 * crc.toNat := by
    rw [← Buf.length_contents, whole, length_h5Packet]
  obtain ⟨tail, parts⟩ : ∃ tail, h5Packet type reliable crc seq ack data =
      h5Header type reliable crc seq ack data.length ++ data ++ tail := by
    cases crc
    · exact ⟨[], (append_nil _).symm⟩
    · exact ⟨_, rfl⟩
  have whole' := whole.trans parts
  have fields := header_fields (by omega) (whole'.trans (append_assoc _ _ _))
  obtain ⟨headerOk, isType, isReliable, isSeq, isAck, isCrc, isLen⟩ := fields
  have payload : payload b = data := by
    rw [payload, isLen]
    exact range_map_data (h5Header type reliable crc seq ack data.length) data tail whole'
  refine ⟨?_, isType, isReliable, isSeq, isAck, payload⟩
  have lengthOk : lengthOk b = true := by
    unfold lengthOk
    rw [isLen, isCrc, length]
    simp
    omega
  have crcOk : crcOk b = true := by
    unfold crcOk
    rw [isCrc, isLen]
    cases crc with
    | false => rfl
    | true =>
      have covered : H5Buf.covered b =
          h5Header type reliable true seq ack data.length ++ data := by
        have part := range_map_data []
          (h5Header type reliable true seq ack data.length ++ data) tail whole'
        rw [H5Buf.covered, isLen]
        simpa [length_h5Header] using part
      have size : (H5Buf.covered b).length = 4 + data.length := by
        rw [covered, length_append, length_h5Header]
      have ends : b.contents = H5Buf.covered b ++
          [(h5Crc (H5Buf.covered b) >>> 8).toUInt8, (h5Crc (H5Buf.covered b)).toUInt8] := by
        rw [whole, covered]
        rfl
      have highByte : b.data (4 + data.length) = (h5Crc (H5Buf.covered b) >>> 8).toUInt8 := by
        rw [b.data_eq (by rw [length]; simp), ends, getD_append_right _ _ _ _ (by omega), size]
        simp
      have lowByte : b.data (5 + data.length) = (h5Crc (H5Buf.covered b)).toUInt8 := by
        rw [b.data_eq (by rw [length]; simp; omega), ends,
          getD_append_right _ _ _ _ (by omega), size,
          show 5 + data.length - (4 + data.length) = 1 by omega]
        rfl
      simp only [Bool.not_true, Bool.false_or, highByte, lowByte, uint16_of_halves]
      simp
  rw [ok, headerOk, lengthOk, crcOk]
  rfl

/-! ## The pump -/

/-- What sending a queued payload keeps, the loop of `h5_pump` keeps. -/
theorem Link.h5PumpFrom_keep {p : Link → Prop} {now : Int}
    (send : ∀ l data rest, p l → p (h5SendOneUnacked { l with txq := rest } now data)) (left : Nat)
    {l : Link} (first : p l) : p (h5PumpFrom now left l) := by
  induction left generalizing l with
  | zero => exact first
  | succ left ih =>
    unfold h5PumpFrom
    split
    · dsimp only
      split
      · exact first
      · exact ih (send l _ _ first)
    · exact first

end QemuIos.Baseband

import QemuIos.Baseband.Core

/-!
# Raw IP is cut into its packets

A data channel carries IPv4 packets back to back, in pieces that need not line up with them.
Whatever the pieces, the buffer holds a packet that has begun and has not ended, and the network has
had all those before it.
-/

namespace QemuIos.Baseband.Core

open CText List Nat

variable {buf later p data : Bytes} {packets : List Bytes} {fuel : Nat} {c : Core}

/-- An IPv4 packet: version 4, and the total length it states is its own. -/
structure Ipv4 (p : Bytes) : Prop where
  version : (p.getD 0 0).toNat / 16 = 4
  total : (p.getD 2 0).toNat * 256 + (p.getD 3 0).toNat = p.length
  header : 20 ≤ p.length
  fits : p.length ≤ ipRxSize

/-- The buffer holds less than the next packet. -/
def Begun (buf : Bytes) : List Bytes → Prop
  | [] => buf = []
  | p :: _ => buf.length < p.length

/-- The two streams agree where both have bytes. -/
theorem getD_of_append_eq {rest : Bytes} (same : buf ++ later = p ++ rest) {i : Nat}
    (inBuf : i < buf.length) (inPacket : i < p.length) : buf.getD i 0 = p.getD i 0 := by
  have byte := congrArg (·[i]?) same
  simp only [getElem?_append_left inBuf, getElem?_append_left inPacket] at byte
  rw [getD_eq_getElem?_getD, getD_eq_getElem?_getD, byte]

theorem ipPackets_begun {rest : Bytes} (valid : Ipv4 p) (same : buf ++ later = p ++ rest)
    (short : buf.length < p.length) (fuel : Nat) : ipPackets fuel buf = ([], buf) := by
  cases fuel with
  | zero => rfl
  | succ fuel =>
    unfold ipPackets
    by_cases tiny : buf.length < 20
    · rw [if_pos tiny]
    have byte : ∀ i < 20, buf.getD i 0 = p.getD i 0 := fun i inHeader =>
      getD_of_append_eq same (by omega) (by omega)
    have version := valid.version
    have total := valid.total
    have header := valid.header
    have fits := valid.fits
    simp only [byte 0 (by decide), byte 2 (by decide), byte 3 (by decide)]
    rw [if_neg tiny, if_neg (by omega), if_pos (by omega)]

/-- A whole packet at the front is taken off. -/
theorem ipPackets_cons (valid : Ipv4 p) :
    ipPackets (fuel + 1) (p ++ buf) = (p :: (ipPackets fuel buf).1, (ipPackets fuel buf).2) := by
  have byte : ∀ i < 20, (p ++ buf).getD i 0 = p.getD i 0 := fun i inHeader =>
    getD_of_append_eq (append_nil _) (by have := valid.header; rw [length_append]; omega)
      (by have := valid.header; omega)
  have version := valid.version
  have total := valid.total
  have header := valid.header
  have fits := valid.fits
  rw [ipPackets]
  simp only [byte 0 (by decide), byte 2 (by decide), byte 3 (by decide), length_append]
  rw [if_neg (by omega), if_neg (by omega), if_neg (by omega), total, drop_left, take_left]

/-- The buffer gives up its whole packets and keeps the one that has begun. -/
theorem ipPackets_split (valid : ∀ p ∈ packets, Ipv4 p) (enough : buf.length ≤ fuel)
    (same : buf ++ later = packets.flatten) :
    ∃ done rest, packets = done ++ rest ∧ (ipPackets fuel buf).1 = done ∧
      (ipPackets fuel buf).2 ++ later = rest.flatten ∧ Begun (ipPackets fuel buf).2 rest := by
  induction packets generalizing buf fuel with
  | nil =>
    obtain ⟨rfl, rfl⟩ := append_eq_nil_iff.mp same
    have empty : ipPackets fuel [] = ([], []) := by cases fuel <;> simp [ipPackets]
    exact ⟨[], [], rfl, by rw [empty], by rw [empty]; rfl, by rw [empty]; rfl⟩
  | cons p packets ih =>
    have first := valid p mem_cons_self
    by_cases short : buf.length < p.length
    · have begun := ipPackets_begun first same short fuel
      exact ⟨[], p :: packets, rfl, by rw [begun], by rw [begun]; exact same,
        by rw [begun]; exact short⟩
    obtain ⟨more, rfl⟩ : p <+: buf :=
      prefix_of_prefix_length_le ⟨packets.flatten, rfl⟩ ⟨later, same⟩ (by omega)
    rw [flatten_cons, append_assoc] at same
    have header := first.header
    rw [length_append] at enough
    obtain ⟨fuel, rfl⟩ : ∃ n, fuel = n + 1 := ⟨fuel - 1, by omega⟩
    obtain ⟨done, rest, rfl, cut, stream, begun⟩ :=
      ih (fun q inside => valid q (mem_cons_of_mem _ inside)) (show more.length ≤ fuel by omega)
        (append_cancel_left same)
    rw [ipPackets_cons first]
    exact ⟨p :: done, rest, rfl, by rw [cut], stream, begun⟩

/-- What `data_chan_input` leaves in the buffer never fills it. -/
theorem ipPackets_length (enough : buf.length ≤ fuel) (fits : buf.length ≤ ipRxSize) :
    (ipPackets fuel buf).2.length < ipRxSize := by
  induction fuel generalizing buf with
  | zero =>
    rw [length_eq_zero_iff.mp (le_zero.mp enough)]
    decide
  | succ fuel ih =>
    unfold ipPackets
    dsimp only
    split_ifs with tiny bad short
    · exact tiny.trans (by decide)
    · decide
    · show buf.length < ipRxSize
      omega
    · exact ih (by rw [length_drop]; omega) (by rw [length_drop]; omega)

/-- Once round the loop of `data_chan_input`. -/
def fill (c : Core) (data : Bytes) : Core :=
  let buf := c.ipRx ++ data.take (ipRxSize - c.ipRx.length)
  { c with
    ipRx := (ipPackets buf.length buf).2
    net := if c.modem.dataOut then c.net ++ (ipPackets buf.length buf).1 else c.net }

theorem dataChanFrom_succ (more : data ≠ []) :
    dataChanFrom (fuel + 1) c data =
      dataChanFrom fuel (c.fill data) (data.drop (ipRxSize - c.ipRx.length)) := by
  rw [dataChanFrom, if_neg more]
  rfl

theorem fill_room (c : Core) (data : Bytes) (room : c.ipRx.length < ipRxSize) :
    (c.fill data).ipRx.length < ipRxSize := by
  refine ipPackets_length le_rfl ?_
  rw [length_append, length_take]
  omega

/-- The loop ends when the data is used up, with room in the buffer. -/
theorem dataChanFrom_ends {fuel' : Nat} (enough : data.length < fuel)
    (enough' : data.length < fuel') (room : c.ipRx.length < ipRxSize) :
    dataChanFrom fuel c data = dataChanFrom fuel' c data ∧
      (dataChanFrom fuel c data).ipRx.length < ipRxSize := by
  induction fuel generalizing fuel' c data with
  | zero => omega
  | succ fuel ih =>
    obtain ⟨fuel', rfl⟩ : ∃ n, fuel' = n + 1 := ⟨fuel' - 1, by omega⟩
    by_cases empty : data = []
    · simpa [dataChanFrom, empty] using room
    · have nonempty := length_pos_of_ne_nil empty
      rw [dataChanFrom_succ empty, dataChanFrom_succ empty]
      exact ih (by rw [length_drop]; omega) (by rw [length_drop]; omega) (c.fill_room data room)

/-- Packets go through a call to the network, and the buffer keeps the one that has begun. -/
theorem dataChanFrom_packets (enough : data.length < fuel) (listens : c.modem.dataOut = true)
    (valid : ∀ p ∈ packets, Ipv4 p) (begun : Begun c.ipRx packets)
    (room : c.ipRx.length < ipRxSize) (same : c.ipRx ++ data ++ later = packets.flatten) :
    ∃ done rest, packets = done ++ rest ∧ (dataChanFrom fuel c data).net = c.net ++ done ∧
      (dataChanFrom fuel c data).modem = c.modem ∧
      (dataChanFrom fuel c data).ipRx ++ later = rest.flatten ∧
      Begun (dataChanFrom fuel c data).ipRx rest := by
  induction fuel generalizing c data packets with
  | zero => omega
  | succ fuel ih =>
    by_cases empty : data = []
    · subst empty
      simp only [dataChanFrom, if_true]
      exact ⟨[], packets, rfl, (append_nil _).symm, trivial, by simpa using same, begun⟩
    have nonempty := length_pos_of_ne_nil empty
    rw [dataChanFrom_succ empty]
    -- The piece that fits goes into the buffer; the rest of the call comes later.
    generalize cut : ipRxSize - c.ipRx.length = n
    have stream : (c.ipRx ++ data.take n) ++ (data.drop n ++ later) = packets.flatten := by
      rw [← same, append_assoc, append_assoc, ← append_assoc (data.take n), take_append_drop]
    obtain ⟨done, rest, rfl, packets', left, begun'⟩ := ipPackets_split valid le_rfl stream
    have filled : (c.fill data).net = c.net ++ done := by
      simp only [fill, listens, if_true, cut, packets']
    have kept : (c.fill data).ipRx =
        (ipPackets (c.ipRx ++ data.take n).length (c.ipRx ++ data.take n)).2 := by
      simp only [fill, cut]
    rw [← kept] at left begun'
    obtain ⟨done', rest', rfl, net, modem, stream', begun''⟩ :=
      ih (c := c.fill data) (show (data.drop n).length < fuel by rw [length_drop]; omega) listens
        (fun p inside => valid p (mem_append_right _ inside)) begun' (c.fill_room data room)
        (by rwa [append_assoc])
    refine ⟨done ++ done', rest', (append_assoc ..).symm, ?_, modem, stream', begun''⟩
    rw [net, filled, append_assoc]

/-- Packets cut into calls in any way reach the network as they are, and nothing is left. -/
theorem dataChanInput_packets {chunks : List Bytes} (listens : c.modem.dataOut = true)
    (valid : ∀ p ∈ packets, Ipv4 p) (begun : Begun c.ipRx packets)
    (room : c.ipRx.length < ipRxSize) (same : c.ipRx ++ chunks.flatten = packets.flatten) :
    (chunks.foldl dataChanInput c).net = c.net ++ packets ∧
      (chunks.foldl dataChanInput c).ipRx = [] := by
  induction chunks generalizing c packets with
  | nil =>
    rw [flatten_nil, append_nil] at same
    cases packets with
    | nil => exact ⟨(append_nil _).symm, begun⟩
    | cons p packets =>
      have short : c.ipRx.length < p.length := begun
      rw [same, flatten_cons, length_append] at short
      omega
  | cons data chunks ih =>
    rw [flatten_cons, ← append_assoc] at same
    obtain ⟨done, rest, rfl, net, modem, left, begun'⟩ :=
      dataChanFrom_packets (lt_succ_self data.length) listens valid begun room same
    have room' := (dataChanFrom_ends (lt_succ_self data.length) (lt_succ_self data.length)
      room).2
    obtain ⟨net', empty⟩ :=
      ih (c := c.dataChanInput data) ((congrArg Modem.dataOut modem).trans listens)
      (fun p inside => valid p (mem_append_right _ inside)) begun' room' left
    refine ⟨?_, empty⟩
    rw [foldl_cons, net', show (c.dataChanInput data).net = _ from net, append_assoc]

/-- Packets that come in any number of calls, cut anywhere, reach the network in order and leave the
buffer empty. And whatever comes, a call uses it up, with however many turns of its loop, and leaves
room in the buffer. -/
theorem raw_ip_reassembled (c : Core) :
    (∀ packets chunks : List Bytes, (∀ p ∈ packets, Ipv4 p) → chunks.flatten = packets.flatten →
      c.ipRx = [] → c.modem.dataOut = true →
      (chunks.foldl dataChanInput c).net = c.net ++ packets ∧
        (chunks.foldl dataChanInput c).ipRx = []) ∧
    ∀ data fuel, c.ipRx.length < ipRxSize → data.length < fuel →
      dataChanFrom fuel c data = c.dataChanInput data ∧
        (c.dataChanInput data).ipRx.length < ipRxSize := by
  refine ⟨?_, ?_⟩
  · intro packets chunks valid same empty listens
    have begun : Begun c.ipRx packets := by
      cases packets with
      | nil => exact empty
      | cons p packets =>
        have header := (valid p mem_cons_self).header
        show c.ipRx.length < p.length
        rw [empty]
        exact lt_of_lt_of_le (by decide) header
    exact dataChanInput_packets listens valid begun (by rw [empty]; decide)
      (by rw [empty]; exact same)
  · intro data fuel room enough
    have ends := dataChanFrom_ends (lt_succ_self data.length) enough room
    exact ⟨ends.1.symm, ends.2⟩

/-- The smallest packet: a header without a body. -/
def bareHeader : Bytes := [0x45, 0, 0, 20] ++ List.replicate 16 0

/-- Two packets in three calls, one of which ends the first packet and begins the second. -/
theorem raw_ip_reassembled_two :
    ([bareHeader.take 7, bareHeader.drop 7 ++ bareHeader.take 1, bareHeader.drop 1].foldl
        dataChanInput (iosBbInit { dataOut := true })).net = [bareHeader, bareHeader] := by
  have valid : Ipv4 bareHeader := ⟨by decide, by decide, by decide, by decide⟩
  exact ((raw_ip_reassembled (iosBbInit { dataOut := true })).1 [bareHeader, bareHeader] _
    (by simp [valid]) (by decide) rfl rfl).1

end QemuIos.Baseband.Core

import QemuIos.Usb.Otg

/-!
# Requests and responses on the wire

However the socket cuts them up, the callback is called once for each request of the byte stream, in
order, and the bytes written are the responses, in order. The stream is taken apart by `requests`,
which knows nothing of the state machine; `respondAll` is what the callback makes of them.
-/

namespace QemuIos.Usb

open List Header Mem Nat

variable {δ : Type*}

variable {h : List UInt8}

/-- The complete requests of a byte stream. -/
def requests (input : List UInt8) : List Request :=
  if input.length < headerBytes then []
  else
    let header := Header.ofMem (.ofList input)
    let rest := input.drop headerBytes
    if rest.length < header.outLen then []
    else ⟨header, rest.take header.outLen⟩ :: requests (rest.drop header.outLen)
termination_by input.length
decreasing_by
  unfold headerBytes at *
  simp only [List.length_drop]
  omega

variable (cb : Callback δ)

/-- The response to a request: a header with the length the callback returns, and the payload of an
IN out of the buffer. -/
def respond (device : δ) (r : Request) : δ × List UInt8 :=
  let reply := cb device r.header (.ofList r.payload)
  let header := { reply.header with length := Int16.ofInt reply.ret }
  (reply.device,
    (List.range headerBytes).map header.byte ++ (List.range header.inLen).map reply.buffer)

/-- The callback's state after all the requests, and the responses to them. -/
def respondAll (device : δ) (rs : List Request) : δ × List UInt8 :=
  rs.foldl (fun acc r => ((respond cb acc.1 r).1, acc.2 ++ (respond cb acc.1 r).2)) (device, [])

/-- The call gets something done, if there is something to do. -/
def Io.serves : Io → Bool
  | .moves _ => true
  | _ => false

/-- None of the calls finds the connection dead. -/
structure Ios.Alive (ios : Ios) : Prop where
  readHeader : ios.readHeader ≠ .dead
  readPayload : ios.readPayload ≠ .dead
  writeHeader : ios.writeHeader ≠ .dead
  writePayload : ios.writePayload ≠ .dead

/-- All of the calls get something done, if there is something to do. -/
structure Ios.Serves (ios : Ios) : Prop where
  readHeader : ios.readHeader.serves = true
  readPayload : ios.readPayload.serves = true
  writeHeader : ios.writeHeader.serves = true
  writePayload : ios.writePayload.serves = true

theorem respondAll_concat (device : δ) (rs : List Request) (r : Request) :
    respondAll cb device (rs ++ [r]) =
      ((respond cb (respondAll cb device rs).1 r).1,
        (respondAll cb device rs).2 ++ (respond cb (respondAll cb device rs).1 r).2) := by
  rw [respondAll, foldl_concat]
  rfl

/-! ## Headers -/

theorem ofMem_ofList_append (whole : h.length = headerBytes) (rest : List UInt8) :
    Header.ofMem (.ofList (h ++ rest)) = Header.ofMem (.ofList h) := by
  have same : ∀ i < headerBytes, ofList (h ++ rest) i = ofList h i := by
    intro i inside
    rw [ofList, ofList, getD_append _ _ _ _ (by omega)]
  simp only [ofMem, half, same 0 (by decide), same 1 (by decide), same 2 (by decide),
    same 3 (by decide), same (3 + 1) (by decide)]

theorem half_byte (h : Header) : half h.byte 3 = h.length.toUInt16.toNat := by
  have small := h.length.toUInt16.toNat_lt
  simp only [half, byte, UInt8.toNat_ofNat']
  omega

/-- A header written to memory is the header read back. -/
theorem ofMem_byte (h : Header) : Header.ofMem h.byte = h := by
  unfold ofMem
  rw [half_byte, UInt16.ofNat_toNat]
  rfl

theorem requests_short {input : List UInt8} (short : input.length < headerBytes) :
    requests input = [] := by
  rw [requests, if_pos short]

theorem requests_cut {p : List UInt8} (whole : h.length = headerBytes)
    (cut : p.length < (Header.ofMem (.ofList h)).outLen) : requests (h ++ p) = [] := by
  have long : ¬ (h ++ p).length < headerBytes := by
    rw [length_append]
    omega
  rw [requests, if_neg long]
  simp only [ofMem_ofList_append whole, ← whole, drop_left, cut, if_true]

theorem requests_cons {p : List UInt8} (whole : h.length = headerBytes)
    (payload : p.length = (Header.ofMem (.ofList h)).outLen) (rest : List UInt8) :
    requests (h ++ (p ++ rest)) = ⟨Header.ofMem (.ofList h), p⟩ :: requests rest := by
  have long : ¬ (h ++ (p ++ rest)).length < headerBytes := by
    rw [length_append]
    omega
  have enough : ¬ (p ++ rest).length < p.length := by
    rw [length_append]
    omega
  rw [requests, if_neg long]
  simp only [ofMem_ofList_append whole, ← whole, drop_left, ← payload, enough, if_false,
    take_left]

/-! ## One call of read or write -/

namespace Conn

variable {c : Conn δ}

/-- What a call of `read` or `write` can come to: nothing, which on a socket that serves means that
there is nothing to do; the end of the connection; or what `went` says. -/
inductive Called (c : Conn δ) (io : Io) (nothing : Prop) (went : Next δ → Prop) : Next δ → Prop
  | waits (why : io.serves = true → nothing) : Called c io nothing went (c, false)
  | dead (isDead : io = .dead) : Called c io nothing went (c.doClosed, false)
  | moved {r : Next δ} (on : went r) : Called c io nothing went r

theorem recv_called (asked : Nat) (io : Io) (store : List UInt8 → Conn δ → Conn δ)
    (done : Conn δ → Bool) :
    Called c io (c.incoming = [] ∨ asked = 0) (fun r => ∃ got rest, c.incoming = got ++ rest ∧
      0 < got.length ∧ got.length ≤ asked ∧ ∃ c', c' = store got { c with
        incoming := rest, amountDone := c.amountDone + got.length } ∧ r = (c', done c'))
      (c.recv asked io store done) := by
  cases io with
  | again => exact .waits nofun
  | dead => exact .dead rfl
  | moves more =>
    have least : moved asked c.incoming.length more =
      min (more + 1) (min asked c.incoming.length) := rfl
    rw [recv]
    split
    · next nothing =>
      refine .waits fun _ => ?_
      rw [← length_eq_zero_iff]
      omega
    · refine .moved ⟨c.incoming.take (moved asked c.incoming.length more),
        c.incoming.drop (moved asked c.incoming.length more), (take_append_drop _ _).symm, ?_⟩
      rw [length_take_of_le (by omega)]
      exact ⟨by omega, by omega, _, rfl, rfl⟩

theorem send_called {asked : Nat} (pos : 0 < asked) (io : Io) (source : Mem)
    (done : Conn δ → Bool) :
    Called c io False (fun r => ∃ n, 0 < n ∧ n ≤ asked ∧ ∃ c', c' = { c with
      written := c.written ++ (range n).map source, amountDone := c.amountDone + n } ∧
        r = (c', done c')) (c.send asked io source done) := by
  cases io with
  | again => exact .waits nofun
  | dead => exact .dead rfl
  | moves more =>
    have least : moved asked asked more = min (more + 1) (min asked asked) := rfl
    exact .moved ⟨moved asked asked more, by omega, by omega, _, rfl, rfl⟩

/-! ## What holds between two calls -/

/-- The response that is being written. -/
def response (c : Conn δ) : List UInt8 :=
  (List.range headerBytes).map c.header ++
    (List.range (Header.ofMem c.header).inLen).map c.buffer

/-- What a connection is about: the callback, its state at first, and all that the host sends. -/
structure Talk (δ : Type*) where
  cb : Callback δ
  device : δ
  input : List UInt8

/-- The callback has answered the requests that came before, and `out` is what is still to be
written of the answers. -/
structure Served (t : Talk δ) (rest out : List UInt8) (c : Conn δ) : Prop where
  answers : respondAll t.cb t.device c.calls = (c.device, c.written ++ out)
  later : requests t.input = c.calls ++ requests rest

/-- A request is being read: there is so much of the header. -/
structure Begun (t : Talk δ) (c : Conn δ) (h : List UInt8) : Prop where
  phase : c.phase = .readRequest
  count : c.amountDone = h.length
  header : c.header = .ofList h
  short : h.length < headerBytes
  served : Served t (h ++ c.incoming) [] c

/-- The header is there, and so much of the payload. -/
structure Headed (t : Talk δ) (c : Conn δ)
    (h p : List UInt8) : Prop where
  phase : c.phase = .readRequest
  count : c.amountDone = headerBytes + p.length
  header : c.header = .ofList h
  whole : h.length = headerBytes
  buffer : c.buffer = .ofList p
  served : Served t (h ++ (p ++ c.incoming)) [] c

/-- The state of the connection between two runs of the state machine. -/
inductive Framed (t : Talk δ) (c : Conn δ) : Prop
  | idle (phase : c.phase = .idle) (served : Served t c.incoming [] c)
  | header {h : List UInt8} (begun : Begun t c h)
  | payload {h p : List UInt8} (headed : Headed t c h p)
      (cut : p.length < (Header.ofMem (.ofList h)).outLen)
  | writing (phase : c.phase = .writeResponse) (unsent : c.amountDone < c.response.length)
      (served : Served t c.incoming (c.response.drop c.amountDone) c)

section Steps

variable {t : Talk δ} {h p : List UInt8} {io : Io} {ios : Ios}

theorem framed_doClosed (framed : Framed t c) : Framed t c.doClosed := by
  cases framed with
  | idle phase served => exact .idle phase ⟨served.answers, served.later⟩
  | header begun =>
    exact .header { begun with served := ⟨begun.served.answers, begun.served.later⟩ }
  | payload headed cut =>
    obtain ⟨phase, count, header, whole, buffer, served⟩ := headed
    exact .payload ⟨phase, count, header, whole, buffer, served.answers, served.later⟩ cut
  | writing phase unsent served => exact .writing phase unsent ⟨served.answers, served.later⟩

theorem response_length (c : Conn δ) :
    c.response.length = headerBytes + (Header.ofMem c.header).inLen := by
  simp only [response, length_append, length_map, length_range]

/-! ### What is left to do -/

/-- What is still to be written of a response. -/
def pending (c : Conn δ) : Nat :=
  if c.phase = .writeResponse then c.response.length - c.amountDone else 0

/-- More than the longest response. -/
def perByte : Nat := 32773

/-- What is left to do, with a byte to come counted for more than the longest response. -/
def work (c : Conn δ) : Nat := c.incoming.length * perByte + c.pending

theorem inLen_le (h : Header) : h.inLen ≤ 32767 := by
  have top := h.length.toInt_lt
  unfold inLen payloadLen
  split
  · omega
  · omega

theorem pending_lt (c : Conn δ) : c.pending < perByte := by
  have short := inLen_le (ofMem c.header)
  have length := response_length c
  unfold pending perByte
  unfold headerBytes at length
  split
  · omega
  · decide

/-- With a byte less to come there is less to do, whatever there is to be written. -/
theorem work_of_shorter {c' : Conn δ} (shorter : c'.incoming.length < c.incoming.length) :
    c'.work < c.work :=
  calc c'.work < c'.incoming.length * perByte + perByte := Nat.add_lt_add_left (pending_lt c') _
    _ = (c'.incoming.length + 1) * perByte := (Nat.succ_mul _ _).symm
    _ ≤ c.incoming.length * perByte := Nat.mul_le_mul_right perByte shorter
    _ ≤ c.work := le_add_right _ _

theorem pending_writing (phase : c.phase = .writeResponse) :
    c.pending = c.response.length - c.amountDone := if_pos phase

theorem pending_of_ne (phase : c.phase ≠ .writeResponse) : c.pending = 0 := if_neg phase

theorem work_reading (phase : c.phase = .readRequest) (nothing : c.incoming = []) : c.work = 0 := by
  rw [work, pending_of_ne (by rw [phase]; decide), nothing]
  rfl

/-- Where a run leads: everything is in order again. On a live socket the connection stays; nothing
more is left to do, and less if the socket serves what there is. -/
structure Ran (t : Talk δ) (alive serves : Prop)
    (c c' : Conn δ) : Prop where
  framed : Framed t c'
  closed : alive → c'.closed = c.closed
  le : c'.work ≤ c.work
  lt : serves → 0 < c.work → c'.work < c.work

/-- Where a call leads: the machine goes on with `on`, or it waits. -/
structure Goes (t : Talk δ) (alive serves : Prop)
    (c : Conn δ) (on : Conn δ → Prop) (r : Next δ) : Prop where
  on : r.2 = true → on r.1 ∧ (alive → r.1.closed = c.closed)
  waits : r.2 = false → Ran t alive serves c r.1

variable {alive serves : Prop} {c₁ c' : Conn δ} {on : Conn δ → Prop} {r : Next δ}

theorem Ran.of_lt (framed : Framed t c') (closed : alive → c'.closed = c.closed)
    (less : c'.work < c.work) : Ran t alive serves c c' :=
  ⟨framed, closed, less.le, fun _ _ => less⟩

theorem Ran.after (ran : Ran t alive serves c₁ c')
    (closed : alive → c₁.closed = c.closed) (less : c₁.work < c.work) :
    Ran t alive serves c c' :=
  .of_lt ran.framed (fun live => (ran.closed live).trans (closed live)) (ran.le.trans_lt less)

theorem Goes.ran (goes : Goes t alive serves c on r) {f : Conn δ → Conn δ}
    (rest : on r.1 → (alive → r.1.closed = c.closed) →
      Ran t alive serves c (f r.1)) :
    Ran t alive serves c (if r.2 then f r.1 else r.1) := by
  split
  · next went => exact rest (goes.on went).1 (goes.on went).2
  · next waits => exact goes.waits (Bool.eq_false_iff.mpr waits)

section Calls

variable (live : alive → io ≠ .dead) (works : serves → io.serves = true)
include live works

/-- A call that gets nothing done waits; what is left to show is where the others lead. -/
theorem Called.goes {nothing : Prop} {went : Next δ → Prop} (called : Called c io nothing went r)
    (framed : Framed t c) (done : nothing → c.work = 0)
    (moved : went r → Goes t alive serves c on r) :
    Goes t alive serves c on r := by
  cases called with
  | waits why =>
    exact ⟨nofun, fun _ => ⟨framed, fun _ => rfl, le_rfl, fun served left =>
      absurd (done (why (works served))) left.ne'⟩⟩
  | dead isDead =>
    subst isDead
    exact ⟨nofun, fun _ => ⟨framed_doClosed framed, fun alive => absurd rfl (live alive), le_rfl,
      fun served => nomatch works served⟩⟩
  | moved on => exact moved on

/-! ### Reading -/

theorem recv_goes (framed : Framed t c) (phase : c.phase = .readRequest) {asked : Nat}
    (pos : 0 < asked) {store : List UInt8 → Conn δ → Conn δ} {done : Conn δ → Bool}
    (stored : ∀ got rest c', c.incoming = got ++ rest → got.length ≤ asked →
      c' = store got { c with incoming := rest, amountDone := c.amountDone + got.length } →
      (c'.closed = c.closed ∧ c'.incoming = rest) ∧
        if done c' then on c' else Framed t c') :
    Goes t alive serves c
      (fun c' => on c' ∧ c'.incoming.length < c.incoming.length) (c.recv asked io store done) := by
  refine (recv_called asked io store done).goes live works framed ?_ ?_
  · rintro (nothing | zero)
    · exact work_reading phase nothing
    · omega
  · rintro ⟨got, rest, split, nonempty, fits, c', c'_eq, went⟩
    obtain ⟨⟨closed, incoming⟩, after⟩ := stored got rest c' split fits c'_eq
    have shorter : c'.incoming.length < c.incoming.length := by
      rw [incoming, split, length_append]
      exact Nat.lt_add_of_pos_left nonempty
    rw [went]
    refine ⟨fun on => ⟨⟨?_, shorter⟩, fun _ => closed⟩, fun waits =>
      .of_lt ?_ (fun _ => closed) (work_of_shorter shorter)⟩
    · rwa [if_pos on] at after
    · rwa [if_neg (Bool.eq_false_iff.mp waits)] at after

theorem readHeader_goes (begun : Begun t c h) :
    Goes t alive serves c (fun c' => (∃ h, Headed t c' h []) ∧
      c'.incoming.length < c.incoming.length) (c.readHeader io) := by
  obtain ⟨phase, done, isHeader, short, served⟩ := id begun
  rw [readHeader, if_pos (by omega)]
  apply recv_goes live works (.header begun) phase (by omega)
  intro got rest c' split fits c'_eq
  have header : c.header.blit c.amountDone got.length (.ofList got) = .ofList (h ++ got) := by
    rw [isHeader, done, blit_ofList]
  have later : requests t.input = c.calls ++ requests ((h ++ got) ++ rest) := by
    rw [served.later, split, append_assoc]
  have length : c.amountDone + got.length = (h ++ got).length := by
    rw [length_append, done]
  by_cases more : c.amountDone + got.length < headerBytes
  · obtain rfl : c' = { c with
        incoming := rest, amountDone := c.amountDone + got.length,
        header := .ofList (h ++ got) } := by
      rw [c'_eq, ← header]
      exact if_pos more
    rw [if_neg (by simpa using more)]
    exact ⟨⟨rfl, rfl⟩, .header ⟨phase, length, rfl, length ▸ more, served.answers, later⟩⟩
  · obtain rfl : c' = { c with
        incoming := rest, amountDone := c.amountDone + got.length, header := .ofList (h ++ got)
        buffer := fun _ => 0 } := by
      rw [c'_eq, ← header]
      exact if_neg more
    have whole : (h ++ got).length = headerBytes := by omega
    rw [if_pos (by simpa using more)]
    exact ⟨⟨rfl, rfl⟩, h ++ got, phase, length.trans whole, rfl, whole, rfl, served.answers, later⟩

/-- The request is complete. -/
def PayloadRead (t : Talk δ) (c : Conn δ) : Prop :=
  ∃ h p, Headed t c h p ∧ p.length = (Header.ofMem (.ofList h)).outLen

theorem readPayload_goes (headed : Headed t c h p)
    (cut : p.length < (Header.ofMem (.ofList h)).outLen) :
    Goes t alive serves c (fun c' => PayloadRead t c' ∧
      c'.incoming.length < c.incoming.length) (c.readPayload io) := by
  have count : c.amountDone - headerBytes = p.length := by
    rw [headed.count, Nat.add_sub_cancel_left]
  unfold readPayload
  rw [headed.header]
  simp only [zero_lt_of_lt cut, if_true, count]
  apply recv_goes live works (.payload headed cut) headed.phase (by omega)
  intro got rest c' split fits c'_eq
  have buffer : c.buffer.blit p.length got.length (.ofList got) = .ofList (p ++ got) := by
    rw [headed.buffer, blit_ofList]
  have length : c.amountDone + got.length = headerBytes + (p ++ got).length := by
    rw [headed.count, length_append, add_assoc]
  have within : (p ++ got).length ≤ (ofMem (.ofList h)).outLen := by
    rw [length_append]
    omega
  obtain rfl : c' = { c with
      incoming := rest, amountDone := c.amountDone + got.length,
      buffer := .ofList (p ++ got) } := by
    rw [c'_eq, ← buffer]
  have headed' : Headed t { c with
      incoming := rest, amountDone := c.amountDone + got.length, buffer := .ofList (p ++ got) }
      h (p ++ got) := by
    refine ⟨headed.phase, length, headed.header, headed.whole, rfl, headed.served.answers, ?_⟩
    rw [append_assoc p, ← split]
    exact headed.served.later
  by_cases more : (p ++ got).length < (ofMem (.ofList h)).outLen
  · rw [if_neg (by simp only [decide_eq_true_eq]; omega)]
    exact ⟨⟨rfl, rfl⟩, .payload headed' more⟩
  · rw [if_pos (by simp only [decide_eq_true_eq]; omega)]
    exact ⟨⟨rfl, rfl⟩, h, p ++ got, headed', by omega⟩

omit live works in
/-- The callback: the request is answered, and nothing of the answer is written yet. -/
theorem call_spec (headed : Headed t c h p)
    (payload : p.length = (Header.ofMem (.ofList h)).outLen) :
    Served t (c.call t.cb).incoming (c.call t.cb).response (c.call t.cb) := by
  have request : (⟨ofMem c.header, (range (ofMem c.header).outLen).map c.buffer⟩ :
      Request) = ⟨ofMem (.ofList h), p⟩ := by
    rw [headed.header, headed.buffer, ← payload, range_map_ofList]
  have calls : (c.call t.cb).calls = c.calls ++ [⟨ofMem (.ofList h), p⟩] := by
    rw [← request]
    rfl
  constructor
  · rw [calls, respondAll_concat, headed.served.answers, append_nil]
    have answer : respond t.cb c.device ⟨ofMem (.ofList h), p⟩ =
        ((c.call t.cb).device, (c.call t.cb).response) := by
      simp only [respond, call, response, ofMem_byte, headed.header, headed.buffer]
    rw [answer]
    rfl
  · rw [calls, headed.served.later, requests_cons headed.whole payload, append_assoc]
    rfl

/-! ### Writing -/

/-- The response is written up to a place, with less left to do than `left`. -/
structure Written (t : Talk δ) (place left : Nat)
    (c : Conn δ) : Prop where
  phase : c.phase = .writeResponse
  count : c.amountDone = place
  served : Served t c.incoming (c.response.drop c.amountDone) c
  work : c.work < left

variable (phase : c.phase = .writeResponse)
  (served : Served t c.incoming (c.response.drop c.amountDone) c)
include phase served

theorem send_goes {place : Nat} (below : c.amountDone < place) (inside : place ≤ c.response.length)
    {source : Mem} (bytes : ∀ n, c.amountDone + n ≤ place →
      (range n).map source = (c.response.drop c.amountDone).take n)
    {asked : Nat} (isAsked : asked = place - c.amountDone) :
    Goes t alive serves c (fun c' => c'.response = c.response ∧ Written t place c.work c')
      (c.send asked io source fun c' => decide (place ≤ c'.amountDone)) := by
  refine (send_called (by omega) io source _).goes live works (.writing phase (by omega) served)
    nofun ?_
  rintro ⟨n, nonempty, fits, c', c'_eq, went⟩
  have served' : Served t c'.incoming (c'.response.drop c'.amountDone) c' := by
    subst c'_eq
    refine ⟨?_, served.later⟩
    show respondAll t.cb t.device c.calls = (c.device, c.written ++ (range n).map source ++
      c.response.drop (c.amountDone + n))
    rw [served.answers, bytes n (by omega), append_assoc, ← drop_drop, take_append_drop]
  have phase' : c'.phase = .writeResponse := by rw [c'_eq]; exact phase
  have less : c'.work < c.work := by
    rw [work, work, pending_writing phase, pending_writing phase', c'_eq]
    exact Nat.add_lt_add_left (show c.response.length - (c.amountDone + n) <
      c.response.length - c.amountDone by omega) _
  have done : c'.amountDone = c.amountDone + n := by rw [c'_eq]
  have same : c'.response = c.response ∧ c'.closed = c.closed := by
    rw [c'_eq]
    exact ⟨rfl, rfl⟩
  rw [went]
  refine ⟨fun on => ⟨⟨same.1, phase', ?_, served', less⟩, fun _ => same.2⟩, fun waits =>
    .of_lt (.writing phase' ?_ served') (fun _ => same.2) less⟩
  · have := of_decide_eq_true on
    exact (show c'.amountDone = place by omega)
  · have := of_decide_eq_false waits
    exact (show c'.amountDone < c'.response.length by rw [same.1]; omega)

theorem writeHeader_goes (inHeader : c.amountDone < headerBytes) :
    Goes t alive serves c (fun c' => c'.response = c.response ∧
      Written t headerBytes c.work c') (c.writeHeader io) := by
  rw [writeHeader, if_pos inHeader]
  refine send_goes live works phase served inHeader (by rw [response_length]; omega) ?_ rfl
  intro n fits
  have room : c.amountDone ≤ ((range headerBytes).map c.header).length := by
    rw [length_map, length_range]
    omega
  rw [range_map_slice c.header fits, response, drop_append_of_le_length room,
    take_append_of_le_length]
  rw [length_drop, length_map, length_range]
  omega

theorem writePayload_goes (past : headerBytes ≤ c.amountDone)
    (more : c.amountDone < c.response.length) :
    Goes t alive serves c (fun c' => c'.response = c.response ∧
      Written t c.response.length c.work c') (c.writePayload io) := by
  have length := response_length c
  unfold writePayload
  rw [if_pos (by omega), ← length]
  refine send_goes live works phase served more le_rfl ?_ (by omega)
  intro n fits
  have before : ((range headerBytes).map c.header).length ≤ c.amountDone := by
    rw [length_map, length_range]
    exact past
  rw [range_map_slice c.buffer (show c.amountDone - headerBytes + n ≤
    (ofMem c.header).inLen by omega), response, drop_append,
    drop_eq_nil_of_le before, nil_append, length_map, length_range]

end Calls

/-- With the whole response written the connection is idle. -/
theorem ran_idle (served : Served t c₁.incoming (c₁.response.drop c₁.amountDone) c₁)
    (all : c₁.response.length ≤ c₁.amountDone) (closed : alive → c₁.closed = c.closed)
    (less : c₁.work < c.work) :
    Ran t alive serves c { c₁ with phase := .idle } := by
  have rests : { c₁ with phase := Phase.idle }.work ≤ c₁.work := by
    rw [work, work, pending_of_ne (show Phase.idle ≠ .writeResponse by decide)]
    exact Nat.add_le_add_left (Nat.zero_le _) _
  rw [drop_eq_nil_of_le all] at served
  exact .of_lt (.idle rfl ⟨served.answers, served.later⟩) closed (rests.trans_lt less)

theorem payload_written (phase : c.phase = .writeResponse)
    (served : Served t c.incoming (c.response.drop c.amountDone) c)
    (past : headerBytes ≤ c.amountDone) (more : c.amountDone < c.response.length) (ios : Ios) :
    let r := c.writePayload ios.writePayload
    Ran t ios.Alive ios.Serves c (if r.2 then { r.1 with phase := .idle } else r.1) :=
  (writePayload_goes Ios.Alive.writePayload Ios.Serves.writePayload phase served past more).ran
    (f := fun c' => { c' with phase := .idle }) fun ⟨same, written⟩ closed =>
      ran_idle written.served (by rw [same, written.count]) closed written.work

theorem writeResponse_ran (phase : c.phase = .writeResponse)
    (unsent : c.amountDone < c.response.length)
    (served : Served t c.incoming (c.response.drop c.amountDone) c) (ios : Ios) :
    Ran t ios.Alive ios.Serves c (c.writeResponse ios) := by
  by_cases inHeader : c.amountDone < headerBytes
  · apply (writeHeader_goes Ios.Alive.writeHeader Ios.Serves.writeHeader phase served inHeader).ran
      (f := fun c' => let p := c'.writePayload ios.writePayload
        if p.2 then { p.1 with phase := .idle } else p.1)
    rintro ⟨-, written⟩ closed
    generalize (c.writeHeader ios.writeHeader).1 = c₁ at written closed ⊢
    have length := response_length c₁
    have count := written.count
    by_cases payload : 0 < (ofMem c₁.header).inLen
    · exact (payload_written written.phase written.served count.ge (by omega) ios).after closed
        written.work
    have went : c₁.writePayload ios.writePayload = (c₁, true) := if_neg payload
    have all : c₁.response.length ≤ c₁.amountDone := by omega
    rw [went]
    exact ran_idle written.served all closed written.work
  · have went : c.writeHeader ios.writeHeader = (c, true) := if_neg inHeader
    rw [writeResponse, went]
    exact payload_written phase served (not_lt.mp inHeader) unsent ios

/-! ### Requests -/

/-- A complete request, and whatever of the response is not written at once. -/
theorem answered (read : PayloadRead t c) (ios : Ios) :
    Ran t ios.Alive ios.Serves (c.call t.cb) ((c.call t.cb).writeResponse ios) := by
  obtain ⟨h, p, headed, complete⟩ := read
  refine writeResponse_ran rfl ?_ (call_spec headed complete) ios
  rw [response_length]
  exact Nat.add_pos_left (by decide) _

/-- The payload is asked for, and the request answered if it is complete. -/
theorem payload_ran (headed : Headed t c h p)
    (cut : p.length < (Header.ofMem (.ofList h)).outLen) :
    let r := c.readPayload ios.readPayload
    Ran t ios.Alive ios.Serves c
      (if r.2 then (r.1.call t.cb).writeResponse ios else r.1) :=
  (readPayload_goes Ios.Alive.readPayload Ios.Serves.readPayload headed cut).ran
    (f := fun c' => (c'.call t.cb).writeResponse ios) fun ⟨read, shorter⟩ closed =>
      (answered read ios).after closed (work_of_shorter shorter)

theorem header_ran (begun : Begun t c h) (ios : Ios) :
    Ran t ios.Alive ios.Serves c (c.readRequest t.cb ios) := by
  apply (readHeader_goes Ios.Alive.readHeader Ios.Serves.readHeader begun).ran
    (f := fun c' => let p := c'.readPayload ios.readPayload
      if p.2 then (p.1.call t.cb).writeResponse ios else p.1)
  rintro ⟨⟨h, headed⟩, shorter⟩ closed
  generalize (c.readHeader ios.readHeader).1 = c₁ at headed shorter closed ⊢
  by_cases payload : 0 < (ofMem (.ofList h)).outLen
  · exact (payload_ran headed payload).after closed (work_of_shorter shorter)
  have went : c₁.readPayload ios.readPayload = (c₁, true) := by
    rw [readPayload, headed.header]
    exact if_neg payload
  rw [went]
  exact (answered ⟨h, [], headed, (Nat.eq_zero_of_not_pos payload).symm⟩ ios).after closed
    (work_of_shorter shorter)

theorem pump_ran (framed : Framed t c) (live : c.closed = false) (canRead : Bool)
    (ios : Ios) :
    Ran t ios.Alive (canRead = true ∧ ios.Serves) c (c.pump t.cb canRead ios) := by
  have served {c' : Conn δ} (ran : Ran t ios.Alive ios.Serves c c') :
      Ran t ios.Alive (canRead = true ∧ ios.Serves) c c' :=
    ⟨ran.framed, ran.closed, ran.le, fun on => ran.lt on.2⟩
  rw [pump, if_neg (Bool.eq_false_iff.mp live)]
  cases framed with
  | idle phase idle =>
    simp only [phase]
    cases canRead with
    | false => exact ⟨.idle phase idle, fun _ => rfl, le_rfl, nofun⟩
    | true =>
      have ran := header_ran (c := c.begin) (h := [])
        ⟨rfl, rfl, rfl, by decide, idle.answers, idle.later⟩ ios
      have same : c.begin.work = c.work := by
        rw [work, work, pending_of_ne (show Phase.readRequest ≠ .writeResponse by decide),
          pending_of_ne (by rw [phase]; decide)]
        rfl
      exact served ⟨ran.framed, ran.closed, ran.le.trans_eq same,
        fun on left => (ran.lt on (left.trans_eq same.symm)).trans_eq same⟩
  | header begun =>
    simp only [begun.phase]
    exact served (header_ran begun ios)
  | payload headed cut =>
    have went : c.readHeader ios.readHeader = (c, true) := if_neg (by rw [headed.count]; omega)
    simp only [headed.phase, readRequest, went]
    exact served (payload_ran headed cut)
  | writing phase unsent writing =>
    simp only [phase]
    exact served (writeResponse_ran phase unsent writing ios)

theorem framed_pump (framed : Framed t c) (canRead : Bool) :
    Framed t (c.pump t.cb canRead ios) := by
  cases closed : c.closed with
  | true => rwa [pump, if_pos closed]
  | false => exact (pump_ran framed closed canRead ios).framed

end Steps

/-! ## Whole runs -/

/-- A connection just made, with all the host will send still to come. -/
def start (device : δ) (input : List UInt8) : Conn δ where
  closed := false
  phase := .idle
  header := fun _ => 0
  buffer := fun _ => 0
  amountDone := 0
  device := device
  incoming := input
  written := []
  calls := []

/-- Runs of the state machine, when the socket can be read (`true`) or written. -/
def run (c : Conn δ) (events : List (Bool × Ios)) : Conn δ :=
  events.foldl (fun c e => c.pump cb e.1 e.2) c

/-- The socket can be read, and every call gets something done. -/
def serving (e : Bool × Ios) : Bool :=
  e.1 && e.2.readHeader.serves && e.2.readPayload.serves && e.2.writeHeader.serves &&
    e.2.writePayload.serves

section Runs

variable {t : Talk δ}

section

variable (framed : Framed t c)
include framed

theorem framed_run (events : List (Bool × Ios)) :
    Framed t (c.run t.cb events) := by
  induction events generalizing c with
  | nil => exact framed
  | cons e rest ih => exact ih (framed_pump framed e.1)

omit framed in
theorem framed_start : Framed t (start t.device t.input) := .idle rfl ⟨rfl, rfl⟩

theorem Framed.calls :
    ∃ later, requests t.input = c.calls ++ later ∧ (c.incoming = [] → later = []) := by
  cases framed with
  | idle phase served =>
    refine ⟨_, served.later, fun nothing => ?_⟩
    rw [nothing]
    exact requests_short (by decide)
  | header begun =>
    refine ⟨_, begun.served.later, fun nothing => ?_⟩
    rw [nothing, append_nil]
    exact requests_short begun.short
  | payload headed cut =>
    refine ⟨_, headed.served.later, fun nothing => ?_⟩
    rw [nothing, append_nil]
    exact requests_cut headed.whole cut
  | writing phase unsent served =>
    refine ⟨_, served.later, fun nothing => ?_⟩
    rw [nothing]
    exact requests_short (by decide)

theorem Framed.written :
    c.written <+: (respondAll t.cb t.device c.calls).2 ∧
      (c.phase ≠ .writeResponse → c.written = (respondAll t.cb t.device c.calls).2) := by
  cases framed with
  | idle phase served => simp [served.answers]
  | header begun => simp [begun.served.answers]
  | payload headed cut => simp [headed.served.answers]
  | writing phase unsent served => exact ⟨by simp [served.answers], fun other => absurd phase other⟩

omit framed in
theorem serves_of_serving {e : Bool × Ios} (on : serving e = true) : e.1 = true ∧ e.2.Serves := by
  simp only [serving, Bool.and_eq_true] at on
  obtain ⟨⟨⟨⟨canRead, h₁⟩, h₂⟩, h₃⟩, h₄⟩ := on
  exact ⟨canRead, h₁, h₂, h₃, h₄⟩

/-- On a live connection, what is left is less by one at least for each run that is served. -/
theorem run_work (live : c.closed = false) (events : List (Bool × Ios))
    (alive : ∀ e ∈ events, e.2.Alive) :
    (c.run t.cb events).work ≤ c.work - events.countP serving := by
  induction events generalizing c with
  | nil => exact le_rfl
  | cons e rest ih =>
    have ran := pump_ran framed live e.1 e.2
    have le := ran.le
    have later := ih ran.framed ((ran.closed (alive e mem_cons_self)).trans live) fun e' member =>
      alive e' (mem_cons_of_mem e member)
    rw [countP_cons]
    refine later.trans ?_
    by_cases on : serving e = true
    · rw [if_pos on]
      obtain ⟨canRead, serves⟩ := serves_of_serving on
      rcases Nat.eq_zero_or_pos c.work with done | left
      · omega
      · have := ran.lt ⟨canRead, serves⟩ left
        omega
    · rw [if_neg on]
      omega

theorem Framed.done (done : c.work = 0) :
    c.incoming = [] ∧ c.phase ≠ .writeResponse := by
  have zero : c.incoming.length * perByte = 0 ∧ c.pending = 0 := Nat.add_eq_zero_iff.mp done
  refine ⟨length_eq_zero_iff.mp ((Nat.mul_eq_zero.mp zero.1).resolve_right (by decide)), ?_⟩
  intro phase
  cases framed with
  | idle other => cases phase.symm.trans other
  | header begun => cases phase.symm.trans begun.phase
  | payload headed => cases phase.symm.trans headed.phase
  | writing _ unsent _ =>
    have := zero.2
    rw [pending_writing phase] at this
    omega
end

end Runs

end Conn

/-! ## The controller's answers -/

namespace Otg

variable {header header' : Header} {len : Nat}

/-- A reply that fits the request: its length is a status or no more than was asked for, and the
direction is the request's. -/
structure Fits (header : Header) (len : Nat) (reply : Reply Otg) : Prop where
  ep : reply.header.ep = header.ep
  low : -3 ≤ reply.ret
  high : reply.ret ≤ len

theorem Fits.ite {a b : Reply Otg} {p : Prop} [Decidable p] (yes : p → Fits header len a)
    (no : ¬ p → Fits header len b) : Fits header len (if p then a else b) := by
  split
  · next on => exact yes on
  · next off => exact no off

theorem Fits.of_ep {reply : Reply Otg} (fits : Fits header' len reply)
    (ep : header'.ep = header.ep) : Fits header len reply :=
  ⟨fits.ep.trans ep, fits.low, fits.high⟩

theorem fits_count {n : Nat} (s : Otg) (buffer : Mem) (ep : header'.ep = header.ep) (le : n ≤ len) :
    Fits header len ⟨s, header', buffer, n⟩ :=
  ⟨ep, (show (-3 : Int) ≤ 0 by decide).trans (Int.natCast_nonneg n), cast_le.mpr le⟩

theorem fits_status {r : Int} (s : Otg) (buffer : Mem) (ep : header'.ep = header.ep)
    (status : r = retNak ∨ r = retStall) : Fits header len ⟨s, header', buffer, r⟩ := by
  have low : -3 ≤ r ∧ r ≤ 0 := by
    rcases status with rfl | rfl
    · decide
    · decide
  exact ⟨ep, low.1, low.2.trans (Int.natCast_nonneg len)⟩

section Tokens

variable (s : Otg) (ep len : Nat) (header : Header) (buffer : Mem)

theorem inTransfer_fits : Fits header len (s.inTransfer ep len header buffer) := by
  unfold inTransfer
  apply fits_count _ _ rfl
  split
  · exact zero_le len
  · exact min_le_right _ _

theorem inToken_fits : Fits header len (s.inToken ep len header buffer) := by
  unfold inToken
  refine .ite (fun _ => ?_) fun _ => ?_
  · exact fits_status _ _ rfl (.inr rfl)
  refine .ite (fun _ => ?_) fun _ => ?_
  · exact fits_status _ _ rfl (.inl rfl)
  refine .ite (fun _ => ?_) fun _ => ?_
  · exact inTransfer_fits s ep len header buffer
  · exact fits_status _ _ rfl (.inl rfl)

theorem outTransfer_fits : Fits header len (s.outTransfer ep len header buffer) := by
  unfold outTransfer
  refine .ite (fun _ => ?_) fun _ => ?_
  · exact fits_count _ _ rfl (min_le_right _ _)
  · exact fits_count _ _ rfl (min_le_right _ _)

theorem outToken_fits : Fits header len (s.outToken ep len header buffer) := by
  unfold outToken
  refine .ite (fun _ => ?_) fun _ => ?_
  · exact fits_status _ _ rfl (.inr rfl)
  refine .ite (fun _ => ?_) fun _ => ?_
  · exact outTransfer_fits s ep len header buffer
  · exact fits_status _ _ rfl (.inl rfl)

end Tokens

/-- Whatever the controller's state and the request, the reply fits the request. -/
theorem tcpCallback_fits (s : Otg) (header : Header) (buffer : Mem) :
    Fits header header.payloadLen (tcpCallback s header buffer) := by
  unfold tcpCallback
  refine .ite (fun _ => ?_) fun _ => ?_
  · exact fits_status _ _ rfl (.inl rfl)
  refine .ite (fun _ => ?_) fun _ => ?_
  · exact fits_count (n := 0) _ _ rfl (zero_le _)
  refine .ite (fun _ => ?_) fun _ => ?_
  · refine .ite (fun _ => fits_status _ _ rfl (.inr rfl)) fun accepted => ?_
    -- The handshake is answered only if there is room for the answer.
    refine fits_count _ _ (show header.ep = header.ep from rfl) ?_
    simp only [Bool.or_eq_true, decide_eq_true_eq, not_or, not_lt] at accepted
    exact accepted.2
  refine .ite (fun _ => ?_) fun _ => ?_
  · exact fits_status _ _ rfl (.inr rfl)
  refine .ite (fun _ => ?_) fun _ => ?_
  · exact fits_status _ _ rfl (.inr rfl)
  refine .ite (fun _ => ?_) fun _ => ?_
  · exact (inToken_fits _ _ _ _ buffer).of_ep rfl
  · exact (outToken_fits _ _ _ _ buffer).of_ep rfl

/-- The payload of the response is no longer than the buffer, which has the size of the request. -/
theorem response_fits (s : Otg) (header : Header) (buffer : Mem) :
    { (tcpCallback s header buffer).header with
      length := Int16.ofInt (tcpCallback s header buffer).ret }.payloadLen ≤ header.payloadLen := by
  obtain ⟨-, low, high⟩ := tcpCallback_fits s header buffer
  have top := header.length.toInt_lt
  have back : (Int16.ofInt (tcpCallback s header buffer).ret).toInt =
      (tcpCallback s header buffer).ret := by
    apply Int16.toInt_ofInt_of_le
    · omega
    · unfold payloadLen at high
      omega
  unfold payloadLen at *
  dsimp only
  omega

end Otg

/-- For every callback, byte stream and way the socket cuts it up: the calls of the callback are the
requests of the stream in order, all of them once nothing is left to read; the bytes written are the
responses to them in order, all but a rest of the last one while that is being written; and a live
socket that serves often enough gets them all read, answered and written. The controller's own
callback never answers with more payload than its buffer, the size of the request, has. -/
theorem wire_carries_requests (device : δ) (input : List UInt8)
    (events : List (Bool × Ios)) :
    let c := (Conn.start device input).run cb events
    (∃ later, requests input = c.calls ++ later ∧ (c.incoming = [] → later = [])) ∧
    (c.written <+: (respondAll cb device c.calls).2 ∧
      (c.phase ≠ .writeResponse → c.written = (respondAll cb device c.calls).2)) ∧
    ((∀ e ∈ events, e.2.Alive) → input.length * Conn.perByte ≤ events.countP Conn.serving →
      c.calls = requests input ∧ c.written = (respondAll cb device (requests input)).2) ∧
    ∀ (s : Otg) (header : Header) (buffer : Mem),
      { (Otg.tcpCallback s header buffer).header with
        length := Int16.ofInt (Otg.tcpCallback s header buffer).ret }.payloadLen ≤
        header.payloadLen := by
  intro c
  have begun : Conn.Framed ⟨cb, device, input⟩ (Conn.start device input) := Conn.framed_start
  have framed : Conn.Framed ⟨cb, device, input⟩ c := Conn.framed_run begun events
  refine ⟨framed.calls, framed.written, fun alive enough => ?_, Otg.response_fits⟩
  have left : c.work ≤ input.length * Conn.perByte + 0 - events.countP Conn.serving :=
    Conn.run_work begun rfl events alive
  obtain ⟨nothing, idle⟩ := framed.done (by omega)
  obtain ⟨later, split, drained⟩ := framed.calls
  have all : c.calls = requests input := by rw [split, drained nothing, append_nil]
  exact ⟨all, all ▸ framed.written.2 idle⟩

/-- An OUT of one byte, answered with the byte's value as the length, and an IN of two, answered
with the number of the request: over a socket that moves one byte in every call, and none in every
other. -/
theorem two_requests_carried :
    let cb : Callback Nat := fun n h b =>
      ⟨n + 1, h, fun _ => UInt8.ofNat n, if h.dirIn then 2 else (b 0).toNat⟩
    let input : List UInt8 := [0, 1, 0, 1, 0, 7, 0, 0x81, 0, 2, 0]
    let waits : Bool × Ios := (true, ⟨.again, .again, .again, .again⟩)
    let moves : Bool × Ios := (true, ⟨.moves 0, .moves 0, .moves 0, .moves 0⟩)
    let events := replicate (11 * Conn.perByte) waits ++ replicate (11 * Conn.perByte) moves
    ((Conn.start 0 input).run cb events).written = [0, 1, 0, 7, 0, 0, 0x81, 0, 2, 0, 1, 1] := by
  intro cb input waits moves events
  have carried := (wire_carries_requests cb 0 input events).2.2.1
    (fun e member => by
      rcases mem_append.mp member with member | member
      · rw [eq_of_mem_replicate member]
        exact ⟨nofun, nofun, nofun, nofun⟩
      · rw [eq_of_mem_replicate member]
        exact ⟨nofun, nofun, nofun, nofun⟩)
    (by
      have serves : Conn.serving moves = true := rfl
      rw [countP_append, countP_replicate, countP_replicate, if_pos serves]
      exact Nat.le_add_left (11 * Conn.perByte) _)
  have parsed : requests input = [⟨ofMem (.ofList [0, 1, 0, 1, 0]), [7]⟩,
      ⟨ofMem (.ofList [0, 0x81, 0, 2, 0]), []⟩] := by
    refine (requests_cons (h := [0, 1, 0, 1, 0]) (p := [7]) rfl (by decide +kernel) _).trans ?_
    refine congrArg _ ?_
    refine (requests_cons (h := [0, 0x81, 0, 2, 0]) (p := []) rfl (by decide +kernel) []).trans ?_
    rw [requests_short (by decide)]
  rw [carried.2, parsed]
  decide +kernel

end QemuIos.Usb

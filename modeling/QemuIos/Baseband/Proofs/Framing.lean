import QemuIos.Baseband.Proofs.Steps
import QemuIos.Baseband.Proofs.H5
import QemuIos.Baseband.Proofs.Mux
import QemuIos.Lib.Observe

/-!
# Framing

What the two receivers hand on. The SLIP receiver of `h5_input` is disturbed by nothing the
packets do, so the packets sent are the packets received however the bytes are cut.
-/

namespace QemuIos.Baseband
open CText List Baseband.Core

namespace Core

variable {host : Host}

/-! ## H5 -/

/-- The buffers `h5_rx_pkt` is called with when a byte is taken. -/
def h5Calls (c : Core) (b : UInt8) : List H5Buf := (c.rx.step b).2.toList

end Core

theorem feed_eq_observe {cap : Nat} (r : Slip.Rx cap) (data : Bytes) :
    r.feed data = (data.foldl (fun r b => (r.step b).1) r,
      observe (fun r b => (r.step b).1) (fun r b => (r.step b).2.toList) r data) := by
  induction data generalizing r with
  | nil => rfl
  | cons b rest ih => simp [Slip.Rx.feed, observe, ih]

variable (host : Host)

/-- The buffers a piece of the stream completes are the receiver's own. -/
theorem observe_h5Calls (c : Core) (data : Bytes) :
    observe (h5Byte host) h5Calls c data = (c.rx.feed data).2 ∧
      (c.h5Input host data).rx = (c.rx.feed data).1 := by
  rw [feed_eq_observe]
  exact observe_part (h5Byte host) h5Calls rx (fun r b => (r.step b).1)
    (fun r b => (r.step b).2.toList) (h5Byte_rx host) (fun _ _ => rfl) c data

/-- What `h5_send_pkt` puts on the wire. -/
theorem h5SendPkt_out (l : Link) (now : Int) (type : Fin 16) (reliable : Bool) (seq : Fin 8)
    {data : Bytes} (small : data.length ≤ h5MaxPayload) :
    (l.h5SendPkt now type reliable seq data).out = l.out ++
      [.packet (h5Packet type reliable (l.crc && type ≠ h5TypeLink) seq l.rxNext data)] := by
  unfold Link.h5SendPkt
  rw [if_neg (by omega)]
  rfl

namespace Core

variable {c : Core}

/-- What `mx_rx_frame` is called with when a byte is taken: address, control and information. -/
def mxCalls (c : Core) (b : UInt8) : List (UInt8 × UInt8 × Bytes) :=
  match (c.muxrx.step b).2 with
  | some (.frame addr ctrl data) => [(addr, ctrl, data)]
  | _ => []

/-- Between frames. -/
structure Idle (c : Core) : Prop where
  search : c.muxrx.state = .search
  staying : c.muxLeave = false

theorem h5Stream_muxrx (data : Bytes) :
    (c.h5Stream data).muxrx = c.muxrx ∧ (c.h5Stream data).muxLeave = c.muxLeave := by
  unfold h5Stream
  split
  · exact ⟨rfl, rfl⟩
  split
  · exact ⟨rfl, rfl⟩
  · split
    · exact ⟨rfl, rfl⟩
    · exact ⟨rfl, rfl⟩

/-- The handling of a frame leaves the receiver alone or starts it afresh. -/
theorem Moves.muxrx_eq {c' : Core} (moves : Moves host c c') :
    c'.muxrx = c.muxrx ∨ c'.muxrx = {} := by
  induction moves with
  | refl => exact .inl rfl
  | tail _ step ih =>
    cases step with
    | stream data =>
      rw [(h5Stream_muxrx data).1]
      exact ih
    | startMux => exact .inr rfl
    | _ => exact ih

theorem idle_leaveMux (search : c.muxrx.state = .search) : c.leaveMux.Idle := by
  unfold leaveMux
  split
  · exact ⟨rfl, rfl⟩
  · next staying => exact ⟨search, by simpa using staying⟩

/-- A byte that hands nothing on only moves the receiver. -/
theorem mxByte_silent (staying : c.muxLeave = false) {b : UInt8}
    (silent : (c.muxrx.step b).2 = none) :
    c.mxByte host b = { c with muxrx := (c.muxrx.step b).1 } := by
  rw [mxByte, silent, mxEvent, leaveMux, if_neg (by simp [staying])]

/-- A run of the multiplexer's bytes through the core. -/
abbrev MxSees (host : Host) := Sees (mxByte host) mxCalls

theorem mxSees_silent (staying : c.muxLeave = false) {data : Bytes} {m : MuxRx}
    (silent : c.muxrx.feed data = (m, [])) : MxSees host c data [] { c with muxrx := m } := by
  induction data generalizing c with
  | nil =>
    obtain ⟨rfl, -⟩ := Prod.mk.inj silent
    exact .nil c
  | cons b rest ih =>
    rw [MuxRx.feed] at silent
    obtain ⟨last, noEvents⟩ := Prod.mk.inj silent
    obtain ⟨first, later⟩ := append_eq_nil_iff.mp noEvents
    have none : (c.muxrx.step b).2 = none := Option.toList_eq_nil_iff.mp first
    have byte : MxSees host c [b] [] { c with muxrx := (c.muxrx.step b).1 } := by
      have run : MxSees host c [b] (c.mxCalls b) (c.mxByte host b) := .single c b
      rwa [mxByte_silent host staying none, mxCalls, none] at run
    exact byte.append (ih staying (Prod.ext last later))

/-- After a byte that ends a frame or is a flag, the receiver is between frames whatever the
frame did. -/
theorem idle_mxByte (c : Core) {b : UInt8}
    (search : (c.muxrx.step b).1.state = .search) : (c.mxByte host b).Idle := by
  apply idle_leaveMux
  rcases (moves_mxEvent { c with muxrx := (c.muxrx.step b).1 } (c.muxrx.step b).2).muxrx_eq
    with same | fresh
  · rw [same]
    exact search
  · rw [fresh]

theorem step_flag {m : MuxRx} (search : m.state = .search) :
    (m.step mxFlag).1.state = .search ∧
      ((m.step mxFlag).2 = none ∨ (m.step mxFlag).2 = some .wake) := by
  unfold MuxRx.step
  rw [search]
  dsimp only
  rw [if_pos rfl]
  refine ⟨rfl, ?_⟩
  split
  · exact .inr rfl
  · exact .inl rfl

theorem mxSees_flag (idle : c.Idle) :
    MxSees host c [mxFlag] [] (c.mxByte host mxFlag) ∧ (c.mxByte host mxFlag).Idle := by
  obtain ⟨state, event⟩ := step_flag idle.search
  refine ⟨?_, idle_mxByte host c state⟩
  have nothing : c.mxCalls mxFlag = [] := by
    rcases event with none | wake
    · rw [mxCalls, none]
    · rw [mxCalls, wake]
  have run : MxSees host c [mxFlag] (c.mxCalls mxFlag) (c.mxByte host mxFlag) := .single c mxFlag
  rwa [nothing] at run

end Core

/-- A frame as `mx_send` is given it, with the mask its check octet is altered by on the way. -/
structure SentFrame where
  dlci : Nat
  cr : Bool
  ctrl : UInt8
  data : Bytes
  mask : UInt8

/-- The last octet of a frame altered. -/
def alterFcs (mask : UInt8) (frame : Bytes) : Bytes :=
  frame.dropLast ++ [frame.getLast?.getD 0 ^^^ mask]

namespace SentFrame

variable {f : SentFrame} {c : Core}

def bytes (f : SentFrame) : Bytes :=
  mxEncode (alterFcs f.mask (mxFrame (mxAddr f.dlci f.cr) f.ctrl f.data))

def header (f : SentFrame) : Bytes := mxAddr f.dlci f.cr :: f.ctrl :: mxLength f.data.length

/-- Without an alteration it is the frame `mx_send` writes. -/
theorem bytes_unaltered (whole : f.mask = 0) :
    f.bytes = mxEncode (mxFrame (mxAddr f.dlci f.cr) f.ctrl f.data) := by
  have frame : mxFrame (mxAddr f.dlci f.cr) f.ctrl f.data =
      (f.header ++ f.data) ++ [mxCheck f.header f.ctrl f.data] := rfl
  rw [bytes, alterFcs, whole, frame, dropLast_concat, getLast?_concat]
  simp

theorem bytes_eq (f : SentFrame) :
    f.bytes = [mxFlag] ++ (f.header ++ f.data) ++
      [mxCheck f.header f.ctrl f.data ^^^ f.mask] ++ [mxFlag] := by
  have frame : mxFrame (mxAddr f.dlci f.cr) f.ctrl f.data =
      (f.header ++ f.data) ++ [mxCheck f.header f.ctrl f.data] := rfl
  rw [bytes, mxEncode, alterFcs, frame, dropLast_concat, getLast?_concat]
  simp

/-- What `mx_rx_frame` gets of it. -/
def delivered (f : SentFrame) : List (UInt8 × UInt8 × Bytes) :=
  if f.mask = 0 then [(mxAddr f.dlci f.cr, f.ctrl, f.data)] else []

/-- A frame up to its check octet hands nothing on. -/
theorem mxSees_body (idle : c.Idle) (low : f.dlci < 62)
    (fits : f.data.length ≤ mxBufSize) :
    ∃ c', Core.MxSees host c ([mxFlag] ++ (f.header ++ f.data)) [] c' ∧
      c'.muxrx.Checking (mxAddr f.dlci f.cr) f.ctrl f.data := by
  obtain ⟨notFlag, complete⟩ := mxAddr_ne_flag low f.cr
  obtain ⟨opened, idle₁⟩ := mxSees_flag host idle
  obtain ⟨m, fed, checking⟩ :=
    MuxRx.feed_body (.inl idle₁.search) f.ctrl notFlag complete fits
  exact ⟨_, opened.append (mxSees_silent host idle₁.staying fed), checking⟩

/-- A frame is handed on at its check octet. -/
theorem mxSees_unclosed (idle : c.Idle) (low : f.dlci < 62)
    (fits : f.data.length ≤ mxBufSize) :
    ∃ c', Core.MxSees host c ([mxFlag] ++ (f.header ++ f.data) ++
      [mxCheck f.header f.ctrl f.data ^^^ f.mask]) f.delivered c' ∧ c'.Idle := by
  obtain ⟨c₁, body, checking⟩ := mxSees_body host idle low fits
  have checked := MuxRx.step_check checking f.mask
  have seen : c₁.mxCalls (mxCheck f.header f.ctrl f.data ^^^ f.mask) = f.delivered := by
    rw [mxCalls, header, checked, delivered]
    by_cases whole : f.mask = 0
    · simp only [if_pos whole]
    · simp only [if_neg whole]
  have octet : Core.MxSees host c₁ [mxCheck f.header f.ctrl f.data ^^^ f.mask] f.delivered
      (c₁.mxByte host (mxCheck f.header f.ctrl f.data ^^^ f.mask)) := by
    rw [← seen]
    exact .single c₁ _
  have ended : (c₁.muxrx.step (mxCheck f.header f.ctrl f.data ^^^ f.mask)).1.state = .search := by
    rw [header, checked]
  exact ⟨_, body.append octet, idle_mxByte host c₁ ended⟩

/-- One frame between frames. -/
theorem mxSees_bytes (idle : c.Idle) (low : f.dlci < 62)
    (fits : f.data.length ≤ mxBufSize) :
    ∃ c', Core.MxSees host c f.bytes f.delivered c' ∧ c'.Idle := by
  obtain ⟨c₁, frame, idle₁⟩ := mxSees_unclosed host idle low fits
  obtain ⟨closed, idle₂⟩ := mxSees_flag host idle₁
  refine ⟨_, ?_, idle₂⟩
  rw [bytes_eq, ← append_nil f.delivered]
  exact frame.append closed

theorem mxSees_frames (idle : c.Idle) {frames : List SentFrame}
    (wellFormed : ∀ f ∈ frames, f.dlci < 62 ∧ f.data.length ≤ mxBufSize) :
    ∃ c', Core.MxSees host c (frames.flatMap bytes) (frames.flatMap delivered) c' ∧ c'.Idle := by
  induction frames generalizing c with
  | nil => exact ⟨c, .nil c, idle⟩
  | cons f frames ih =>
    obtain ⟨⟨low, fits⟩, wellFormed'⟩ := forall_mem_cons.mp wellFormed
    obtain ⟨c₁, first, idle₁⟩ := mxSees_bytes host idle low fits
    obtain ⟨c₂, rest, idle₂⟩ := ih idle₁ wellFormed'
    exact ⟨c₂, first.append rest, idle₂⟩

end SentFrame

/-- Frames encoded back to back reach `mx_rx_frame` once each, in order, with their address,
control byte and payload, however the bytes are cut; one whose check octet was altered does not. -/
theorem mux_codec_round_trip (c : Core) (between : c.muxrx.state = .search)
    (staying : c.muxLeave = false) (frames : List SentFrame)
    (wellFormed : ∀ f ∈ frames, f.dlci < 62 ∧ f.data.length ≤ 1600) (pieces : List Bytes)
    (cut : pieces.flatten = frames.flatMap fun f =>
      mxEncode (alterFcs f.mask (mxFrame (mxAddr f.dlci f.cr) f.ctrl f.data))) :
    observeIn (Core.mxByte host) Core.mxCalls c pieces =
      (frames.filter fun f => f.mask = 0).map fun f => (mxAddr f.dlci f.cr, f.ctrl, f.data) := by
  obtain ⟨c', run, -⟩ := SentFrame.mxSees_frames host ⟨between, staying⟩ wellFormed
  have once : ∀ frames : List SentFrame, frames.flatMap SentFrame.delivered =
      (frames.filter fun f => f.mask = 0).map fun f => (mxAddr f.dlci f.cr, f.ctrl, f.data) := by
    intro frames
    induction frames with
    | nil => rfl
    | cons f frames ih =>
      rw [flatMap_cons, ih, SentFrame.delivered]
      by_cases whole : f.mask = 0
      · simp [whole]
      · simp [whole]
  rw [observeIn_eq, cut, ← once]
  exact run.seen_eq

/-- Three frames on two channels, one altered, a payload full of flags, and the bytes cut inside
a header and inside a payload. -/
theorem mux_codec_three_frames :
    observeIn (Core.mxByte bareHost) Core.mxCalls {}
      [[0xf9, 0x0d], [0xef, 0x07, 0xf9, 0xf9],
        [0xf9, 0xf7, 0xf9, 0xf9, 0x0d, 0xef, 0x03, 0x41, 0xf1,
        0xf9, 0xf9, 0x05, 0x3f, 0x01, 0xbf, 0xf9]] =
      [(mxAddr 3 false, mxUih, [0xf9, 0xf9, 0xf9]), (mxAddr 1 false, 0x3f, [])] :=
  mux_codec_round_trip _ {} rfl rfl
    [⟨3, false, mxUih, [0xf9, 0xf9, 0xf9], 0⟩, ⟨3, false, mxUih, [0x41], 1⟩,
      ⟨1, false, 0x3f, [], 0⟩] (by decide) _ (by decide +kernel)

end QemuIos.Baseband

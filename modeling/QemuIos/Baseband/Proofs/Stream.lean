import QemuIos.Baseband.Proofs.Resync
import QemuIos.Baseband.Proofs.Window

/-!
# What a write puts into H5 packets

`h5_queue` takes one packet for each buffer it is given and cuts it at the largest payload.
-/

namespace QemuIos.Baseband
open CText List

namespace Link

/-- The payloads that a link holds: those it sent that are not acknowledged, then the records in
`h5_txq`. -/
def Holds (l : Link) (payloads : List Bytes) : Prop :=
  ∃ waiting, (∀ data ∈ waiting, data.length ≤ h5MaxPayload) ∧ l.txq = waiting.flatMap record ∧
    payloads = l.unacked.map (·.data) ++ waiting

/-- A payload is taken behind all the others. -/
structure Takes (l : Link) (payload : Bytes) (l' : Link) : Prop where
  queued : l'.queued = l.queued ++ [payload]
  holds {payloads : List Bytes} : l.Holds payloads → l'.Holds (payloads ++ [payload])

variable {l : Link} {data : Bytes}

theorem takes_h5Queue (room : l.txq.length + 2 + min data.length h5MaxPayload ≤ h5TxqSize) :
    l.Takes (data.take h5MaxPayload) (l.h5Queue data) := by
  unfold h5Queue
  rw [if_neg (by rw [length_take, Nat.min_comm]; omega)]
  refine ⟨rfl, ?_⟩
  rintro - ⟨waiting, small, txq, rfl⟩
  refine ⟨waiting ++ [data.take h5MaxPayload], ?_, by simp [txq, record], append_assoc ..⟩
  simpa [or_imp, forall_and] using small

theorem h5SendOneUnacked_fields (l : Link) (now : Int) (data : Bytes) :
    (l.h5SendOneUnacked now data).queued = l.queued ∧
      (l.h5SendOneUnacked now data).txq = l.txq ∧
      (l.h5SendOneUnacked now data).unacked = l.unacked ++ [⟨l.txSeq, data⟩] := by
  unfold h5SendOneUnacked h5SendPkt
  dsimp only
  split <;> exact ⟨rfl, rfl, rfl⟩

/-- What is sent waits for its acknowledgement instead. -/
theorem holds_h5PumpFrom (now : Int) (left : Nat) {payloads : List Bytes}
    (holds : l.Holds payloads) : (h5PumpFrom now left l).Holds payloads := by
  induction left generalizing l with
  | zero => exact holds
  | succ left ih =>
    obtain ⟨waiting, small, txq, rfl⟩ := holds
    cases waiting with
    | nil =>
      unfold h5PumpFrom
      rw [txq, flatMap_nil]
      exact ⟨[], forall_mem_nil _, txq, rfl⟩
    | cons data waiting =>
      obtain ⟨short, small⟩ := forall_mem_cons.mp small
      rw [h5PumpFrom_record now left short (txq.trans flatMap_cons)]
      obtain ⟨-, rest, unacked⟩ :=
        h5SendOneUnacked_fields { l with txq := waiting.flatMap record } now data
      exact ih ⟨waiting, small, rest, by simp [unacked]⟩

theorem Takes.h5Pump {l' : Link} {payload : Bytes} (taken : l.Takes payload l') (now : Int) :
    l.Takes payload (l'.h5Pump now) := by
  unfold Link.h5Pump
  split
  · refine ⟨?_, fun holds => holds_h5PumpFrom now _ (taken.holds holds)⟩
    refine h5PumpFrom_keep (p := fun l'' => l''.queued = _) (fun _ _ _ same => ?_) _ taken.queued
    exact (h5SendOneUnacked_fields _ _ _).1.trans same
  · exact taken

end Link

namespace Core

/-- One packet a write, with the first 1024 bytes of it. -/
theorem takes_h5Stream {c : Core} (on : c.off = false) (inH5 : c.h5 = true) {data : Bytes}
    (room : c.link.txq.length + 2 + min data.length h5MaxPayload ≤ h5TxqSize) :
    c.link.Takes (data.take h5MaxPayload) (c.h5Stream data).link := by
  have taken := Link.takes_h5Queue room
  unfold h5Stream
  rw [if_neg (by simp [on]), if_neg (by simp [inH5])]
  split
  · exact taken
  · exact taken.h5Pump c.now

/-- A frame cut at a length: whole but for the closing flag, or nothing of it is received. -/
theorem observe_cut_frame (host : Host) {peer : Core} (idle : peer.Idle) {dlci : Nat} (cr : Bool)
    (ctrl : UInt8) {data : Bytes} (low : dlci < 62) (fits : data.length ≤ mxBufSize) (n : Nat) :
    observe (mxByte host) mxCalls peer
        ((mxEncode (mxFrame (mxAddr dlci cr) ctrl data)).take (n + 1)) =
        [(mxAddr dlci cr, ctrl, data)] ↔
      (mxEncode (mxFrame (mxAddr dlci cr) ctrl data)).length ≤ n + 2 := by
  let f : SentFrame := ⟨dlci, cr, ctrl, data, 0⟩
  have encoded : mxEncode (mxFrame (mxAddr dlci cr) ctrl data) =
      [mxFlag] ++ (f.header ++ f.data) ++ [mxCheck f.header f.ctrl f.data ^^^ f.mask] ++
        [mxFlag] := by
    rw [← SentFrame.bytes_eq, SentFrame.bytes_unaltered rfl]
  rw [encoded]
  obtain ⟨c₁, body, -⟩ := SentFrame.mxSees_body host (f := f) idle low fits
  obtain ⟨c₂, frame, idle₂⟩ := SentFrame.mxSees_unclosed host (f := f) idle low fits
  have whole : f.delivered = [(mxAddr dlci cr, ctrl, data)] := rfl
  constructor
  · intro received
    by_contra long
    have inside : n + 1 ≤ ([mxFlag] ++ (f.header ++ f.data)).length := by
      simp only [length_append, length_singleton] at long ⊢
      omega
    have silent : observe (mxByte host) mxCalls peer
        (([mxFlag] ++ (f.header ++ f.data)).take (n + 1)) = [] := by
      have all := body.seen_eq
      rw [← take_append_drop (n + 1) ([mxFlag] ++ (f.header ++ f.data)), observe_append] at all
      exact (append_eq_nil_iff.mp all).1
    rw [append_assoc, take_append_of_le_length inside, silent] at received
    exact absurd received (by simp)
  · intro short
    have past : ([mxFlag] ++ (f.header ++ f.data) ++
        [mxCheck f.header f.ctrl f.data ^^^ f.mask]).length ≤ n + 1 := by
      simp only [length_append, length_singleton] at short ⊢
      omega
    rw [take_append, take_of_length_le past, observe_append, frame.seen_eq, frame.ends,
      whole]
    have rest : observe (mxByte host) mxCalls c₂ ([mxFlag].take (n + 1 - ([mxFlag] ++
        (f.header ++ f.data) ++ [mxCheck f.header f.ctrl f.data ^^^ f.mask]).length)) = [] := by
      cases n + 1 - ([mxFlag] ++ (f.header ++ f.data) ++
          [mxCheck f.header f.ctrl f.data ^^^ f.mask]).length with
      | zero => rfl
      | succ k =>
        rw [take_succ_cons, take_nil]
        exact (mxSees_flag host idle₂).1.seen_eq
    rw [rest, append_nil]

/-- A write is one packet more for the peer, behind all that the link holds. It has the whole write
exactly when that is at most 1024 bytes; of a frame longer than that the peer's `mx_input` still
gets everything only when just the closing flag is missing. -/
theorem h5_stream_whole_iff (host : Host) (c : Core) (on : c.off = false) (inH5 : c.h5 = true) :
    (∀ data : Bytes, c.link.txq.length + 2 + min data.length h5MaxPayload ≤ h5TxqSize →
      ∃ payload, c.link.Takes payload (c.h5Stream data).link ∧
        (payload = data ↔ data.length ≤ h5MaxPayload)) ∧
    ∀ (dlci : Nat) (cr : Bool) (ctrl : UInt8) (data : Bytes) (peer : Core), dlci < 62 →
      data.length ≤ 1600 → peer.muxrx.state = .search → peer.muxLeave = false →
      c.link.txq.length + 2 + h5MaxPayload ≤ h5TxqSize →
      ∃ payload, c.link.Takes payload (c.mxSend dlci cr ctrl data).link ∧
        (observe (mxByte host) mxCalls peer payload = [(mxAddr dlci cr, ctrl, data)] ↔
          (mxEncode (mxFrame (mxAddr dlci cr) ctrl data)).length ≤ h5MaxPayload + 1) := by
  constructor
  · intro data room
    exact ⟨_, takes_h5Stream on inH5 room, take_eq_self_iff _⟩
  · intro dlci cr ctrl data peer low fits between staying room
    refine ⟨_, takes_h5Stream on inH5 (by omega), ?_⟩
    exact observe_cut_frame host ⟨between, staying⟩ cr ctrl low fits 1023

/-- A 1100-byte packet from the network to an open data channel inside H5. -/
theorem network_packet_cut :
    ¬ ∀ (c : Core) (pkt : Bytes), c.off = false → c.h5 = true → c.link.active = true →
      c.link.txq = [] → (c.modem.chans 1).isOpen = true → (c.modem.chans 1).dataCid ≠ 0 →
      0 < pkt.length → pkt.length ≤ 1500 →
      (c.iosBbDataInput pkt).link.queued.flatten =
        c.link.queued.flatten ++ mxEncode (mxFrame (mxAddr 1 false) mxUih pkt) := by
  intro all
  have whole := all
    { h5 := true, link := { active := true }
      modem := { chans := fun _ => { isOpen := true, dataCid := 1 } } }
    (replicate 1100 0) rfl rfl rfl rfl rfl (by decide) (by decide +kernel) (by decide +kernel)
  revert whole
  decide +kernel

/-- An `OK` before the multiplexer runs, on a link that holds nothing. -/
theorem short_reply_whole :
    (({ h5 := true, link := { active := true } } : Core).h5Stream (crlf (ascii "OK"))).link.Holds
      [crlf (ascii "OK")] := by
  obtain ⟨payload, taken, whole⟩ := (h5_stream_whole_iff bareHost
    { h5 := true, link := { active := true } } rfl rfl).1 (crlf (ascii "OK")) (by decide)
  obtain rfl := whole.mpr (by decide)
  have empty : Link.Holds { active := true } [] := ⟨[], nofun, rfl, rfl⟩
  exact taken.holds empty

end Core

end QemuIos.Baseband

import QemuIos.Baseband.Proofs.Framing

/-!
# Resynchronisation of the multiplexer

From which states of the receiver flags lead back between frames. The information field is
counted in a buffer of 1600 bytes and the count never reaches a longer announced length, so a
receiver in such a field takes every later byte for information.
-/

namespace QemuIos.Baseband
open CText List MuxRx

namespace MuxRx

variable {m : MuxRx}

/-- In an information field longer than the buffer. -/
def Stuck (m : MuxRx) : Prop := m.state = .data ∧ mxBufSize < m.len

theorem stuck_step (stuck : m.Stuck) (b : UInt8) : (m.step b).1.Stuck ∧ (m.step b).2 = none := by
  obtain ⟨atData, long⟩ := stuck
  have short : ¬ m.len ≤ (m.buf.push b).len := by
    have := (m.buf.push b).bound
    omega
  have stepped : m.step b = ({ m with buf := m.buf.push b }, none) := by
    simp [step, atData, dataByte, short]
  rw [stepped]
  exact ⟨⟨atData, long⟩, rfl⟩

/-- The second octet of a length that is too long. -/
theorem stuck_of_len1 (atLen : m.state = .len1) {b : UInt8} (high : 0x0d ≤ b) :
    (m.step b).1.Stuck ∧ (m.step b).2 = none := by
  have long : mxBufSize < m.len ||| b.toNat * 128 := by
    have octet : 13 ≤ b.toNat := high
    have atLeast : b.toNat * 128 ≤ m.len ||| b.toNat * 128 := Nat.right_le_or
    change 1600 < _
    omega
  have nonzero : m.len ||| b.toNat * 128 ≠ 0 := by omega
  unfold step
  rw [atLen]
  dsimp only [lengthKnown]
  rw [if_pos nonzero]
  exact ⟨⟨rfl, long⟩, rfl⟩

/-! ## Flags -/

/-- Inside an information field that fits, flags end it. -/
theorem flags_data (atData : m.state = .data) (fits : m.len ≤ mxBufSize) :
    ∃ n m', m.feed (replicate n mxFlag) = (m', []) ∧ m'.state = .fcs := by
  -- by the bytes still missing
  induction missing : m.len - m.buf.len generalizing m with
  | zero =>
    have full : m.len ≤ (m.buf.push mxFlag).len := by
      by_cases room : m.buf.len < mxBufSize
      · rw [Buf.push_len room]
        omega
      · rw [Buf.push_full room]
        omega
    exact ⟨1, by simp [feed, step, atData, dataByte, full]⟩
  | succ k ih =>
    have room : m.buf.len < mxBufSize := by omega
    have pushed := Buf.push_len room mxFlag
    by_cases last : m.len ≤ m.buf.len + 1
    · exact ⟨1, by simp [feed, step, atData, dataByte, pushed, last]⟩
    have stepped : m.step mxFlag = ({ m with buf := m.buf.push mxFlag }, none) := by
      simp [step, atData, dataByte, pushed, last]
    obtain ⟨n, m', fed, state⟩ := ih (m := { m with buf := m.buf.push mxFlag }) atData fits
      (by change m.len - (m.buf.push mxFlag).len = k; omega)
    exact ⟨n + 1, m', feed_cons_silent (by rw [stepped]) (by rw [stepped]; exact fed), state⟩

/-- A flag where the first length octet is due announces 124 bytes. -/
theorem flags_len0 (atLen : m.state = .len0) :
    ∃ n m', m.feed (replicate n mxFlag) = (m', []) ∧ m'.state = .fcs := by
  have stepped : (m.step mxFlag).2 = none ∧ (m.step mxFlag).1.state = .data ∧
      (m.step mxFlag).1.len = 124 := by
    unfold step
    rw [atLen]
    exact ⟨rfl, rfl, rfl⟩
  obtain ⟨silent, atData, len⟩ := stepped
  obtain ⟨n, m', fed, state⟩ := flags_data atData (by rw [len]; decide)
  exact ⟨n + 1, m', feed_cons_silent silent fed, state⟩

theorem flags_ctrl (atCtrl : m.state = .ctrl) :
    ∃ n m', m.feed (replicate n mxFlag) = (m', []) ∧ m'.state = .fcs := by
  have stepped : (m.step mxFlag).2 = none ∧ (m.step mxFlag).1.state = .len0 := by
    unfold step
    rw [atCtrl]
    exact ⟨rfl, rfl⟩
  obtain ⟨silent, atLen⟩ := stepped
  obtain ⟨n, m', fed, state⟩ := flags_len0 atLen
  exact ⟨n + 1, m', feed_cons_silent silent fed, state⟩

end MuxRx

namespace Core

variable {c : Core}

/-- Some number of bytes later, whatever they were, flags and then a frame as `mx_send` builds it
for a channel make `mx_rx_frame` receive that frame. -/
def Resyncs (host : Host) (c : Core) : Prop :=
  ∃ k, ∀ junk : Bytes, junk.length = k → ∃ n, ∀ (dlci : Nat) (cr : Bool) (ctrl : UInt8)
    (data : Bytes), dlci < maxCh → data.length ≤ 1600 →
    observe (mxByte host) mxCalls (c.mxInput host (junk ++ List.replicate n mxFlag))
      (mxEncode (mxFrame (mxAddr dlci cr) ctrl data)) = [(mxAddr dlci cr, ctrl, data)]

variable (host : Host)

/-- The check octet's place may be taken by a flag. -/
theorem idle_of_fcs (atFcs : c.muxrx.state = .fcs) (b : UInt8) :
    (c.mxByte host b).Idle := by
  apply idle_mxByte host c
  unfold step
  rw [atFcs]

section

variable (staying : c.muxLeave = false)
include staying

/-- Flags lead back between frames. -/
theorem flags_idle (notLen1 : c.muxrx.state ≠ .len1)
    (notStuck : ¬ c.muxrx.Stuck) : ∃ n, (c.mxInput host (replicate n mxFlag)).Idle := by
  have through : (∃ n m', c.muxrx.feed (replicate n mxFlag) = (m', []) ∧ m'.state = .fcs) →
      ∃ n, (c.mxInput host (replicate n mxFlag)).Idle := by
    rintro ⟨n, m', fed, state⟩
    refine ⟨n + 1, ?_⟩
    have reached := (mxSees_silent host staying fed).ends
    rw [replicate_succ', mxInput, foldl_append, reached]
    exact idle_of_fcs host state mxFlag
  cases state : c.muxrx.state with
  | search => exact ⟨0, state, staying⟩
  | addr =>
    refine ⟨1, idle_mxByte host c ?_⟩
    unfold step addrByte
    rw [state]
    simp
  | ctrl => exact through (flags_ctrl state)
  | len0 => exact through (flags_len0 state)
  | len1 => exact absurd state notLen1
  | data =>
    have fits : c.muxrx.len ≤ mxBufSize := Nat.le_of_not_lt fun long => notStuck ⟨state, long⟩
    exact through (flags_data state fits)
  | fcs => exact ⟨1, idle_of_fcs host state mxFlag⟩

/-- Nothing is handed on from a receiver that is stuck. -/
theorem stuck_silent (stuck : c.muxrx.Stuck)
    (data : Bytes) :
    observe (mxByte host) mxCalls c data = [] ∧ (c.mxInput host data).muxLeave = false ∧
      (c.mxInput host data).muxrx.Stuck := by
  induction data generalizing c with
  | nil => exact ⟨rfl, staying, stuck⟩
  | cons b rest ih =>
    obtain ⟨stuck', silent⟩ := stuck_step stuck b
    have stepped := mxByte_silent host staying silent
    obtain ⟨seen, staying', stuck''⟩ := ih (c := c.mxByte host b) (by rw [stepped]; exact staying)
      (by rw [stepped]; exact stuck')
    refine ⟨?_, staying', stuck''⟩
    rw [observe, seen, mxCalls, silent]
    rfl

theorem not_resyncs_of_stuck (stuck : c.muxrx.Stuck) :
    ¬ c.Resyncs host := by
  rintro ⟨k, all⟩
  obtain ⟨n, received⟩ := all (replicate k 0) length_replicate
  have frame := received 1 false mxUih [] (by decide) (by decide)
  obtain ⟨-, staying', stuck'⟩ :=
    stuck_silent host staying stuck (replicate k 0 ++ replicate n mxFlag)
  rw [(stuck_silent host staying' stuck' _).1] at frame
  exact absurd frame (by simp)

/-- Where the second length octet is due, the next byte can announce a field that is too long,
and a flag does. -/
theorem not_resyncs_of_len1 (atLen : c.muxrx.state = .len1) : ¬ c.Resyncs host := by
  rintro ⟨k, all⟩
  obtain ⟨n, received⟩ := all (replicate k mxFlag) length_replicate
  have frame := received 1 false mxUih [] (by decide) (by decide)
  obtain ⟨stuck, silent⟩ := stuck_of_len1 atLen (b := mxFlag) (by decide)
  have stepped := mxByte_silent host staying silent
  have staying₁ : (c.mxByte host mxFlag).muxLeave = false := by rw [stepped]; exact staying
  have stuck₁ : (c.mxByte host mxFlag).muxrx.Stuck := by rw [stepped]; exact stuck
  have late : ∀ j rest, observe (mxByte host) mxCalls
      (c.mxInput host (replicate j mxFlag)) (mxFlag :: rest) = [] := by
    intro j rest
    cases j with
    | zero =>
      -- the frame's own opening flag is taken for the length
      change c.mxCalls mxFlag ++ observe (mxByte host) mxCalls (c.mxByte host mxFlag) rest = []
      rw [(stuck_silent host staying₁ stuck₁ rest).1, mxCalls, silent]
      rfl
    | succ j =>
      obtain ⟨-, staying₂, stuck₂⟩ :=
        stuck_silent host staying₁ stuck₁ (replicate j mxFlag)
      exact (stuck_silent host staying₂ stuck₂ _).1
  rw [replicate_append_replicate, mxEncode, cons_append, late] at frame
  exact absurd frame (by simp)

end

/-- The multiplexer's receiver can be brought back between frames exactly when it is neither
waiting for the second octet of a length nor inside an information field that was announced
longer than its buffer. -/
theorem mux_resync_iff (host : Host) (c : Core) (staying : c.muxLeave = false) :
    c.Resyncs host ↔
      c.muxrx.state ≠ .len1 ∧ ¬ (c.muxrx.state = .data ∧ mxBufSize < c.muxrx.len) := by
  constructor
  · intro resyncs
    exact ⟨fun atLen => not_resyncs_of_len1 host staying atLen resyncs,
      fun stuck => not_resyncs_of_stuck host staying stuck resyncs⟩
  · rintro ⟨notLen1, notStuck⟩
    refine ⟨0, ?_⟩
    intro junk none
    obtain rfl := eq_nil_of_length_eq_zero none
    obtain ⟨n, idle⟩ := flags_idle host staying notLen1 notStuck
    refine ⟨n, ?_⟩
    intro dlci cr ctrl data channel fits
    obtain ⟨c', run, -⟩ := SentFrame.mxSees_bytes host idle
      (f := ⟨dlci, cr, ctrl, data, 0⟩) (lt_trans channel (by decide)) fits
    rw [SentFrame.bytes_unaltered rfl] at run
    exact run.seen_eq

/-- A garbled header with a length of 32640: the receiver takes everything after it for
information. -/
theorem long_header_never_ends :
    ¬ ∀ (host : Host) (fed : Bytes), (({} : Core).mxInput host fed).Resyncs host := by
  intro all
  let host : Host := bareHost
  have silent : feed {} [0x05, 0xef, 0x00, 0xff] =
      ((feed {} [0x05, 0xef, 0x00, 0xff]).1, []) := rfl
  have reached := (mxSees_silent host (c := {}) rfl silent).ends
  have resyncs := all host [0x05, 0xef, 0x00, 0xff]
  rw [mxInput, reached] at resyncs
  exact not_resyncs_of_stuck host rfl ⟨rfl, by decide⟩ resyncs

/-- A receiver that has seen a frame's first three bytes. -/
theorem started_frame_resyncs :
    Core.Resyncs bareHost
      { muxrx := { state := .data, addr := 0x05, ctrl := 0xef, len := 3 } } :=
  (mux_resync_iff _ _ rfl).mpr ⟨by decide, by decide⟩

end Core

end QemuIos.Baseband

import QemuIos.Baseband.Mux

/-!
# The multiplexer's receiver

How the receiver takes a frame as `mx_send` builds it, from between frames: the header, the
information field, and the check octet that decides whether the frame is handed on.
-/

namespace QemuIos.Baseband
open CText UInt8 List Nat

/-! ## The check octet and the address -/

/-- What is left of the check when a frame's octet is altered by a mask. -/
theorem fcs_check (fcs mask : UInt8) :
    mxFcsTable (fcs ^^^ ((0xff - fcs) ^^^ mask)) = mxGoodFcs ↔ mask = 0 := by
  have complement : ∀ f : UInt8, f ^^^ (0xff - f) = 0xff := by decide +kernel
  have table : ∀ m : UInt8, mxFcsTable (0xff ^^^ m) = mxGoodFcs ↔ m = 0 := by decide +kernel
  rw [← xor_assoc, complement, table]

/-- The address of a DLCI below 62 is no flag and complete. -/
theorem mxAddr_ne_flag {dlci : Nat} (low : dlci < 62) (cr : Bool) :
    mxAddr dlci cr ≠ mxFlag ∧ mxAddr dlci cr &&& mxEa ≠ 0 := by
  have all : ∀ (d : Fin 62) (cr : Bool), mxAddr d cr ≠ mxFlag ∧ mxAddr d cr &&& mxEa ≠ 0 := by
    decide
  exact all ⟨dlci, low⟩ cr

theorem short_length {len : Nat} (short : len < 128) :
    (ofNat (len * 2) ||| mxEa) &&& mxEa ≠ 0 ∧
      (ofNat (len * 2) ||| mxEa).toNat / 2 = len := by
  have all : ∀ n : Fin 128, (ofNat (n * 2) ||| mxEa) &&& mxEa ≠ 0 ∧
      (ofNat (n * 2) ||| mxEa).toNat / 2 = n := by decide
  exact all ⟨len, short⟩

theorem long_length {len : Nat} (fits : len < 32768) :
    ofNat (len % 128 * 2) &&& mxEa = 0 ∧
      (ofNat (len % 128 * 2)).toNat / 2 ||| (ofNat (len / 128)).toNat * 128 = len := by
  have all : ∀ n : Fin 128, ofNat (n * 2) &&& mxEa = 0 := by decide
  refine ⟨all ⟨len % 128, mod_lt _ (by decide)⟩, ?_⟩
  have low : (ofNat (len % 128 * 2)).toNat / 2 = len % 128 := by
    rw [toNat_ofNat']
    omega
  have high : (ofNat (len / 128)).toNat = len / 128 := by
    rw [toNat_ofNat']
    omega
  have below : len % 128 < 2 ^ 7 := mod_lt _ (by decide)
  rw [low, high, lor_comm, ← shiftLeft_eq _ 7, ← shiftLeft_add_eq_or_of_lt below,
    shiftLeft_eq]
  omega

namespace MuxRx

variable {m : MuxRx} {addr : UInt8}

theorem feed_cons_silent {m' : MuxRx} {b : UInt8} {rest : Bytes} {events : List MuxEvent}
    (silent : (m.step b).2 = none) (fed : (m.step b).1.feed rest = (m', events)) :
    m.feed (b :: rest) = (m', events) := by
  have parts : m.feed (b :: rest) = (((m.step b).1.feed rest).1,
      (m.step b).2.toList ++ ((m.step b).1.feed rest).2) := rfl
  rw [parts, fed, silent]
  rfl

/-! ## A frame -/

/-- Where an address byte is taken. -/
def BeforeAddr (m : MuxRx) : Prop := m.state = .search ∨ m.state = .addr

/-- The address and control bytes. -/
theorem feed_start (before : m.BeforeAddr) (ctrl : UInt8) (notFlag : addr ≠ mxFlag)
    (complete : addr &&& mxEa ≠ 0) :
    ∃ m', m.feed [addr, ctrl] = (m', []) ∧ m'.state = .len0 ∧ m'.addr = addr ∧ m'.ctrl = ctrl ∧
      m'.fcs = mxFcs mxInitFcs [addr, ctrl] := by
  rcases before with search | atAddr
  · simp [feed, step, search, addrByte, notFlag, complete, mxFcs]
  · simp [feed, step, atAddr, addrByte, notFlag, complete, mxFcs]

theorem feed_length (atLen : m.state = .len0) {len : Nat} (fits : len < 32768) :
    ∃ m', m.feed (mxLength len) = (m', []) ∧ m'.state = (if len ≠ 0 then .data else .fcs) ∧
      m'.addr = m.addr ∧ m'.ctrl = m.ctrl ∧ m'.len = len ∧ m'.buf.len = 0 ∧
      m'.fcs = mxFcs m.fcs (mxLength len) := by
  unfold mxLength
  by_cases short : len < 128
  · rw [if_pos short]
    obtain ⟨complete, value⟩ := short_length short
    generalize ofNat (len * 2) ||| mxEa = c at complete value ⊢
    subst value
    simp [feed, step, atLen, complete, lengthKnown, mxFcs]
  · rw [if_neg short]
    obtain ⟨more, value⟩ := long_length fits
    generalize ofNat (len % 128 * 2) = lo at more value ⊢
    generalize ofNat (len / 128) = hi at value ⊢
    subst value
    simp [feed, step, atLen, more, lengthKnown, mxFcs]

/-- The information field: the rest of it arrives behind what is in the buffer. -/
theorem feed_data (atData : m.state = .data) (rest : Bytes) (more : rest ≠ [])
    (whole : m.buf.len + rest.length = m.len) (fits : m.len ≤ mxBufSize) :
    ∃ m', m.feed rest = (m', []) ∧ m'.state = .fcs ∧ m'.addr = m.addr ∧ m'.ctrl = m.ctrl ∧
      m'.buf.contents = m.buf.contents ++ rest ∧
      m'.fcs = if ctrlKind m.ctrl ≠ mxUih then mxFcs m.fcs (m.buf.contents ++ rest) else m.fcs := by
  induction rest generalizing m with
  | nil => exact absurd rfl more
  | cons c rest ih =>
    rw [length_cons] at whole
    have room : m.buf.len < mxBufSize := by omega
    have pushed := Buf.push_len room c
    have added := Buf.contents_push room c
    by_cases last : rest = []
    · subst last
      have full : m.len ≤ m.buf.len + 1 := by
        rw [length_nil] at whole
        omega
      simp [feed, step, atData, dataByte, pushed, full, added]
    · have notYet : ¬ m.len ≤ m.buf.len + 1 := by
        have := length_pos_of_ne_nil last
        omega
      have stepped : m.step c = ({ m with buf := m.buf.push c }, none) := by
        simp [step, atData, dataByte, pushed, notYet]
      obtain ⟨m', fed, state, addr, ctrl, contents, fcs⟩ :=
        ih (m := { m with buf := m.buf.push c }) atData last
          (by change (m.buf.push c).len + rest.length = m.len; omega) fits
      refine ⟨m', feed_cons_silent (by rw [stepped]) (by rw [stepped]; exact fed), state, addr,
        ctrl, ?_, ?_⟩
      · rw [contents, added, append_assoc]
        rfl
      · rw [fcs, added, append_assoc]
        rfl

/-- Waiting for the check octet of a frame. -/
structure Checking (m : MuxRx) (addr ctrl : UInt8) (data : Bytes) : Prop where
  state : m.state = .fcs
  hasAddr : m.addr = addr
  hasCtrl : m.ctrl = ctrl
  contents : m.buf.contents = data
  check : mxCheck (addr :: ctrl :: mxLength data.length) ctrl data = 0xff - m.fcs

/-- A frame up to its check octet. -/
theorem feed_body (before : m.BeforeAddr) (ctrl : UInt8) (notFlag : addr ≠ mxFlag)
    (complete : addr &&& mxEa ≠ 0) {data : Bytes} (fits : data.length ≤ mxBufSize) :
    ∃ m', m.feed (addr :: ctrl :: mxLength data.length ++ data) = (m', []) ∧
      m'.Checking addr ctrl data := by
  have small : data.length < 32768 := lt_of_le_of_lt fits (by decide)
  obtain ⟨m₁, fed₁, state₁, addr₁, ctrl₁, fcs₁⟩ := feed_start before ctrl notFlag complete
  obtain ⟨m₂, fed₂, state₂, addr₂, ctrl₂, len₂, buf₂, fcs₂⟩ := feed_length state₁ small
  have header : m.feed (addr :: ctrl :: mxLength data.length) = (m₂, []) := by
    rw [show addr :: ctrl :: mxLength data.length = [addr, ctrl] ++ mxLength data.length from rfl,
      feed_append, fed₁, fed₂]
    rfl
  have fcs : m₂.fcs = mxFcs mxInitFcs (addr :: ctrl :: mxLength data.length) := by
    rw [fcs₂, fcs₁]
    exact (foldl_append).symm
  have empty : m₂.buf.contents = [] := eq_nil_of_length_eq_zero (by
    rw [Buf.length_contents, buf₂])
  by_cases none : data = []
  · subst none
    refine ⟨m₂, by simpa using header, ?_, addr₂.trans addr₁, ctrl₂.trans ctrl₁, empty, ?_⟩
    · simpa using state₂
    · rw [mxCheck, fcs]
      simp [mxFcs]
  · have atData : m₂.state = .data := by
      rw [state₂, if_pos]
      exact fun zero => none (eq_nil_of_length_eq_zero zero)
    obtain ⟨m₃, fed₃, state₃, addr₃, ctrl₃, contents, fcs₃⟩ :=
      feed_data atData data none (by rw [buf₂, len₂, zero_add]) (by rw [len₂]; exact fits)
    refine ⟨m₃, ?_, state₃, ?_, ?_, ?_, ?_⟩
    · rw [feed_append, header, fed₃]
      rfl
    · rw [addr₃, addr₂, addr₁]
    · rw [ctrl₃, ctrl₂, ctrl₁]
    · rw [contents, empty]
      rfl
    · rw [fcs₃, ctrl₂, ctrl₁, empty, nil_append, fcs]
      rfl

theorem step_check {ctrl : UInt8} {data : Bytes} (checking : m.Checking addr ctrl data)
    (mask : UInt8) :
    m.step (mxCheck (addr :: ctrl :: mxLength data.length) ctrl data ^^^ mask) =
        ({ m with state := .search, flagsRun := 0 },
        if mask = 0 then some (.frame addr ctrl data) else none) := by
  unfold step
  rw [checking.state]
  dsimp only
  rw [checking.check, checking.hasAddr, checking.hasCtrl, checking.contents]
  simp only [fcs_check]

end MuxRx

end QemuIos.Baseband

import QemuIos.Lib.Buffer

/-!
# SLIP framing

Packets between delimiter bytes, the delimiter and the escape byte replaced by two-byte
sequences inside. The receiver keeps its state from byte to byte, so how the stream is cut into
pieces does not matter (`feed_append`), and a stream of encoded packets gives the packets back
(`feed_encodeAll`).
-/

namespace QemuIos.Slip
open CText List

def delimiter : UInt8 := 0xc0

/-- A byte inside a packet. -/
def escape (c : UInt8) : Bytes :=
  if c = 0xc0 then [0xdb, 0xdc] else if c = 0xdb then [0xdb, 0xdd] else [c]

def encode (packet : Bytes) : Bytes := delimiter :: packet.flatMap escape ++ [delimiter]

/-- A receiver with a bounded buffer. -/
structure Rx (cap : Nat) where
  inFrame : Bool := false
  esc : Bool := false
  buf : Buf cap := .zero

namespace Rx

variable {cap : Nat} {r : Rx cap}

/-- A byte of the packet; one too many drops it. -/
def put (r : Rx cap) (c : UInt8) : Rx cap :=
  if r.buf.len < cap then { r with buf := r.buf.push c }
  else { r with inFrame := false, buf := r.buf.clear }

/-- One byte, and the buffer when it ends a packet. -/
def step (r : Rx cap) (c : UInt8) : Rx cap × Option (Buf cap) :=
  if r.inFrame = false ∧ c = delimiter then
    ({ r with buf := r.buf.clear }, if r.buf.len = 0 then none else some r.buf)
  else
    let r := { r with inFrame := true }
    if r.esc then
      let r := { r with esc := false }
      if c = 0xdc then (r.put 0xc0, none)
      else if c = 0xdd then (r.put 0xdb, none)
      else ({ r with inFrame := false, buf := r.buf.clear }, none)
    else if c = delimiter then ({ r with inFrame := false, buf := r.buf.clear }, some r.buf)
    else if c = 0xdb then ({ r with esc := true }, none)
    else (r.put c, none)

/-- The packets of a piece of the stream. -/
def feed (r : Rx cap) : Bytes → Rx cap × List (Buf cap)
  | [] => (r, [])
  | c :: rest =>
    let (r₁, packet) := r.step c
    let (r₂, packets) := r₁.feed rest
    (r₂, packet.toList ++ packets)

theorem feed_append (r : Rx cap) (first second : Bytes) :
    r.feed (first ++ second) =
      (((r.feed first).1.feed second).1, (r.feed first).2 ++ ((r.feed first).1.feed second).2) := by
  induction first generalizing r with
  | nil => rfl
  | cons c first ih => simp [feed, ih]

/-- Between packets. -/
structure Outside (r : Rx cap) : Prop where
  inFrame : r.inFrame = false
  esc : r.esc = false
  empty : r.buf.len = 0

/-- A receiver that is not in a packet has nothing of one. -/
theorem step_outside (ok : r.inFrame = false → r.Outside) (c : UInt8)
    (leaves : (r.step c).1.inFrame = false) : (r.step c).1.Outside := by
  unfold step put at leaves ⊢
  grind [Outside, Buf.clear_len]

theorem feed_outside (ok : r.inFrame = false → r.Outside) (bytes : Bytes)
    (leaves : (r.feed bytes).1.inFrame = false) : (r.feed bytes).1.Outside := by
  induction bytes generalizing r with
  | nil => exact ok leaves
  | cons c rest ih => exact ih (fun out => step_outside ok c out) leaves

/-- No byte of a packet passes without a trace. -/
theorem step_ne (r : Rx cap) {c : UInt8} (inside : c ≠ delimiter) (room : 0 < cap) :
    (r.step c).1 ≠ r := by
  intro same
  have inFrame := congrArg Rx.inFrame same
  have esc := congrArg Rx.esc same
  have len := congrArg (fun r => r.buf.len) same
  revert inFrame esc len
  unfold step put
  grind [Buf.clear_len, Buf.push_len]

/-- Nor does a delimiter, with a byte behind it if need be. -/
theorem exists_feed_ne (r : Rx cap) (room : 0 < cap) :
    ∃ rest, (r.feed (delimiter :: rest)).1 ≠ r := by
  cases inFrame : r.inFrame with
  | true =>
    refine ⟨[], fun same => ?_⟩
    have ended : (r.step delimiter).1.inFrame = true := by
      rw [← inFrame]
      exact congrArg Rx.inFrame same
    cases esc : r.esc
    · simp [step, delimiter, inFrame, esc] at ended
    · simp [step, delimiter, inFrame, esc] at ended
  | false =>
    refine ⟨[0x41], fun same => ?_⟩
    have inFrame' := congrArg Rx.inFrame same
    have esc' := congrArg Rx.esc same
    cases esc : r.esc
    · simp [feed, step, put, delimiter, inFrame, esc, room] at inFrame'
    · simp [feed, step, delimiter, inFrame, esc] at esc'

/-! ## Encoded packets -/

theorem step_open (outside : r.Outside) :
    r.step delimiter = ({ r with buf := r.buf.clear }, none) := by
  unfold step
  rw [if_pos ⟨outside.inFrame, rfl⟩, if_pos outside.empty]

/-- The first bytes of a packet, from between packets or inside it. -/
structure Taking (r : Rx cap) (packet : Bytes) : Prop where
  esc : r.esc = false
  contents : r.buf.contents = packet
  inFrame : r.inFrame = true ∨ packet = []

theorem Outside.taking (outside : r.Outside) : Taking r [] := by
  refine ⟨outside.esc, ?_, .inr rfl⟩
  apply eq_nil_of_length_eq_zero
  rw [Buf.length_contents, outside.empty]

theorem feed_escape {packet : Bytes} (taking : Taking r packet)
    (room : packet.length < cap) (c : UInt8) :
    ∃ r', r.feed (escape c) = (r', []) ∧ r'.inFrame = true ∧ Taking r' (packet ++ [c]) := by
  have length : r.buf.len < cap := by
    rw [← Buf.length_contents, taking.contents]
    exact room
  have added := Buf.contents_push length c
  rw [taking.contents] at added
  have noEsc := taking.esc
  unfold escape
  by_cases isDelimiter : c = 0xc0
  · subst isDelimiter
    refine ⟨{ r with inFrame := true, buf := r.buf.push 0xc0 }, ?_, rfl, noEsc, added, .inl rfl⟩
    simp [feed, step, put, delimiter, noEsc, length]
  by_cases isEscape : c = 0xdb
  · subst isEscape
    refine ⟨{ r with inFrame := true, buf := r.buf.push 0xdb }, ?_, rfl, noEsc, added, .inl rfl⟩
    simp [feed, step, put, delimiter, noEsc, length]
  · refine ⟨{ r with inFrame := true, buf := r.buf.push c }, ?_, rfl, noEsc, added, .inl rfl⟩
    simp [feed, step, put, delimiter, noEsc, length, isDelimiter, isEscape]

theorem feed_body {packet : Bytes} (taking : Taking r packet) (rest : Bytes)
    (nonempty : packet ++ rest ≠ []) (room : (packet ++ rest).length ≤ cap) :
    ∃ r' b, r.feed (rest.flatMap escape ++ [delimiter]) = (r', [b]) ∧
      b.contents = packet ++ rest ∧ r'.Outside := by
  induction rest generalizing r packet with
  | nil =>
    rw [append_nil] at nonempty ⊢
    have inFrame : r.inFrame = true := taking.inFrame.resolve_right nonempty
    refine ⟨{ r with inFrame := false, buf := r.buf.clear }, r.buf, ?_, taking.contents, rfl,
      taking.esc, rfl⟩
    simp [feed, step, delimiter, inFrame, taking.esc]
  | cons c rest ih =>
    have parts : packet ++ c :: rest = packet ++ [c] ++ rest := by simp
    rw [parts] at nonempty room ⊢
    have less : packet.length < cap := by
      simp only [length_append, length_singleton] at room
      omega
    obtain ⟨r₁, fed, -, taking₁⟩ := feed_escape taking less c
    obtain ⟨r₂, b, fed', whole, outside⟩ := ih taking₁ nonempty room
    refine ⟨r₂, b, ?_, whole, outside⟩
    rw [flatMap_cons, append_assoc, feed_append, fed, fed']
    rfl

/-- An encoded packet between packets is received. -/
theorem feed_encode (outside : r.Outside) {packet : Bytes} (nonempty : packet ≠ [])
    (room : packet.length ≤ cap) :
    ∃ r' b, r.feed (encode packet) = (r', [b]) ∧ b.contents = packet ∧ r'.Outside := by
  have opened : Outside { r with buf := r.buf.clear } := ⟨outside.inFrame, outside.esc, rfl⟩
  obtain ⟨r', b, fed, whole, outside'⟩ := feed_body opened.taking packet nonempty room
  refine ⟨r', b, ?_, whole, outside'⟩
  rw [encode, cons_append, feed, step_open outside]
  dsimp only
  rw [fed]
  rfl

/-- Encoded packets back to back are received one by one. -/
theorem feed_encodeAll (outside : r.Outside) {packets : List Bytes}
    (sizes : ∀ packet ∈ packets, packet ≠ [] ∧ packet.length ≤ cap) :
    ∃ r' bufs, r.feed (packets.flatMap encode) = (r', bufs) ∧
      bufs.map (·.contents) = packets ∧ r'.Outside := by
  induction packets generalizing r with
  | nil => exact ⟨r, [], rfl, rfl, outside⟩
  | cons packet packets ih =>
    obtain ⟨⟨nonempty, room⟩, sizes'⟩ := forall_mem_cons.mp sizes
    obtain ⟨r₁, b, fed, whole, outside₁⟩ := feed_encode outside nonempty room
    obtain ⟨r₂, bufs, fed', wholes, outside₂⟩ := ih outside₁ sizes'
    refine ⟨r₂, b :: bufs, ?_, ?_, outside₂⟩
    · rw [flatMap_cons, feed_append, fed, fed']
      rfl
    · rw [map_cons, whole, wholes]

end Rx

end QemuIos.Slip

import QemuIos.Baseband.Ifx
import QemuIos.Lib.Trace

/-!
# What the IFX link delivers

Whatever is queued, clocked and handed back, the payloads that were clocked out and the queue
behind them are what `ios_bb_ifx_queue` took, as long as a frame that is handed back finds room
for its payload, and a transfer too short for a length field is not handed back with something in
the buffer behind it that reads as one.
-/

namespace QemuIos.Baseband
open CText UInt8 Option Nat Ifx

/-! ## Header fields -/

/-- The two halves of a length that fits. -/
theorem ifxField_split {out : Nat} (small : out < 2 ^ 12) :
    ifxField (ofNat out) (ofNat (out >>> 8)) = out := by
  have high : out >>> 8 < 16 := by
    rw [shiftRight_eq_div_pow]
    omega
  have nibble : (ofNat (out >>> 8) &&& 0xf).toNat = out >>> 8 := by
    rw [UInt8.toNat_and, toNat_ofNat', mod_eq_of_lt (high.trans (by decide))]
    exact Nat.and_two_pow_sub_one_of_lt_two_pow (n := 4) high
  have low : out % 2 ^ 8 < 2 ^ 8 := Nat.mod_lt _ (by decide)
  rw [ifxField, nibble, toNat_ofNat', Nat.or_comm, ← Nat.shiftLeft_add_eq_or_of_lt low,
    Nat.shiftRight_eq_div_pow, Nat.shiftLeft_eq]
  omega

/-- The flags of byte 1 are outside the nibble. -/
theorem ifxField_or (lo hi flag : UInt8) (outside : flag &&& 0xf = 0) :
    ifxField lo (hi ||| flag) = ifxField lo hi := by
  have clear : flag.toNat &&& (0xf : UInt8).toNat = 0 := by
    rw [← UInt8.toNat_and, outside]
    rfl
  rw [ifxField, ifxField, UInt8.toNat_and, UInt8.toNat_or, and_or_distrib_right, clear,
    or_zero, UInt8.toNat_and]

namespace Ifx

variable (x : Ifx)

theorem ifxField_flags {out : Nat} (small : out < 2 ^ 12) :
    ifxField (ofNat out) (x.flags out) = out := by
  have more : ifxField (ofNat out) (if x.txq.length > out
      then ofNat (out >>> 8) ||| ifxMore else ofNat (out >>> 8)) = out := by
    split
    · rw [ifxField_or _ _ _ (by decide), ifxField_split small]
    · exact ifxField_split small
  unfold flags
  dsimp only
  split
  · rw [ifxField_or _ _ _ (by decide), more]
  · exact more

/-! ## The two halves of a transfer -/

/-- The credits a header grants. -/
def grants (mosi : Bytes) : Nat :=
  if mosi.length < ifxHdr then 0 else ifxField (mosi.getD 2 0) (mosi.getD 3 0)

theorem takeMosi_queue (mosi : Bytes) : (x.takeMosi mosi).1.txq = x.txq ∧
    (x.takeMosi mosi).1.maxData = x.maxData ∧ (x.takeMosi mosi).1.version = x.version := by
  unfold takeMosi
  dsimp only
  split
  · exact ⟨rfl, rfl, rfl⟩
  · split <;> exact ⟨rfl, rfl, rfl⟩

theorem takeMosi_creditsIn {x : Ifx} (two : x.version = 2) (mosi : Bytes) :
    (x.takeMosi mosi).1.creditsIn = x.creditsIn + Int32.ofNat (grants mosi) := by
  unfold takeMosi grants
  by_cases short : mosi.length < ifxHdr
  · rw [if_pos short, if_pos short]
    exact (Int32.add_zero _).symm
  · rw [if_neg short, if_neg short]
    dsimp only
    rw [if_pos two]

theorem outLen_le (n : Nat) : x.outLen n ≤ x.txq.length := by
  refine (min_le_left _ _).trans ?_
  unfold canSend
  split
  · exact zero_le _
  · exact le_rfl

theorem outLen_le_maxData (n : Nat) : x.outLen n ≤ x.maxData :=
  (min_le_right _ _).trans (min_le_left _ _)

/-- The cut of the length to an `unsigned` makes no difference: no payload is that long. -/
theorem outLen_le_room {n : Nat} (header : ifxHdr ≤ n) : ifxHdr + x.outLen n ≤ n := by
  have inRoom : x.outLen n ≤ room n := (min_le_right _ _).trans (min_le_right _ _)
  have short := (x.outLen_le_maxData n).trans x.maxData_le
  unfold room at inRoom
  simp only [ifxHdr, ifxDataMax] at *
  omega

theorem creditsIn_pos {x : Ifx} (two : x.version = 2) {n : Nat} (data : x.outLen n ≠ 0) :
    0 < x.creditsIn := by
  by_contra spent
  refine data (le_zero.mp ((min_le_left _ _).trans ?_))
  rw [canSend, if_pos ⟨two, Int32.not_lt.mp spent⟩]

theorem length_offer : x.offer.length = 2 := by
  unfold offer
  split <;> rfl

end Ifx

/-- A frame that was made, with the bytes that left the queue for it. -/
structure Sent where
  frame : Bytes
  payload : Bytes

/-- The length field tells the payload, which stands behind the header and is not too long. -/
structure Sent.Formed (maxData : Nat) (s : Sent) : Prop where
  short : s.payload.length ≤ maxData
  field : ifxField (s.frame.getD 0 0) (s.frame.getD 1 0) = s.payload.length
  inside : s.payload ≠ [] → ifxHdr + s.payload.length ≤ s.frame.length
  behind : (s.frame.drop ifxHdr).take s.payload.length = s.payload

/-- There is no payload in a transfer without room for a header. -/
theorem Sent.Formed.empty_of_short {maxData : Nat} {s : Sent} (formed : s.Formed maxData)
    (short : s.frame.length < ifxHdr) : s.payload = [] := by
  by_contra data
  exact not_le.mpr short ((le_add_right _ _).trans (formed.inside data))

variable (x : Ifx)

namespace Ifx

variable {x : Ifx}

/-- The bytes a transfer takes from the queue. -/
def sentLen (n : Nat) : Nat := if n < ifxHdr then 0 else x.outLen n

theorem makeMiso_queue (n : Nat) :
    (x.makeMiso n).1.txq = x.txq.drop (x.sentLen n) ∧
    (x.makeMiso n).1.maxData = x.maxData ∧ (x.makeMiso n).1.version = x.version := by
  unfold makeMiso sentLen
  dsimp only
  split
  · exact ⟨rfl, rfl, rfl⟩
  · split <;> exact ⟨rfl, rfl, rfl⟩

theorem makeMiso_creditsIn (two : x.version = 2) (n : Nat) :
    (x.makeMiso n).1.creditsIn = if x.sentLen n ≠ 0 then x.creditsIn - 1 else x.creditsIn := by
  unfold makeMiso sentLen
  by_cases short : n < ifxHdr
  · rw [if_pos short, if_pos short]
    rfl
  · rw [if_neg short, if_neg short]
    dsimp only
    rw [if_pos two]

theorem makeMiso_frame {n : Nat} (header : ifxHdr ≤ n) :
    (x.makeMiso n).2 = ofNat (x.outLen n) :: x.flags (x.outLen n) ::
      (x.offer ++ x.txq.take (x.outLen n)) ++ List.replicate (n - (ifxHdr + x.outLen n)) 0 := by
  unfold makeMiso
  dsimp only
  rw [if_neg (not_lt.mpr header)]
  split <;> rfl

theorem formed_makeMiso (n : Nat) :
    Sent.Formed x.maxData ⟨(x.makeMiso n).2, x.txq.take (x.sentLen n)⟩ := by
  by_cases short : n < ifxHdr
  · have frame : (x.makeMiso n).2 = List.replicate n 0 := by
      rw [makeMiso, if_pos short]
    have empty : x.sentLen n = 0 := if_pos short
    have zero : ∀ i, (List.replicate n (0 : UInt8)).getD i 0 = 0 := by
      intro i
      rw [List.getD_eq_getElem?_getD, List.getElem?_replicate]
      split <;> rfl
    rw [frame, empty]
    exact ⟨zero_le _, by simp only [zero]; rfl, fun data => absurd rfl data, rfl⟩
  · have header : ifxHdr ≤ n := not_lt.mp short
    have cut : x.sentLen n = x.outLen n := if_neg short
    have length : (x.txq.take (x.outLen n)).length = x.outLen n :=
      List.length_take_of_le (x.outLen_le n)
    have small : x.outLen n < 2 ^ 12 :=
      lt_of_le_of_lt ((x.outLen_le_maxData n).trans x.maxData_le) (by decide)
    have room := x.outLen_le_room header
    rw [makeMiso_frame header, cut]
    constructor
    · exact length.le.trans (x.outLen_le_maxData n)
    · rw [length]
      exact x.ifxField_flags small
    · intro _
      simp only [List.length_cons, List.length_append, List.length_replicate, length, length_offer]
      simp only [ifxHdr] at *
      omega
    · have two := x.length_offer
      simp only [length, ifxHdr, List.cons_append, List.drop_succ_cons, List.append_assoc]
      rw [List.drop_append_of_le_length two.ge, List.drop_of_length_le two.le, List.nil_append,
        List.take_append_of_le_length length.ge, List.take_of_length_le length.le]

/-- Where a frame was handed back: behind its bytes lies what the buffer held before. -/
def inBuffer (frame : Bytes) (behind : Nat → UInt8) (i : Nat) : UInt8 := frame.getD i (behind i)

theorem inBuffer_eq {frame : Bytes} {i : Nat} (inside : i < frame.length) (behind : Nat → UInt8) :
    inBuffer frame behind i = frame.getD i 0 := by
  rw [inBuffer, List.getD_eq_getElem _ _ inside, List.getD_eq_getElem _ _ inside]

theorem unsentLen_formed {s : Sent} {maxData : Nat} (formed : s.Formed maxData)
    (header : 2 ≤ s.frame.length) (behind : Nat → UInt8) :
    unsentLen (inBuffer s.frame behind) = s.payload.length := by
  rw [unsentLen, inBuffer_eq (by omega), inBuffer_eq (by omega), formed.field]

theorem payload_formed {s : Sent} {maxData : Nat} (formed : s.Formed maxData)
    (behind : Nat → UInt8) :
    (List.range s.payload.length).map (fun i => inBuffer s.frame behind (ifxHdr + i)) =
      s.payload := by
  apply List.ext_getElem
  · rw [List.length_map, List.length_range]
  · intro i _ bound
    have inside := formed.inside (List.ne_nil_of_length_pos (by omega))
    have there : ifxHdr + i < s.frame.length := by omega
    have same : ((s.frame.drop ifxHdr).take s.payload.length)[i]? = s.payload[i]? := by
      rw [formed.behind]
    rw [List.getElem_map, List.getElem_range, inBuffer_eq there, List.getD_eq_getElem _ _ there]
    rw [List.getElem?_take_of_lt bound, List.getElem?_drop, List.getElem?_eq_getElem there,
      List.getElem?_eq_getElem bound] at same
    exact some.inj same

theorem unsent_taken {miso : Nat → UInt8} (back : x.TakesBack (unsentLen miso)) :
    (x.unsent miso).txq = (List.range (unsentLen miso)).map (fun i => miso (ifxHdr + i)) ++ x.txq ∧
    (x.unsent miso).creditsIn = if x.version = 2 then x.creditsIn + 1 else x.creditsIn := by
  unfold unsent
  dsimp only
  rw [dif_pos back]
  exact ⟨rfl, rfl⟩

theorem unsent_refused {miso : Nat → UInt8} (back : ¬ x.TakesBack (unsentLen miso)) :
    x.unsent miso = x := dif_neg back

theorem unsent_fixed (miso : Nat → UInt8) :
    (x.unsent miso).maxData = x.maxData ∧ (x.unsent miso).version = x.version := by
  unfold unsent
  dsimp only
  split <;> exact ⟨rfl, rfl⟩

end Ifx

/-! ## Runs -/

inductive IfxEvent where
  | queue (buf : Bytes)
  | xfer {n : Nat} (mosi : Option (Vector UInt8 n)) (miso : Bool)
  /-- The most recent frame comes back, in a buffer with this behind it. -/
  | unsent (behind : Nat → UInt8)

/-- A link with what it took, what it sent and what it was granted. -/
structure IfxRun where
  x : Ifx
  /-- The buffers `ios_bb_ifx_queue` took. -/
  accepted : List Bytes := []
  /-- The frames clocked out before the most recent one. -/
  gone : List Sent := []
  /-- The most recent frame, which the AP may not have clocked. -/
  last : Option Sent := none
  /-- All frames. -/
  made : List Sent := []
  granted : Nat := 0

namespace IfxRun

variable {s : Sent}

/-- The frames that were clocked out, if the most recent one does not come back. -/
def clocked (r : IfxRun) : List Sent := r.gone ++ r.last.toList

def dataFrames (frames : List Sent) : Nat := frames.countP fun s => !s.payload.isEmpty

def step (r : IfxRun) : IfxEvent → IfxRun
  | .queue buf =>
    { r with
      x := r.x.queue buf
      accepted := if r.x.Accepts buf then r.accepted ++ [buf] else r.accepted }
  | .xfer mosi miso =>
    let (x, frame, _) := r.x.xfer mosi miso
    let granted := r.granted + (mosi.elim 0 fun m => Ifx.grants m.toList)
    match frame with
    | none => { r with x, granted }
    | some frame =>
      let sent : Sent := ⟨frame, r.x.txq.take (r.x.txq.length - x.txq.length)⟩
      { r with x, granted, gone := r.clocked, last := some sent, made := r.made ++ [sent] }
  | .unsent behind =>
    match r.last with
    | none => r
    | some sent => { r with x := r.x.unsent (Ifx.inBuffer sent.frame behind), last := none }

/-- What the link promises. -/
structure Delivers (r : IfxRun) : Prop where
  stream : r.clocked.flatMap Sent.payload ++ r.x.txq = r.accepted.flatten
  formed : ∀ s ∈ r.made, s.Formed r.x.maxData
  paid : r.x.version = 2 → dataFrames r.clocked ≤ r.granted

/-- A frame that comes back finds room, and one too short for its length field reads as empty or
is not taken. -/
def Fits (r : IfxRun) : IfxEvent → Prop
  | .unsent behind => ∀ s ∈ r.last, r.x.txq.length + s.payload.length ≤ ifxTxqSize ∧
      (s.frame.length < 2 → ¬ r.x.TakesBack (Ifx.unsentLen (Ifx.inBuffer s.frame behind)))
  | _ => True

/-- What a run keeps: the promises, and the credits in their wrapped count. -/
structure Inv (r : IfxRun) : Prop extends Delivers r where
  known : ∀ s ∈ r.last, s ∈ r.made
  credits : r.x.version = 2 →
    r.x.creditsIn = Int32.ofInt ((r.granted : Int) - dataFrames r.clocked)

variable {r : IfxRun}

theorem dataFrames_append (frames : List Sent) (s : Sent) :
    dataFrames (frames ++ [s]) = dataFrames frames + if s.payload = [] then 0 else 1 := by
  rw [dataFrames, List.countP_append, List.countP_singleton]
  cases s.payload <;> rfl

theorem inv_queue (inv : r.Inv) (buf : Bytes) : (r.step (.queue buf)).Inv := by
  by_cases room : r.x.Accepts buf
  · simp only [step, queue, dif_pos room, if_pos room]
    refine ⟨⟨?_, inv.formed, inv.paid⟩, inv.known, inv.credits⟩
    have stream := inv.stream
    simp only [clocked] at stream ⊢
    rw [← List.append_assoc, stream, List.flatten_append, List.flatten_singleton]
  · simp only [step, queue, dif_neg room, if_neg room]
    exact inv

/-- The AP's half of a transfer. -/
def takes (r : IfxRun) (mosi : Bytes) : IfxRun :=
  { r with x := (r.x.takeMosi mosi).1, granted := r.granted + Ifx.grants mosi }

/-- The queue stays, and the credits grow as the AP grants them. -/
theorem inv_takes (inv : r.Inv) (mosi : Bytes) : (r.takes mosi).Inv := by
  obtain ⟨txq, maxData, version⟩ := r.x.takeMosi_queue mosi
  refine ⟨⟨?_, ?_, ?_⟩, inv.known, ?_⟩
  · exact (congrArg (_ ++ ·) txq).trans inv.stream
  · intro s member
    exact maxData ▸ inv.formed s member
  · intro two
    exact (inv.paid (version ▸ two)).trans (le_add_right _ _)
  · intro two
    have was := inv.credits (version ▸ two)
    have sum : ((r.granted + grants mosi : Nat) : Int) - dataFrames r.clocked =
        (r.granted - dataFrames r.clocked) + (grants mosi : Nat) := by
      rw [cast_add]
      omega
    show (r.x.takeMosi mosi).1.creditsIn =
      Int32.ofInt (((r.granted + grants mosi : Nat) : Int) - dataFrames r.clocked)
    rw [takeMosi_creditsIn (version ▸ two), was, sum, Int32.ofInt_add, Int32.ofInt_eq_ofNat]

/-- The frame a transfer makes. -/
def sent (n : Nat) : Sent := ⟨(x.makeMiso n).2, x.txq.take (x.sentLen n)⟩

theorem sentLen_le (n : Nat) : x.sentLen n ≤ x.txq.length := by
  unfold sentLen
  split
  · exact zero_le _
  · exact x.outLen_le n

theorem sent_empty_iff (n : Nat) : (sent x n).payload = [] ↔ x.sentLen n = 0 := by
  rw [sent, ← List.length_eq_zero_iff, List.length_take_of_le (sentLen_le x n)]

/-- The bytes that left the queue. -/
theorem take_sent (n : Nat) :
    x.txq.take (x.txq.length - (x.makeMiso n).1.txq.length) = (sent x n).payload := by
  have bound := sentLen_le x n
  have gone : x.txq.length - (x.makeMiso n).1.txq.length = x.sentLen n := by
    rw [(x.makeMiso_queue n).1, List.length_drop]
    omega
  rw [gone, sent]

/-- The modem's half of a transfer. -/
def sends (r : IfxRun) (n : Nat) : IfxRun :=
  { r with
    x := (r.x.makeMiso n).1
    gone := r.clocked
    last := some (sent r.x n)
    made := r.made ++ [sent r.x n] }

/-- A payload leaves the queue, in version 2 against a credit. -/
theorem inv_sends (inv : r.Inv) (n : Nat) : (r.sends n).Inv := by
  obtain ⟨txq, maxData, version⟩ := r.x.makeMiso_queue n
  have frames := dataFrames_append r.clocked (sent r.x n)
  have spent : r.x.version = 2 → (sent r.x n).payload ≠ [] →
      dataFrames r.clocked < r.granted := by
    intro two data
    have sentLen : r.x.sentLen n ≠ 0 := (sent_empty_iff r.x n).not.mp data
    have outLen : r.x.outLen n ≠ 0 := by
      intro zero
      refine sentLen ?_
      unfold Ifx.sentLen
      split
      · rfl
      · exact zero
    refine lt_of_le_of_ne (inv.paid two) ?_
    intro all
    have credit := creditsIn_pos two outLen
    rw [inv.credits two, all, Int.sub_self] at credit
    exact absurd credit (by decide)
  refine ⟨⟨?_, ?_, ?_⟩, ?_, ?_⟩
  · show (r.clocked ++ [sent r.x n]).flatMap Sent.payload ++ (r.x.makeMiso n).1.txq = _
    rw [List.flatMap_append, List.flatMap_singleton, txq, List.append_assoc]
    show _ ++ (r.x.txq.take _ ++ r.x.txq.drop _) = _
    rw [List.take_append_drop]
    exact inv.stream
  · intro s member
    show s.Formed (r.x.makeMiso n).1.maxData
    rw [maxData]
    rcases List.mem_append.mp member with old | new
    · exact inv.formed s old
    · rw [List.mem_singleton.mp new]
      exact r.x.formed_makeMiso n
  · intro two
    show dataFrames (r.clocked ++ [sent r.x n]) ≤ r.granted
    rw [frames]
    split
    · exact inv.paid (version ▸ two)
    · next data => exact spent (version ▸ two) data
  · intro s member
    obtain rfl : sent r.x n = s := mem_some.mp member
    exact List.mem_append_right _ List.mem_cons_self
  · intro two
    show (r.x.makeMiso n).1.creditsIn =
      Int32.ofInt ((r.granted : Int) - dataFrames (r.clocked ++ [sent r.x n]))
    rw [makeMiso_creditsIn (version ▸ two), frames, inv.credits (version ▸ two)]
    by_cases data : r.x.sentLen n = 0
    · rw [if_neg (not_not.mpr data), if_pos ((sent_empty_iff r.x n).mpr data), add_zero]
    · rw [if_pos data, if_neg ((sent_empty_iff r.x n).not.mpr data), cast_add, ← Int.sub_sub,
        Int32.ofInt_sub _ ((1 : Nat) : Int)]
      rfl

/-- A transfer is the AP's half, then the modem's in the state that leaves. -/
theorem step_xfer {n : Nat} (mosi : Option (Vector UInt8 n)) (miso : Bool) :
    r.step (.xfer mosi miso) =
      let taken := mosi.elim r fun m => r.takes m.toList
      if miso then taken.sends n else taken := by
  cases mosi with
  | none =>
    cases miso with
    | false => rfl
    | true =>
      simp only [step, xfer, if_true, Option.elim, take_sent]
      rfl
  | some m =>
    cases miso with
    | false => rfl
    | true =>
      have txq := (r.x.takeMosi_queue m.toList).1
      simp only [step, xfer, if_true, Option.elim, ← txq, take_sent]
      rfl

theorem inv_xfer (inv : r.Inv) {n : Nat} (mosi : Option (Vector UInt8 n)) (miso : Bool) :
    (r.step (.xfer mosi miso)).Inv := by
  have taken : (mosi.elim r fun m => r.takes m.toList).Inv := by
    cases mosi with
    | none => exact inv
    | some m => exact inv_takes inv m.toList
  rw [step_xfer]
  cases miso with
  | false => exact taken
  | true => exact inv_sends taken n

/-- The frames without the most recent one. -/
theorem dataFrames_last (last : r.last = some s) :
    dataFrames r.clocked = dataFrames r.gone + if s.payload = [] then 0 else 1 := by
  rw [clocked, last, toList_some, dataFrames_append]

theorem stream_last (inv : r.Inv) (last : r.last = some s) :
    r.gone.flatMap Sent.payload ++ (s.payload ++ r.x.txq) = r.accepted.flatten := by
  have stream := inv.stream
  rwa [clocked, last, toList_some, List.flatMap_append, List.flatMap_singleton,
    List.append_assoc] at stream

/-- A frame comes back that is not taken: it was empty. -/
theorem inv_unsent_refused (inv : r.Inv) (last : r.last = some s) (empty : s.payload = []) :
    Inv { r with last := none } := by
  have stream := stream_last inv last
  have frames := dataFrames_last last
  rw [empty, List.nil_append] at stream
  rw [if_pos empty, add_zero] at frames
  have kept : clocked { r with last := none } = r.gone := List.append_nil _
  refine ⟨⟨?_, inv.formed, ?_⟩, fun _ => nofun, ?_⟩
  · rw [kept]
    exact stream
  · rw [kept, ← frames]
    exact inv.paid
  · rw [kept, ← frames]
    exact inv.credits

/-- A payload goes back to the head of the queue, and its credit was not spent. -/
theorem inv_unsent_taken (inv : r.Inv) (last : r.last = some s) {miso : Nat → UInt8}
    (back : r.x.TakesBack (unsentLen miso))
    (payload : (List.range (unsentLen miso)).map (fun i => miso (ifxHdr + i)) = s.payload) :
    Inv { r with x := r.x.unsent miso, last := none } := by
  obtain ⟨txq, creditsIn⟩ := unsent_taken back
  obtain ⟨maxData, version⟩ := r.x.unsent_fixed miso
  have data : s.payload ≠ [] := by
    intro empty
    have zero := congrArg List.length (payload.trans empty)
    rw [List.length_map, List.length_range] at zero
    exact back.1 zero
  have frames := dataFrames_last last
  rw [if_neg data] at frames
  have kept : clocked { r with x := r.x.unsent miso, last := none } = r.gone := List.append_nil _
  refine ⟨⟨?_, ?_, ?_⟩, fun _ => nofun, ?_⟩
  · rw [kept]
    show _ ++ (r.x.unsent miso).txq = _
    rw [txq, payload]
    exact stream_last inv last
  · intro t member
    exact maxData ▸ inv.formed t member
  · intro two
    rw [kept]
    have paid := inv.paid (version ▸ two)
    show dataFrames r.gone ≤ r.granted
    omega
  · intro two
    rw [kept]
    show (r.x.unsent miso).creditsIn = Int32.ofInt ((r.granted : Int) - dataFrames r.gone)
    have sum : (r.granted : Int) - dataFrames r.gone =
        (r.granted - dataFrames r.clocked) + ((1 : Nat) : Int) := by
      rw [frames, cast_add]
      omega
    rw [creditsIn, if_pos (version ▸ two), inv.credits (version ▸ two), sum,
      Int32.ofInt_add _ ((1 : Nat) : Int)]
    rfl

theorem inv_unsent (inv : r.Inv) {behind : Nat → UInt8} (fits : r.Fits (.unsent behind)) :
    (r.step (.unsent behind)).Inv := by
  cases last : r.last with
  | none =>
    rw [step, last]
    exact inv
  | some s =>
    obtain ⟨room, short⟩ := fits s last
    have formed := inv.formed s (inv.known s last)
    rw [step, last]
    by_cases header : 2 ≤ s.frame.length
    · have len := unsentLen_formed formed header behind
      by_cases empty : s.payload = []
      · have refused : ¬ r.x.TakesBack (unsentLen (inBuffer s.frame behind)) := by
          rw [len, empty]
          exact fun back => back.1 rfl
        dsimp only
        rw [unsent_refused refused]
        exact inv_unsent_refused inv last empty
      · refine inv_unsent_taken inv last ?_ ?_
        · rw [len]
          exact ⟨List.length_eq_zero_iff.not.mpr empty, formed.short, room⟩
        · rw [len]
          exact payload_formed formed behind
    · dsimp only
      rw [unsent_refused (short (not_le.mp header))]
      refine inv_unsent_refused inv last (formed.empty_of_short ?_)
      exact (not_le.mp header).trans (by decide)

theorem inv_step (r : IfxRun) (e : IfxEvent) (inv : r.Inv) (fits : r.Fits e) : (r.step e).Inv := by
  cases e with
  | queue buf => exact inv_queue inv buf
  | xfer mosi miso => exact inv_xfer inv mosi miso
  | unsent behind => exact inv_unsent inv fits

/-- Once a frame came back, what is left is told by the length of the queue. -/
theorem length_unsent (inv : r.Inv) (last : r.last = some s) {x : Ifx}
    (delivers : Delivers { r with x, last := none }) :
    x.txq.length = s.payload.length + r.x.txq.length := by
  have before := congrArg List.length (stream_last inv last)
  have after := congrArg List.length delivers.stream
  have kept : clocked { r with x, last := none } = r.gone := List.append_nil _
  rw [kept] at after
  simp only [List.length_append] at before after
  omega

theorem fits_of_delivers (r : IfxRun) (e : IfxEvent) (inv : r.Inv)
    (delivers : (r.step e).Delivers) : r.Fits e := by
  cases e with
  | queue buf => trivial
  | xfer mosi miso => trivial
  | unsent behind =>
    intro s last
    rw [mem_def] at last
    have formed := inv.formed s (inv.known s last)
    rw [step, last] at delivers
    have length := length_unsent inv last delivers
    constructor
    · have full := (r.x.unsent (inBuffer s.frame behind)).txq_le
      omega
    · intro short back
      have grown := congrArg List.length (unsent_taken back).1
      have empty := formed.empty_of_short (short.trans (by decide))
      rw [List.length_append, List.length_map, List.length_range, length, empty] at grown
      have nonzero := back.1
      simp only [List.length_nil] at grown
      omega

theorem inv_init (version : Int) (maxData : Nat) : Inv { x := init version maxData } :=
  ⟨⟨rfl, nofun, fun _ => le_rfl⟩, nofun, fun _ => rfl⟩

/-- The link delivers what was queued, in well-formed frames and within its credits, in every state
of a run exactly if every frame that comes back fits. -/
theorem delivers_iff_fits (version : Int) (maxData : Nat) (events : List IfxEvent) :
    (∀ n, ((events.take n).foldl step { x := Ifx.init version maxData }).Delivers) ↔
      Trace.Along step Fits { x := Ifx.init version maxData } events :=
  Trace.every_iff (fun _ inv => inv.toDelivers) inv_step fits_of_delivers events
    (inv_init version maxData)

theorem queue_accepted {x : Ifx} {buf : Bytes} (room : x.Accepts buf) :
    (x.queue buf).txq = x.txq ++ buf ∧ (x.queue buf).maxData = x.maxData ∧
    (x.queue buf).version = x.version := by
  rw [queue, dif_pos room]
  exact ⟨rfl, rfl, rfl⟩

/-- A full queue, a frame of it, and as many bytes queued in its place. -/
def refilled (buf more : Bytes) : IfxRun :=
  [.queue buf, .xfer (n := 2044) none true, .queue more].foldl step { x := Ifx.init 1 2040 }

theorem refilled_full {buf more : Bytes} (full : buf.length = 16384) (again : more.length = 2040) :
    ∃ s, (refilled buf more).last = some s ∧
      ¬ (refilled buf more).x.txq.length + s.payload.length ≤ ifxTxqSize := by
  have room : (init 1 2040).Accepts buf := by
    show 0 + buf.length ≤ 16384
    omega
  obtain ⟨txq, maxData, version⟩ := queue_accepted room
  set x := (init 1 2040).queue buf
  have canSend : x.canSend = 16384 := by
    rw [canSend, if_neg (fun credits => absurd (version ▸ credits.1) (by decide)), txq]
    exact full
  have sentLen : x.sentLen 2044 = 2040 := by
    have room : Ifx.room 2044 = 2040 := by decide
    have most : (Ifx.init 1 2040).maxData = 2040 := by decide
    rw [Ifx.sentLen, if_neg (by decide), Ifx.outLen, canSend, maxData, room, most]
    decide
  have left : (x.makeMiso 2044).1.txq.length = 14344 := by
    rw [(x.makeMiso_queue 2044).1, List.length_drop, txq, sentLen]
    show buf.length - 2040 = 14344
    omega
  have moreRoom : (x.makeMiso 2044).1.Accepts more := by
    have sum : (x.makeMiso 2044).1.txq.length + more.length = 16384 := by omega
    exact sum.le
  have run : refilled buf more =
      ((step { x := init 1 2040 } (.queue buf)).sends 2044).step (.queue more) := by
    rw [refilled, List.foldl_cons, List.foldl_cons, step_xfer]
    rfl
  refine ⟨sent x 2044, ?_, ?_⟩
  · rw [run]
    rfl
  · have payload : (sent x 2044).payload.length = 2040 := by
      rw [sent, List.length_take_of_le (sentLen_le x 2044), sentLen]
    have same : (refilled buf more).x = (x.makeMiso 2044).1.queue more := by
      rw [run]
      rfl
    have length : (refilled buf more).x.txq.length = 16384 := by
      rw [same, (queue_accepted moreRoom).1, List.length_append]
      omega
    simp only [ifxTxqSize]
    omega

/-- The frame comes back to a queue without room for it: its bytes are lost. -/
theorem refilled_frame_lost : ¬ ∀ (version : Int) (maxData : Nat) (events : List IfxEvent),
    (events.foldl step { x := Ifx.init version maxData }).Delivers := by
  intro all
  obtain ⟨buf, full⟩ : ∃ buf : Bytes, buf.length = 16384 := ⟨_, List.length_replicate (a := 0)⟩
  obtain ⟨more, again⟩ : ∃ buf : Bytes, buf.length = 2040 := ⟨_, List.length_replicate (a := 0)⟩
  obtain ⟨s, last, tight⟩ := refilled_full full again
  have inv : (refilled buf more).Inv :=
    inv_queue (inv_xfer (inv_queue (inv_init 1 2040) buf) none true) more
  have delivers : ((refilled buf more).step (.unsent fun _ => 0)).Delivers :=
    all 1 2040 [.queue buf, .xfer (n := 2044) none true, .queue more, .unsent fun _ => 0]
  exact tight (fits_of_delivers _ _ inv delivers s last).1

end IfxRun
end QemuIos.Baseband

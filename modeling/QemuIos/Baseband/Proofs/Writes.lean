import QemuIos.Baseband.Proofs.Answers
import QemuIos.Baseband.Proofs.Framing

/-!
# What payloads write

The link does not feed back into the handling of a payload: whatever it holds, the same calls of
`h5_stream` are made, and everything else ends up the same (`Core.Plays`). Whether anything is
written while the modem is on can be told from what came in and the state before it
(`Core.payloadReplies`).
-/

namespace QemuIos.Baseband
open CText Link Bool

/-- A call of `h5_stream`, with the modes of the moment. -/
structure Op where
  off : Bool
  h5 : Bool
  data : Bytes

/-- What it does to the link. -/
def Link.stream (now : Int) (l : Link) (op : Op) : Link :=
  if op.off then l
  else if !op.h5 then l.emit (.raw op.data)
  else if !l.active then l.h5Queue op.data
  else (l.h5Queue op.data).h5Pump now

namespace Core

def withLink (c : Core) (l : Link) : Core := { c with link := l }

/-- From a core and whatever link, a function ends in another core after these calls. -/
def Plays (f : Core → Core) (c c' : Core) (ops : List Op) : Prop :=
  c'.now = c.now ∧ ∀ l, f (c.withLink l) = c'.withLink (ops.foldl (Link.stream c.now) l)

namespace Plays

variable {f g : Core → Core} {c c' c'' : Core} {ops ops' : List Op}

theorem congr (plays : Plays f c c' ops) (same : ∀ l, g (c.withLink l) = f (c.withLink l)) :
    Plays g c c' ops :=
  ⟨plays.1, fun l => (same l).trans (plays.2 l)⟩

/-- The core itself, with the link it has. -/
theorem eq (plays : Plays f c c' ops) :
    f c = c'.withLink (ops.foldl (stream c.now) c.link) :=
  plays.2 c.link

theorem comp (first : Plays f c c' ops) (second : Plays g (f c) c'' ops') :
    Plays (fun c => g (f c)) c c'' (ops ++ ops') := by
  rw [first.eq] at second
  have now : c''.now = c.now := second.1.trans first.1
  refine ⟨now, fun l => ?_⟩
  have rest : g (c'.withLink (ops.foldl (stream c.now) l)) = c''.withLink
      (ops'.foldl (stream c'.now) (ops.foldl (stream c.now) l)) := second.2 _
  show g (f (c.withLink l)) = _
  rw [first.2, rest, first.1, List.foldl_append]

end Plays

/-- And it does not leave H5, and is heard if one of the calls is made while the modem is on. -/
structure Says (f : Core → Core) (c c' : Core) (ops : List Op) (heard : Prop) : Prop where
  plays : Plays f c c' ops
  h5 : c.h5 = true → c'.h5 = true ∧ ∀ op ∈ ops, op.h5 = true
  heard : (∃ op ∈ ops, op.off = false) ↔ heard

def Speaks (f : Core → Core) (c : Core) (heard : Prop) : Prop := ∃ c' ops, Says f c c' ops heard

namespace Speaks

variable {f g : Core → Core} {c : Core} {p q : Prop}

theorem congr (speaks : Speaks f c p) (same : ∀ l, g (c.withLink l) = f (c.withLink l)) :
    Speaks g c p := by
  obtain ⟨c', ops, said⟩ := speaks
  exact ⟨c', ops, said.plays.congr same, said.h5, said.heard⟩

theorem iff (speaks : Speaks f c p) (same : p ↔ q) : Speaks f c q := by
  obtain ⟨c', ops, said⟩ := speaks
  exact ⟨c', ops, said.plays, said.h5, said.heard.trans same⟩

theorem comp (first : Speaks f c p) (second : Speaks g (f c) q) :
    Speaks (fun c => g (f c)) c (p ∨ q) := by
  obtain ⟨c', ops, first⟩ := first
  obtain ⟨c'', ops', second⟩ := second
  refine ⟨c'', ops ++ ops', first.plays.comp second.plays, ?_, ?_⟩
  · intro inH5
    obtain ⟨still, all⟩ := first.h5 inH5
    obtain ⟨still', all'⟩ := second.h5 (by rw [first.plays.eq]; exact still)
    exact ⟨still', fun op inside => (List.mem_append.mp inside).elim (all op) (all' op)⟩
  · rw [← first.heard, ← second.heard]
    simp only [List.mem_append, or_and_right, exists_or]

/-- A change of other fields. -/
theorem silent (c' : Core) (now : c'.now = c.now) (h5 : c.h5 = true → c'.h5 = true)
    (same : ∀ l, f (c.withLink l) = c'.withLink l) : Speaks f c False :=
  ⟨c', [], ⟨now, same⟩, fun inH5 => ⟨h5 inH5, by simp⟩, by simp⟩

theorem id (c : Core) : Speaks (fun c => c) c False := silent c rfl (fun h => h) fun _ => rfl

/-- A choice the link has no part in. -/
theorem ite {p : Core → Prop} [∀ c, Decidable (p c)] {x y : Bool}
    (same : ∀ l, p (c.withLink l) ↔ p c) (yes : p c → Speaks f c (x = true))
    (no : ¬ p c → Speaks g c (y = true)) :
    Speaks (fun c => if p c then f c else g c) c ((if p c then x else y) = true) := by
  split
  · next holds => exact (yes holds).congr fun l => if_pos ((same l).mpr holds)
  · next fails => exact (no fails).congr fun l => if_neg (mt (same l).mp fails)

/-- Nothing, or something that is not heard. -/
theorem when {p : Core → Prop} [∀ c, Decidable (p c)] (same : ∀ l, p (c.withLink l) ↔ p c)
    (yes : Speaks f c False) : Speaks (fun c => if p c then f c else c) c False := by
  by_cases holds : p c
  · exact yes.congr fun l => if_pos ((same l).mpr holds)
  · exact (id c).congr fun l => if_neg (mt (same l).mp holds)

theorem comp_silent (first : Speaks f c p) (second : Speaks g (f c) False) :
    Speaks (fun c => g (f c)) c p :=
  (first.comp second).iff (iff_of_eq (or_false p))

theorem silent_comp (first : Speaks f c False) (second : Speaks g (f c) q) :
    Speaks (fun c => g (f c)) c q :=
  (first.comp second).iff (iff_of_eq (false_or q))

end Speaks

/-! ## Output -/

section

variable (c : Core)

theorem plays_h5Stream (data : Bytes) :
    Plays (fun c => c.h5Stream data) c c [⟨c.off, c.h5, data⟩] := by
  refine ⟨rfl, fun l => ?_⟩
  show (c.withLink l).h5Stream data = c.withLink (l.stream c.now ⟨c.off, c.h5, data⟩)
  unfold h5Stream stream
  cases off : c.off
  · cases h5 : c.h5
    · simp [withLink, off, h5]
    · cases active : l.active
      · simp [withLink, off, h5, active]
      · simp [withLink, off, h5, active, now]
  · simp [withLink, off]

theorem h5Stream_off (data : Bytes) : (c.h5Stream data).off = c.off := by
  rw [(plays_h5Stream c data).eq]
  rfl

theorem speaks_h5Stream (data : Bytes) :
    Speaks (fun c => c.h5Stream data) c (c.off = false) :=
  ⟨c, _, plays_h5Stream c data, fun inH5 => ⟨inH5, by simpa using inH5⟩, by simp⟩

theorem speaks_mxSend (dlci : Nat) (cr : Bool) (ctrl : UInt8) (data : Bytes) :
    Speaks (fun c => c.mxSend dlci cr ctrl data) c (c.off = false) :=
  speaks_h5Stream c _

theorem speaks_mxSendFrameCanned (dlci : Nat) (ctrl : UInt8) :
    Speaks (fun c => c.mxSendFrameCanned dlci ctrl) c (c.off = false) :=
  (speaks_mxSend c dlci (!c.h5) ctrl []).congr fun _ => rfl

theorem speaks_startH5 : Speaks (fun c => { c with h5 := true }) c False :=
  .silent { c with h5 := true } rfl (fun _ => rfl) fun _ => rfl

theorem speaks_write (ch : Nat) (text : Bytes) :
    Speaks (fun c => c.runAct (.write ch text)) c (c.off = false) := by
  by_cases muxed : (c.mux && decide (0 < ch)) = true
  · exact (speaks_mxSend c ch false mxUih text).congr fun l => if_pos muxed
  · exact (speaks_h5Stream c text).congr fun l => if_neg muxed

theorem runAct_off {act : Act} (stays : act ≠ .powerOff) :
    (c.runAct act).off = c.off := by
  cases act with
  | write ch text =>
    unfold runAct chanWrite
    dsimp only
    split
    · exact h5Stream_off c _
    · exact h5Stream_off c _
  | msc dlci dv => exact h5Stream_off c _
  | powerOff => exact absurd rfl stays
  | _ => rfl

/-- Actions are heard up to the one that switches off. -/
theorem speaks_acts (acts : List Act) :
    Speaks (fun c => acts.foldl runAct c) c (c.off = false ∧ spoken acts = true) := by
  induction acts generalizing c with
  | nil => exact (Speaks.id c).iff (by simp [spoken])
  | cons act acts ih =>
    have rest := ih (c.runAct act)
    cases act with
    | write ch text =>
      have same : (c.runAct (.write ch text)).off = c.off := runAct_off c (by simp)
      exact ((speaks_write c ch text).comp rest).iff (by simp_all [spoken])
    | msc dlci dv =>
      have same : (c.runAct (.msc dlci dv)).off = c.off := runAct_off c (by simp)
      exact ((speaks_mxSend c 0 false mxUih _).comp rest).iff (by simp_all [spoken])
    | ipReset =>
      have first : Speaks (fun c => c.runAct .ipReset) c False :=
        .silent { c with ipRx := [] } rfl (fun h => h) fun _ => rfl
      exact first.silent_comp rest
    | startH5 => exact (speaks_startH5 c).silent_comp rest
    | startMux =>
      have first : Speaks (fun c => c.runAct .startMux) c False :=
        .silent { c with mux := true, muxrx := {} } rfl (fun h => h) fun _ => rfl
      exact first.silent_comp rest
    | powerOff =>
      have first : Speaks (fun c => c.runAct .powerOff) c False :=
        .silent { c with off := true } rfl (fun h => h) fun _ => rfl
      exact (first.silent_comp rest).iff (by simp [runAct, spoken])

theorem speaks_engine {m : Modem} (sameTime : m.nowMs = c.modem.nowMs) :
    Speaks (fun c => { c with modem := m }) c False :=
  .silent { c with modem := m } sameTime (fun h => h) fun _ => rfl

theorem speaks_runOut {o : Out} (sameTime : o.1.nowMs = c.modem.nowMs) :
    Speaks (fun c => c.runOut o) c (c.off = false ∧ spoken o.2 = true) :=
  (speaks_engine c sameTime).silent_comp (speaks_acts { c with modem := o.1 } o.2)
end

end Core

/-! ## Lines -/

variable (host : Host)

namespace Core

variable (c : Core)

/-- A byte on a channel is replied to: the end of a line that starts with `at`, or of a
message. -/
def byteReplies (c : Core) (ch : Nat) (b : UInt8) : Bool :=
  let a := c.modem.chans ch
  !c.off && if a.smsPrompt then b = 0x1a || b = 0x1b
    else b = 13 && isCommand a.line

/-- One of these bytes is. -/
def bytesReply (host : Host) (ch : Nat) (fromMux : Bool) : Bool → Bytes → Core → Bool
  | _, [], _ => false
  | zeroed, b :: rest, c =>
    let b := if zeroed then 0 else b
    let o := atByte host c.mode c.modem ch b
    c.byteReplies ch b ||
      bytesReply host ch fromMux (zeroed || (fromMux && o.2.contains .startMux)) rest (c.runOut o)

/-- Packet data goes to the network. -/
def chanReplies (c : Core) (ch : Nat) (fromMux : Bool) (data : Bytes) : Bool :=
  (c.modem.chans ch).dataCid = 0 && bytesReply host ch fromMux false data c

theorem isCommand_terminate (line : Buf 599) : isCommand line.terminate = isCommand line := by
  unfold isCommand
  by_cases long : 2 ≤ line.len
  · have before : ∀ i < 2, line.terminate.data i = line.data i :=
      fun i inside => Function.update_of_ne (by omega) _ _
    rw [before 0 (by decide), before 1 (by decide)]
    rfl
  · simp [Buf.terminate, long]

theorem spoken_lineEnd (mode : Mode) (m : Modem) (ch : Nat) :
    spoken (lineEnd host mode m ch).2 = isCommand (m.chans ch).line := by
  unfold lineEnd
  dsimp only
  rw [isCommand_terminate]
  split
  · next command =>
    rw [command]
    exact (answered_atCommand host mode _ ch _).spoken
  · next other => exact ((not_eq_true _).mp other).symm

theorem spoken_atByte (ch : Nat) (b : UInt8) :
    (c.off = false ∧ spoken (atByte host c.mode c.modem ch b).2 = true) ↔
      c.byteReplies ch b = true := by
  have committed := spoken_cmgsPromptCommit c.modem ch
  unfold byteReplies atByte
  dsimp only
  cases c.off with
  | true => simp
  | false =>
    split
    · split
      · next send => simp [send, committed]
      split
      · next cancel => simp [cancel, committed]
      split
      · simp_all [spoken]
      · simp_all [spoken]
    · split
      · next ended =>
        split
        · next empty => simp [isCommand, empty, spoken]
        · simp [spoken_lineEnd, ended]
      split
      · simp_all [spoken]
      · simp_all [spoken]

theorem speaks_atByte (ch : Nat) (b : UInt8) :
    Speaks (fun c' => c'.runOut (atByte host c.mode c.modem ch b)) c (c.byteReplies ch b = true) :=
  (speaks_runOut c (keeps_atByte c.mode c.modem ch b).nowMs).iff (spoken_atByte host c ch b)

theorem speaks_atBytes (ch : Nat) (fromMux zeroed : Bool) (data : Bytes) (c : Core) :
    Speaks (fun c => atBytes host ch fromMux zeroed data c) c
      (bytesReply host ch fromMux zeroed data c = true) := by
  induction data generalizing zeroed c with
  | nil => exact (Speaks.id c).iff (by simp [bytesReply])
  | cons b rest ih =>
    let b' := if zeroed then 0 else b
    let o := atByte host c.mode c.modem ch b'
    let zeroed' := zeroed || (fromMux && o.2.contains .startMux)
    have both := (speaks_atByte host c ch b').comp (ih zeroed' (c.runOut o))
    refine (both.congr fun l => rfl).iff ?_
    rw [bytesReply, or_eq_true]

theorem speaks_dataChanFrom (fuel : Nat) (c : Core) (data : Bytes) :
    Speaks (fun c => dataChanFrom fuel c data) c False := by
  induction fuel generalizing c data with
  | zero => exact .id c
  | succ fuel ih =>
    by_cases done : data = []
    · exact (Speaks.id c).congr fun l => if_pos done
    let n := ipRxSize - c.ipRx.length
    let buf := c.ipRx ++ data.take n
    let cut := ipPackets buf.length buf
    have step : Speaks (fun d => { d with
        ipRx := cut.2, net := if c.modem.dataOut then c.net ++ cut.1 else c.net }) c False :=
      .silent { c with
        ipRx := cut.2, net := if c.modem.dataOut then c.net ++ cut.1 else c.net }
        rfl (fun h => h) fun _ => rfl
    exact (step.comp_silent (ih _ (data.drop n))).congr fun l => if_neg done

theorem speaks_atChanInput (ch : Nat) (fromMux : Bool) (data : Bytes) :
    Speaks (fun c => c.atChanInput host ch fromMux data) c
      (c.chanReplies host ch fromMux data = true) := by
  unfold chanReplies
  by_cases carries : (c.modem.chans ch).dataCid ≠ 0
  · have silent := speaks_dataChanFrom (data.length + 1) c data
    exact (silent.iff (by simp [carries])).congr fun l => if_pos carries
  · have lines := speaks_atBytes host ch fromMux false data c
    refine (lines.iff ?_).congr fun l => if_neg carries
    simp [not_not.mp carries]

/-! ## Frames -/

theorem speaks_noteClose (type : UInt8) : Speaks (fun c => c.noteClose type) c False :=
  .when (fun _ => .rfl) (.silent { c with muxLeave := true } rfl (fun h => h) fun _ => rfl)

theorem noteClose_off (type : UInt8) : (c.noteClose type).off = c.off := by
  unfold noteClose
  split
  · rfl
  · rfl

/-- Heard or not, it comes after an answer. -/
theorem speaks_ownStatus (type : UInt8) (info : Bytes) :
    ∃ asked : Prop, Speaks (fun c => c.ownStatus type info) c (asked ∧ c.off = false) := by
  refine ⟨type = 0xe3 ∧ 2 ≤ info.length ∧ !c.h5, ?_⟩
  by_cases asked : type = 0xe3 ∧ 2 ≤ info.length ∧ !c.h5
  · have status := speaks_mxSend c 0 false mxUih
      [0xe3, 0x05, mxAddr ((info.getD 0 0).toNat / 4) true, if false then 0x8d else 0x0d]
    exact (status.iff (iff_and_self.mpr fun _ => asked)).congr fun l => if_pos asked
  · exact ((Speaks.id c).iff (iff_of_false id fun h => asked h.1)).congr fun l => if_neg asked

/-- A command on DLCI 0 that is all there. -/
def controlOk : Bytes → Bool
  | _ :: len :: rest => len.toNat / 2 ≤ rest.length
  | _ => false

theorem speaks_mxControl (data : Bytes) :
    Speaks (fun c => c.mxControl data) c (c.off = false ∧ controlOk data = true) := by
  match data with
  | [] => exact (Speaks.id c).iff (by simp [controlOk])
  | [_] => exact (Speaks.id c).iff (by simp [controlOk])
  | type :: len :: rest =>
    by_cases short : rest.length < len.toNat / 2
    · exact ((Speaks.id c).iff (by simp [controlOk, short])).congr fun l => if_pos short
    let info := rest.take (len.toNat / 2)
    let reply (c : Core) := (c.noteClose type).mxSend 0 false mxUih (controlReply type info)
    have replied : Speaks reply c (c.off = false) := by
      have sent := speaks_mxSend (c.noteClose type) 0 false mxUih (controlReply type info)
      rw [noteClose_off] at sent
      exact (speaks_noteClose c type).silent_comp sent
    obtain ⟨asked, status⟩ := speaks_ownStatus (reply c) type info
    have off : (reply c).off = c.off := (h5Stream_off _ _).trans (noteClose_off c type)
    rw [off] at status
    refine ((replied.comp status).iff ?_).congr fun l => if_neg short
    simp [controlOk, Nat.le_of_not_lt short]

theorem speaks_setChan (dlci : Nat) (chan : AtChan) :
    Speaks (fun c => c.setChan dlci chan) c False :=
  .when (fun _ => .rfl)
    (.silent { c with modem := c.modem.setChan dlci chan } rfl (fun h => h) fun _ => rfl)

theorem setChan_off (dlci : Nat) (chan : AtChan) : (c.setChan dlci chan).off = c.off := by
  unfold setChan
  split
  · rfl
  · rfl

theorem speaks_setChan_canned (dlci : Nat) (chan : AtChan) (ctrl : UInt8) :
    Speaks (fun c => (c.setChan dlci chan).mxSendFrameCanned dlci ctrl) c (c.off = false) := by
  have sent := speaks_mxSendFrameCanned (c.setChan dlci chan) dlci ctrl
  rw [setChan_off] at sent
  exact (speaks_setChan c dlci chan).silent_comp sent

theorem speaks_pokeSim (dlci : Nat) : Speaks (fun c => c.pokeSim dlci) c False :=
  .when (fun _ => .rfl) (.silent { c with modem := { c.modem with xsimDueMs := c.now + 100 } } rfl
    (fun h => h) fun _ => rfl)

/-- A frame is replied to: a channel opened or closed, a control command, a line on a channel, or
anything else on a closed one. -/
def frameReplies (c : Core) (addr ctrl : UInt8) (data : Bytes) : Bool :=
  let dlci := addr.toNat / 4
  let kind := ctrlKind ctrl
  if kind = mxSabm then !c.off
  else if kind = mxDisc then !c.off
  else if kind = mxUih ∨ kind = mxUi then
    if dlci = 0 then !c.off && controlOk data
    else if maxCh ≤ dlci then false
    else if (c.modem.chans dlci).isOpen then c.chanReplies host dlci true data
    else !c.off
  else false

theorem speaks_mxRxFrame (addr ctrl : UInt8) (data : Bytes) :
    Speaks (fun c => c.mxRxFrame host addr ctrl data) c
      (c.frameReplies host addr ctrl data = true) := by
  let dlci := addr.toNat / 4
  let final := ctrl &&& mxPf
  let chan := c.modem.chans dlci
  have on : c.off = false ↔ (!c.off) = true := by simp
  have opened := speaks_setChan_canned c dlci { chan with isOpen := true } (mxUa ||| final)
  have closed := speaks_setChan_canned c dlci { line := chan.line.clear } (mxUa ||| final)
  have refused := speaks_mxSendFrameCanned c dlci (mxDm ||| final)
  refine .ite (fun _ => .rfl) (fun _ => ?_) fun _ => .ite (fun _ => .rfl) (fun _ => ?_) fun _ =>
    .ite (fun _ => .rfl) (fun _ => .ite (fun _ => .rfl) (fun _ => ?_) fun _ =>
      .ite (fun _ => .rfl) (fun _ => ?_) fun _ => .ite (fun _ => .rfl) (fun _ => ?_) fun _ => ?_)
      fun _ => ?_
  · exact ((opened.comp_silent (speaks_pokeSim _ dlci)).iff on).congr fun _ => rfl
  · exact (closed.iff on).congr fun _ => rfl
  · exact (speaks_mxControl c data).iff (by rw [and_eq_true, on])
  · exact (Speaks.id c).iff (by simp)
  · exact speaks_atChanInput host c dlci true data
  · exact refused.iff on
  · exact (Speaks.id c).iff (by simp)

def eventReplies (c : Core) : Option MuxEvent → Bool
  | none => false
  | some .wake => !c.off
  | some (.frame addr ctrl data) => c.frameReplies host addr ctrl data

theorem speaks_mxEvent (event : Option MuxEvent) :
    Speaks (fun c => c.mxEvent host event) c (c.eventReplies host event = true) := by
  match event with
  | none => exact (Speaks.id c).iff (by simp [eventReplies])
  | some .wake => exact (speaks_h5Stream c _).iff (by simp [eventReplies])
  | some (.frame addr ctrl data) => exact speaks_mxRxFrame host c addr ctrl data

theorem speaks_leaveMux : Speaks (fun c => c.leaveMux) c False :=
  .when (fun _ => .rfl) (.silent { c with muxLeave := false, mux := false, muxrx := {} } rfl
    (fun h => h) fun _ => rfl)

def mxByteReplies (c : Core) (b : UInt8) : Bool :=
  { c with muxrx := (c.muxrx.step b).1 }.eventReplies host (c.muxrx.step b).2

theorem speaks_mxByte (b : UInt8) :
    Speaks (fun c => c.mxByte host b) c (c.mxByteReplies host b = true) := by
  have receive : Speaks (fun d => { d with muxrx := (c.muxrx.step b).1 }) c False :=
    .silent { c with muxrx := (c.muxrx.step b).1 } rfl (fun h => h) fun _ => rfl
  have event := receive.silent_comp
    (speaks_mxEvent host { c with muxrx := (c.muxrx.step b).1 } (c.muxrx.step b).2)
  exact (event.comp_silent (speaks_leaveMux _)).congr fun l => rfl

/-- One of these bytes of the multiplexer's stream is replied to. -/
def mxReplies (host : Host) : Bytes → Core → Bool
  | [], _ => false
  | b :: rest, c => c.mxByteReplies host b || mxReplies host rest (c.mxByte host b)

theorem speaks_mxInput (data : Bytes) (c : Core) :
    Speaks (fun c => c.mxInput host data) c (mxReplies host data c = true) := by
  induction data generalizing c with
  | nil => exact (Speaks.id c).iff (by simp [mxReplies])
  | cons b rest ih =>
    refine ((speaks_mxByte host c b).comp (ih (c.mxByte host b))).iff ?_
    rw [mxReplies, or_eq_true]

/-- The payload of a packet is replied to. -/
def payloadReplies (c : Core) (data : Bytes) : Bool :=
  if c.mux then mxReplies host data c else c.chanReplies host 0 false data

theorem speaks_h5RxPayload (data : Bytes) :
    Speaks (fun c => c.h5RxPayload host data) c (c.payloadReplies host data = true) :=
  .ite (fun _ => .rfl) (fun _ => speaks_mxInput host data c)
    fun _ => speaks_atChanInput host c 0 false data

/-- A packet moves the link, then its payload is handled. -/
theorem h5RxPkt_eq (p : H5Buf) :
    c.h5RxPkt host p =
      match (c.link.h5RxPkt c.now p).2 with
      | some data => (c.withLink (c.link.h5RxPkt c.now p).1).h5RxPayload host data
      | none => c.withLink (c.link.h5RxPkt c.now p).1 := rfl

end Core

end QemuIos.Baseband

import QemuIos.Baseband.Proofs.Engine

/-!
# What input does to the core

Every path from the host's bytes to the engine and back is a sequence of a few primitive
changes (`Core.Prim`): something is written to the stream, the engine's state changes, the raw IP
buffer changes, or a mode is switched. A property of the transport is shown for these once and
holds of every command, every line and every frame.
-/

namespace QemuIos.Baseband
open CText Relation

/-- A step of the engine; commands come from a channel that exists. -/
inductive EngineStep (host : Host) : Modem → Modem → Prop where
  | clock (m : Modem) (now : Int) : EngineStep host m { m with nowMs := now }
  | buffer (m : Modem) (ch : Nat) (line : Buf 599) :
      EngineStep host m (m.setChan ch { m.chans ch with line })
  | line (m : Modem) (mode : Mode) {ch : Nat} (channel : ch < maxCh) (text : Bytes) :
      EngineStep host m (atCommand host mode m ch text).1
  | prompt (m : Modem) (ch : Nat) (send : Bool) : EngineStep host m (cmgsPromptCommit m ch send).1
  | opened (m : Modem) (ch : Nat) :
      EngineStep host m (m.setChan ch { m.chans ch with isOpen := true })
  | closed (m : Modem) (ch : Nat) :
      EngineStep host m (m.setChan ch { line := (m.chans ch).line.clear })
  | poke (m : Modem) : EngineStep host m { m with xsimDueMs := m.nowMs + 100 }
  | tick (m : Modem) : EngineStep host m (modemTick host m).1
  | gps (m : Modem) : EngineStep host m (gpsPoll host m).1
  | call {m : Modem} {number : Bytes} {o : Out} (accepted : incomingCall m number = some o) :
      EngineStep host m o.1
  | sms {m : Modem} {number text : Bytes} {o : Out}
      (accepted : incomingSms host m number text = some o) : EngineStep host m o.1
  | remoteAnswer (m : Modem) : EngineStep host m (remoteAnswer m).1
  | remoteHangup (m : Modem) : EngineStep host m (remoteHangup m).1
  | control {m : Modem} {change : Control} {o : Out} (accepted : m.control change = some o) :
      EngineStep host m o.1

abbrev EngineSteps (host : Host) := ReflTransGen (EngineStep host)

namespace Core

/-- A primitive change below the multiplexer's receiver. -/
inductive Prim (host : Host) : Core → Core → Prop where
  | stream (c : Core) (data : Bytes) : Prim host c (c.h5Stream data)
  | engine (c : Core) (m : Modem) (sameTime : m.nowMs = c.modem.nowMs)
      (steps : EngineSteps host c.modem m) : Prim host c { c with modem := m }
  | ip (c : Core) (buf : Bytes) (net : List Bytes) : Prim host c { c with ipRx := buf, net }
  | startH5 (c : Core) : Prim host c { c with h5 := true }
  | startMux (c : Core) : Prim host c { c with mux := true, muxrx := {} }
  | powerOff (c : Core) : Prim host c { c with off := true }
  | leaving (c : Core) : Prim host c { c with muxLeave := true }

/-- With the multiplexer's receiver. -/
inductive MuxPrim (host : Host) : Core → Core → Prop where
  | prim {c c' : Core} (step : Prim host c c') : MuxPrim host c c'
  | receive (c : Core) (muxrx : MuxRx) : MuxPrim host c { c with muxrx }
  | leave (c : Core) : MuxPrim host c { c with muxLeave := false, mux := false, muxrx := {} }

abbrev Moves (host : Host) := ReflTransGen (Prim host)
abbrev MuxMoves (host : Host) := ReflTransGen (MuxPrim host)

variable {host : Host}

theorem Moves.muxMoves {c c' : Core} (moves : Moves host c c') : MuxMoves host c c' := by
  induction moves with
  | refl => exact .refl
  | tail _ step ih => exact ih.tail (.prim step)

variable {c c' : Core}

theorem moves_stream (data : Bytes) : Moves host c (c.h5Stream data) :=
  .single (.stream c data)

theorem moves_mxSend (dlci : Nat) (cr : Bool) (ctrl : UInt8) (data : Bytes) :
    Moves host c (c.mxSend dlci cr ctrl data) :=
  moves_stream _

theorem moves_engine {m : Modem} (sameTime : m.nowMs = c.modem.nowMs)
    (steps : EngineSteps host c.modem m) : Moves host c { c with modem := m } :=
  .single (.engine c m sameTime steps)

theorem moves_runAct (act : Act) : Moves host c (c.runAct act) := by
  cases act with
  | write ch text =>
    unfold runAct chanWrite
    dsimp only
    split
    · exact moves_mxSend ch false mxUih text
    · exact moves_stream text
  | msc dlci dv => exact moves_mxSend 0 false mxUih _
  | ipReset => exact .single (.ip c [] c.net)
  | startH5 => exact .single (.startH5 c)
  | startMux => exact .single (.startMux c)
  | powerOff => exact .single (.powerOff c)

theorem moves_acts (c : Core) (acts : List Act) : Moves host c (acts.foldl runAct c) := by
  induction acts generalizing c with
  | nil => exact .refl
  | cons act acts ih => exact (moves_runAct act).trans (ih _)

theorem moves_runOut (c : Core) {o : Out} (sameTime : o.1.nowMs = c.modem.nowMs)
    (steps : EngineSteps host c.modem o.1) : Moves host c (c.runOut o) :=
  (moves_engine sameTime steps).trans (moves_acts _ o.2)

/-! ## The engine's state -/

theorem h5Stream_modem (c : Core) (data : Bytes) : (c.h5Stream data).modem = c.modem := by
  unfold h5Stream
  repeat' split
  all_goals rfl

theorem runAct_modem (act : Act) : (c.runAct act).modem = c.modem := by
  cases act with
  | write ch text =>
    unfold runAct chanWrite
    dsimp only
    split
    · exact h5Stream_modem c _
    · exact h5Stream_modem c _
  | msc dlci dv => exact h5Stream_modem c _
  | _ => rfl

theorem runOut_modem (c : Core) (o : Out) : (c.runOut o).modem = o.1 := by
  have acts : ∀ (acts : List Act) (c : Core), (acts.foldl runAct c).modem = c.modem := by
    intro acts
    induction acts with
    | nil => exact fun c => rfl
    | cons act acts ih => exact fun c => (ih _).trans (runAct_modem act)
  exact acts o.2 _

/-! ## Lines -/

theorem moves_dataChanFrom (fuel : Nat) (c : Core) (data : Bytes) :
    Moves host c (dataChanFrom fuel c data) := by
  induction fuel generalizing c data with
  | zero => exact .refl
  | succ fuel ih =>
    unfold dataChanFrom
    split
    · exact .refl
    · exact (ReflTransGen.single (.ip c _ _)).trans (ih _ _)

section

variable (mode : Mode) (m : Modem) (ch : Nat)

theorem keeps_line (line : Buf 599) : Keeps m (m.setChan ch { m.chans ch with line }) :=
  (Quiet.setChan m ch { m.chans ch with line } rfl fun _ => .inl rfl).toKeeps

theorem keeps_lineEnd : Keeps m (lineEnd host mode m ch).1 := by
  have cleared : ∀ o : Out, Keeps m o.1 →
      Keeps m (o.1.setChan ch { o.1.chans ch with line := (o.1.chans ch).line.clear }) :=
    fun o kept => kept.trans (keeps_line o.1 ch _)
  apply cleared
  have ended := keeps_line m ch (m.chans ch).line.terminate
  split
  · exact ended.trans (keeps_atCommand host mode _ ch _)
  · exact ended

theorem keeps_atByte (b : UInt8) : Keeps m (atByte host mode m ch b).1 := by
  unfold atByte
  dsimp only
  repeat' split
  · exact ((Quiet.walk 0).cmgsPromptCommit m ch true).toKeeps
  · exact ((Quiet.walk 0).cmgsPromptCommit m ch false).toKeeps
  · exact keeps_line m ch _
  · exact .of_fields rfl rfl
  · exact .of_fields rfl rfl
  · exact keeps_lineEnd mode m ch
  · exact .of_fields rfl rfl
  · exact keeps_line m ch _

variable {ch} (channel : ch < maxCh)
include channel

/-- The line is ended, run if it is a command, and emptied. -/
theorem steps_lineEnd : EngineSteps host m (lineEnd host mode m ch).1 := by
  refine ReflTransGen.tail ?_ (.buffer _ ch _)
  have ended : EngineStep host m (m.setChan ch
      { m.chans ch with line := (m.chans ch).line.terminate }) := .buffer m ch _
  split
  · exact .head ended (.single (.line _ mode channel _))
  · exact .single ended

theorem steps_atByte (b : UInt8) : EngineSteps host m (atByte host mode m ch b).1 := by
  unfold atByte
  dsimp only
  repeat' split
  · exact .single (.prompt m ch true)
  · exact .single (.prompt m ch false)
  · exact .single (.buffer m ch _)
  · exact .refl
  · exact .refl
  · exact steps_lineEnd mode m channel
  · exact .refl
  · exact .single (.buffer m ch _)

end

theorem moves_atBytes {ch : Nat} (channel : ch < maxCh) (fromMux zeroed : Bool) (data : Bytes)
    (c : Core) : Moves host c (atBytes host ch fromMux zeroed data c) := by
  induction data generalizing zeroed c with
  | nil => exact .refl
  | cons b rest ih =>
    exact (moves_runOut c (keeps_atByte c.mode c.modem ch _).nowMs
      (steps_atByte c.mode c.modem channel _)).trans (ih _ _)

theorem moves_atChanInput (c : Core) {ch : Nat} (channel : ch < maxCh) (fromMux : Bool)
    (data : Bytes) : Moves host c (c.atChanInput host ch fromMux data) := by
  unfold atChanInput
  split
  · exact moves_dataChanFrom _ c data
  · exact moves_atBytes channel fromMux false data c

/-! ## Frames -/

section

variable (c : Core)

theorem moves_noteClose (type : UInt8) : Moves host c (c.noteClose type) := by
  unfold noteClose
  split
  · exact .single (.leaving c)
  · exact .refl

theorem moves_ownStatus (type : UInt8) (info : Bytes) :
    Moves host c (c.ownStatus type info) := by
  unfold ownStatus
  split
  · exact moves_mxSend 0 false mxUih _
  · exact .refl

theorem moves_mxControl (data : Bytes) : Moves host c (c.mxControl data) := by
  unfold mxControl
  split
  · next type len rest =>
    split
    · exact .refl
    · exact ((moves_noteClose c type).trans (moves_mxSend 0 false mxUih _)).trans
        (moves_ownStatus _ type _)
  · exact .refl

theorem moves_setChan (dlci : Nat) {chan : AtChan}
    (step : EngineStep host c.modem (c.modem.setChan dlci chan)) :
    Moves host c (c.setChan dlci chan) := by
  unfold setChan
  split
  · exact moves_engine rfl (.single step)
  · exact .refl

theorem moves_pokeSim (dlci : Nat) : Moves host c (c.pokeSim dlci) := by
  unfold pokeSim
  split
  · exact moves_engine rfl (.single (.poke c.modem))
  · exact .refl

theorem moves_mxRxFrame (addr ctrl : UInt8) (data : Bytes) :
    Moves host c (c.mxRxFrame host addr ctrl data) := by
  have canned : ∀ (c : Core) (dlci : Nat) (ctrl : UInt8),
      Moves host c (c.mxSendFrameCanned dlci ctrl) :=
    fun c dlci ctrl => moves_mxSend dlci _ ctrl []
  unfold mxRxFrame
  extract_lets dlci kind final chan
  split
  · exact ((moves_setChan c dlci (.opened c.modem dlci)).trans (canned _ dlci _)).trans
      (moves_pokeSim _ dlci)
  · split
    · exact (moves_setChan c dlci (.closed c.modem dlci)).trans (canned _ dlci _)
    · split
      · split
        · exact moves_mxControl c data
        · split
          · exact .refl
          · next exists' =>
            split
            · exact moves_atChanInput c (Nat.lt_of_not_le exists') true data
            · exact canned c dlci _
      · exact .refl

theorem moves_mxEvent (event : Option MuxEvent) :
    Moves host c (c.mxEvent host event) := by
  match event with
  | none => exact .refl
  | some .wake => exact moves_stream _
  | some (.frame addr ctrl data) => exact moves_mxRxFrame c addr ctrl data

theorem muxMoves_leaveMux : MuxMoves host c c.leaveMux := by
  unfold leaveMux
  split
  · exact .single (.leave c)
  · exact .refl

theorem muxMoves_mxByte (b : UInt8) : MuxMoves host c (c.mxByte host b) :=
  ReflTransGen.trans (.head (.receive c _) (moves_mxEvent _ _).muxMoves) (muxMoves_leaveMux _)

theorem muxMoves_mxInput (data : Bytes) : MuxMoves host c (c.mxInput host data) := by
  induction data generalizing c with
  | nil => exact .refl
  | cons b rest ih => exact (muxMoves_mxByte c b).trans (ih _)

theorem muxMoves_h5RxPayload (data : Bytes) :
    MuxMoves host c (c.h5RxPayload host data) := by
  unfold h5RxPayload
  split
  · exact muxMoves_mxInput c data
  · exact (moves_atChanInput c (by decide) false data).muxMoves
end

end Core

end QemuIos.Baseband

import QemuIos.Baseband.Proofs.Core

/-!
# What an event does to the engine

Whatever happens to a core, its engine takes a few kinds of steps (`EngineStep`): a command line,
the end of a prompt, a channel opened or closed, a part of a tick, something from the network or a
control. A property that each of these keeps holds in every state of every run. What an event does
to the core as a whole is gone through once (`CoreWalk`).
-/

namespace QemuIos.Baseband
open CText Relation Option

theorem EngineSteps.keep {host : Host} {p : Modem → Prop}
    (step : ∀ {m m' : Modem}, EngineStep host m m' → p m → p m') {m m' : Modem}
    (steps : EngineSteps host m m') (first : p m) : p m' := by
  induction steps with
  | refl => exact first
  | tail _ last ih => exact step last ih

/-! ## What comes from the network -/

theorem incomingCall_some {m : Modem} {number : Bytes} {o : Out}
    (accepted : incomingCall m number = some o) :
    ∃ number' m' i, callNew m true number' .incoming = some (m', i) ∧ o = callRingUrcs i m' := by
  unfold incomingCall at accepted
  obtain ⟨_, -, rest⟩ := bind_eq_some_iff.mp accepted
  obtain ⟨⟨m', i⟩, made, done⟩ := bind_eq_some_iff.mp rest
  exact ⟨_, m', i, made, (some.inj done).symm⟩

theorem incomingSms_some {host : Host} {m : Modem} {number text : Bytes} {o : Out}
    (accepted : incomingSms host m number text = some o) :
    ∃ store next, o.1 = { m with store, storeNext := next } := by
  unfold incomingSms at accepted
  obtain ⟨_, -, rest⟩ := bind_eq_some_iff.mp accepted
  obtain ⟨⟨pdu, tpdu⟩, -, done⟩ := bind_eq_some_iff.mp rest
  exact ⟨_, _, congrArg Prod.fst (some.inj done).symm⟩

namespace Core

variable {host : Host} {c c' : Core}

/-! ## The packets received -/

theorem Prim.rx_eq (step : Prim host c c') : c'.rx = c.rx := by
  cases step with
  | stream data =>
    unfold h5Stream
    split
    · rfl
    split
    · rfl
    · split
      · rfl
      · rfl
  | _ => rfl

theorem MuxMoves.rx_eq (moves : MuxMoves host c c') : c'.rx = c.rx := by
  induction moves with
  | refl => rfl
  | tail _ step ih =>
    rw [← ih]
    cases step with
    | prim step => exact step.rx_eq
    | _ => rfl

theorem h5Byte_rx (host : Host) (c : Core) (b : UInt8) :
    (c.h5Byte host b).rx = (c.rx.step b).1 := by
  unfold h5Byte
  dsimp only
  split
  · unfold h5RxPkt
    dsimp only
    split
    · exact (MuxMoves.rx_eq (muxMoves_h5RxPayload _ _)).trans rfl
    · rfl
  · rfl

/-- The packets `h5_rx_pkt` is called with in an event. -/
def received (c : Core) : Event → List H5Buf
  | .input _ bytes =>
    if c.off then []
    else if c.h5 then (c.rx.feed bytes).2
    else if c.mux then []
    else (c.rx.feed (bytes.dropWhile (· ≠ Slip.delimiter))).2
  | _ => []

/-! ## Going through an event -/

/-- A relation between the cores before and after, and the packets received in between, that holds
of the parts of an event. -/
structure CoreWalk (host : Host) (R : Core → List H5Buf → Core → Prop) : Prop where
  trans : ∀ {c₁ c₂ c₃ ps qs}, R c₁ ps c₂ → R c₂ qs c₃ → R c₁ (ps ++ qs) c₃
  prim : ∀ {c c'}, MuxPrim host c c' → R c [] c'
  engine : ∀ c m, EngineSteps host c.modem m → R c [] { c with modem := m }
  receive : ∀ c rx, R c [] { c with rx }
  packet : ∀ c p, R c [p] { c with link := (c.link.h5RxPkt c.now p).1 }
  ack : ∀ c, R c [] c.pendingAck
  resend : ∀ c, R c [] c.retransmit

namespace CoreWalk

variable {R : Core → List H5Buf → Core → Prop} (walk : CoreWalk host R)
include walk

theorem refl (c : Core) : R c [] c := walk.engine c c.modem .refl

/-- Followed by something that receives no packet. -/
theorem andThen {c₁ c₂ c₃ : Core} {ps : List H5Buf} (first : R c₁ ps c₂) (second : R c₂ [] c₃) :
    R c₁ ps c₃ := by
  simpa using walk.trans first second

theorem moves (moves : MuxMoves host c c') : R c [] c' := by
  induction moves with
  | refl => exact walk.refl _
  | tail _ step ih => exact walk.andThen ih (walk.prim step)

variable (c : Core)

theorem runOut {o : Out} (steps : EngineSteps host c.modem o.1) : R c [] (c.runOut o) :=
  walk.andThen (walk.engine c o.1 steps) (walk.moves (moves_acts _ o.2).muxMoves)

theorem h5RxPkt (p : H5Buf) : R c [p] (c.h5RxPkt host p) := by
  have taken := walk.packet c p
  unfold Core.h5RxPkt
  dsimp only
  split
  · exact walk.andThen taken (walk.moves (muxMoves_h5RxPayload _ _))
  · exact taken

theorem h5Input (data : Bytes) : R c (c.rx.feed data).2 (c.h5Input host data) := by
  induction data generalizing c with
  | nil => exact walk.refl c
  | cons b rest ih =>
    have first : R c (c.rx.step b).2.toList (c.h5Byte host b) := by
      unfold h5Byte
      dsimp only
      split
      · next p completes =>
        rw [completes]
        exact walk.trans (walk.receive c _) (walk.h5RxPkt _ p)
      · next nothing =>
        rw [nothing]
        exact walk.receive c _
    have later := ih (c.h5Byte host b)
    rw [h5Byte_rx] at later
    exact walk.trans first later

theorem rawInput (data : Bytes) :
    R c (c.rx.feed (data.dropWhile (· ≠ Slip.delimiter))).2 (c.rawInput host data) := by
  unfold Core.rawInput
  extract_lets text frames c'
  have lines : R c [] c' ∧ c'.rx = c.rx := by
    unfold c'
    split
    · exact ⟨walk.refl c, rfl⟩
    have moves : MuxMoves host c (c.atChanInput host 0 false text) :=
      (moves_atChanInput c (by decide) false text).muxMoves
    exact ⟨walk.moves moves, moves.rx_eq⟩
  show R c (c.rx.feed frames).2 _
  split
  · next missing =>
    rw [missing]
    exact lines.1
  rw [← lines.2]
  have switched : R c' [] { c' with h5 := true } := walk.prim (.prim (.startH5 c'))
  exact walk.trans lines.1 (walk.trans switched (walk.h5Input _ frames))

theorem iosBbInput (now : Int) (bytes : Bytes) :
    R c (c.received (.input now bytes)) (c.iosBbInput host bytes) := by
  unfold Core.iosBbInput received
  cases c.off with
  | true => exact walk.refl c
  | false =>
    refine walk.andThen ?_ (walk.ack _)
    cases c.h5 with
    | true => exact walk.h5Input c bytes
    | false =>
      cases c.mux with
      | true => exact walk.moves (muxMoves_mxInput c bytes)
      | false => exact walk.rawInput c bytes

theorem clock (now : Int) : R c [] { c with modem := { c.modem with nowMs := now } } :=
  walk.engine c _ (.single (.clock c.modem now))

theorem iosBbTick (now : Int) : R c [] (c.iosBbTick host now) := by
  refine walk.andThen (walk.clock c now) ?_
  unfold Core.iosBbTick
  dsimp only
  split
  · exact walk.refl _
  · refine walk.andThen (walk.andThen (walk.runOut _ (.single (.tick _))) (walk.resend _)) ?_
    exact walk.runOut _ (.single (.gps _))

theorem iosBbDataInput (pkt : Bytes) : R c [] (c.iosBbDataInput pkt) := by
  unfold Core.iosBbDataInput
  split
  · next ch found =>
    clear found
    generalize List.range ((pkt.length + 1499) / 1500) = pieces
    induction pieces generalizing c with
    | nil => exact walk.refl c
    | cons k pieces ih => exact walk.andThen (walk.prim (.prim (.stream c _))) (ih _)
  · exact walk.refl c

theorem attempt {o : Option Out} (step : ∀ o', o = some o' → EngineStep host c.modem o'.1) :
    R c [] (c.attempt o) := by
  match o with
  | none => exact walk.refl c
  | some o' => exact walk.runOut c (.single (step o' rfl))

/-- Every event is made up of these parts. -/
theorem handle (e : Event) : R c (c.received e) (c.handle host e) := by
  cases e with
  | input now bytes => exact walk.trans (walk.clock c now) (walk.iosBbInput _ now bytes)
  | tick now => exact walk.iosBbTick c now
  | call number => exact walk.attempt c fun _ accepted => .call accepted
  | sms number text => exact walk.attempt c fun _ accepted => .sms accepted
  | data packet => exact walk.iosBbDataInput c packet
  | remoteAnswer => exact walk.runOut c (.single (.remoteAnswer c.modem))
  | remoteHangup => exact walk.runOut c (.single (.remoteHangup c.modem))
  | control change => exact walk.attempt c fun _ accepted => .control accepted

end CoreWalk

/-! ## The engine -/

/-- The engine of the second core is reached from the first's. -/
def Engine (host : Host) (c c' : Core) : Prop := EngineSteps host c.modem c'.modem

theorem retransmit_modem : c.retransmit.modem = c.modem := by
  unfold retransmit
  split
  · rfl
  · rfl

theorem iosBbTick_modem (c : Core) (now : Int) (on : c.off = false) :
    (c.iosBbTick host now).modem =
      (gpsPoll host (modemTick host { c.modem with nowMs := now }).1).1 := by
  unfold iosBbTick
  dsimp only
  rw [if_neg (by simp [on]), runOut_modem, retransmit_modem, runOut_modem]

theorem engine_walk : CoreWalk host fun c _ c' => Engine host c c' where
  trans first second := ReflTransGen.trans first second
  prim step := by
    rcases step with (⟨data⟩ | ⟨m, _, steps⟩ | _ | _ | _ | _ | _) | _ | _
    · rw [Engine, h5Stream_modem]
    · exact steps
    all_goals exact .refl
  engine c m steps := steps
  receive c rx := .refl
  packet c p := .refl
  ack c := by
    unfold pendingAck
    split
    · exact .refl
    · exact .refl
  resend c := by rw [Engine, retransmit_modem]

/-- Every event moves the engine by steps. -/
theorem engine_run (c : Core) (events : List Event) : Engine host c (c.run host events) := by
  induction events generalizing c with
  | nil => exact .refl
  | cons e events ih => exact ReflTransGen.trans (engine_walk.handle c e) (ih _)

end Core

end QemuIos.Baseband

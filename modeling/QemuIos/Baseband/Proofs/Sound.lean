import QemuIos.Baseband.Proofs.Steps

/-!
# Periods and channels

Two things that every step of the engine keeps: a timer that comes again has a period, and the
channels the engine reports on exist.
-/

namespace QemuIos.Baseband
open CText Modem

/-- What comes again comes again later, and a burst has two halves. -/
structure Timed (m : Modem) : Prop where
  temp : m.tempDueMs ≠ 0 → 0 < m.tempPeriodMs
  gps : 0 ≤ m.gps.ch → 0 < m.gps.intervalMs
  burst : m.reg.regStep ≤ 2

/-- The channels the engine reports on. -/
def Modem.ports (m : Modem) : List Int :=
  [m.reg.cregCh, m.xcievCh, m.callCh, m.smsCh, m.xsigstrCh, m.xsimCh, m.tempCh, m.ctzrCh, m.gps.ch]

def Channels (m : Modem) : Prop := ∀ ch ∈ m.ports, ch < maxCh

/-- The fields behind `Timed`. -/
def Modem.periods (m : Modem) : Int × Int × Gps × Nat :=
  (m.tempDueMs, m.tempPeriodMs, m.gps, m.reg.regStep)

/-- A step keeps both. -/
structure Sound (m m' : Modem) : Prop where
  timed : Timed m → Timed m'
  channels : Channels m → Channels m'

namespace Sound

variable {m m' : Modem}

theorem timed_of_periods (periods : m'.periods = m.periods) (timed : Timed m) : Timed m' := by
  obtain ⟨due, period, gps, burst⟩ : m'.tempDueMs = m.tempDueMs ∧
      m'.tempPeriodMs = m.tempPeriodMs ∧ m'.gps = m.gps ∧ m'.reg.regStep = m.reg.regStep := by
    simpa [Modem.periods] using periods
  exact ⟨by rw [due, period]; exact timed.temp, by rw [gps]; exact timed.gps,
    by rw [burst]; exact timed.burst⟩

/-- Reports may move to another channel that exists. -/
theorem channels_of_ports (ports : ∀ port ∈ m'.ports, port ∈ m.ports ∨ port < maxCh)
    (channels : Channels m) : Channels m' :=
  fun port inside => (ports port inside).elim (channels port) id

theorem of_same (periods : m'.periods = m.periods) (ports : m'.ports = m.ports) : Sound m m' where
  timed := timed_of_periods periods
  channels := channels_of_ports fun _ inside => .inl (ports ▸ inside)

theorem of_board (same : SameBoard m m') : Sound m m' := by
  simp only [SameBoard, board, Prod.mk.injEq, List.cons.injEq] at same
  obtain ⟨-, -, -, reg, gps, due, period, xciev, call, sms, xsigstr, xsim, temp, ctzr, -⟩ := same
  apply of_same
  · simp only [periods, due, period, gps, reg]
  · simp only [ports, reg, xciev, call, sms, xsigstr, xsim, temp, ctzr, gps]

theorem refl (m : Modem) : Sound m m := ⟨id, id⟩

theorem trans {m₁ m₂ m₃ : Modem} (first : Sound m₁ m₂) (second : Sound m₂ m₃) : Sound m₁ m₃ :=
  ⟨second.timed ∘ first.timed, second.channels ∘ first.channels⟩

theorem chains : Chains Sound := ⟨refl, trans⟩

theorem burst {reg : Reg} (half : reg.regStep = m.reg.regStep ∨ reg.regStep ≤ 2)
    (cregCh : reg.cregCh = m.reg.cregCh) : Sound m { m with reg } where
  timed timed := ⟨timed.temp, timed.gps, half.elim (fun same => same ▸ timed.burst) id⟩
  channels channels := by
    simp only [Channels, ports, cregCh]
    exact channels

end Sound

/-! ## Commands -/

theorem sound_temperatureCommand (m : Modem) {ch : Nat} (channel : ch < maxCh) (n : Int) :
    Sound m (temperatureCommand m ch n).1 where
  timed timed := by
    refine ⟨?_, timed.gps, timed.burst⟩
    unfold temperatureCommand
    dsimp only
    split
    · intro _
      omega
    · exact fun stopped => absurd rfl stopped
  channels := Sound.channels_of_ports (by simp [ports, channel, temperatureCommand])

theorem sound_learnChannel (m : Modem) {ch : Nat} (channel : ch < maxCh) (cmd : Bytes) :
    Sound m (learnChannel m ch cmd) := by
  unfold learnChannel
  repeat' split
  all_goals exact ⟨Sound.timed_of_periods rfl,
    Sound.channels_of_ports (by simp [ports, channel])⟩

/-- A session goes on, stops, or starts on the channel of the command. -/
theorem sound_gps (m : Modem) {ch : Nat} (channel : ch < maxCh) {g : Gps}
    (moves : g.ch = m.gps.ch ∧ g.intervalMs = m.gps.intervalMs ∨
      (0 ≤ g.ch → g.ch = (ch : Int) ∧ 0 < g.intervalMs)) : Sound m { m with gps := g } where
  timed timed := by
    refine ⟨timed.temp, ?_, timed.burst⟩
    rcases moves with ⟨same, period⟩ | started
    · rw [same, period]
      exact timed.gps
    · exact fun session => (started session).2
  channels := by
    refine Sound.channels_of_ports fun port inside => ?_
    by_cases isGps : port = g.ch
    · rcases moves with ⟨same, -⟩ | started
      · exact .inl (by simp [ports, isGps, same])
      right
      rcases lt_or_ge g.ch 0 with closed | session
      · omega
      · rw [isGps, (started session).1]
        exact_mod_cast channel
    · left
      simp only [ports, List.mem_cons, List.mem_nil_iff, or_false, isGps] at inside ⊢
      tauto

theorem Sound.walk {ch : Nat} (channel : ch < maxCh) : FullWalk ch Sound where
  refl := .refl
  trans := .trans
  rest same _ _ := .of_board same
  chan _ _ _ _ _ := .of_same rfl rfl
  release _ _ := .of_same rfl rfl
  temperature m n := sound_temperatureCommand m channel n
  zone m on := ⟨Sound.timed_of_periods rfl,
    Sound.channels_of_ports (by simp [ports, channel])⟩
  reg _ _ half cregCh _ := .burst half cregCh
  startMux _ := .of_same rfl rfl
  sim _ _ _ := .of_same rfl rfl
  learn m cmd := sound_learnChannel m channel cmd
  gps m _ := sound_gps m channel

/-! ## Ticks and the network -/

/-- What does not come from a channel. -/
theorem Sound.walk' : FullWalk 0 Sound := Sound.walk (by decide)

theorem sound_regTurn (host : Host) (m : Modem) : Sound m (regTurn host m).1 := by
  have notice : ∀ m : Modem, Sound m (regNotice m) := by
    intro m
    unfold regNotice
    repeat' split
    · exact .burst (.inr le_rfl) rfl
    · exact Sound.walk'.schedule m
    · exact .refl m
  have ended : ∀ m : Modem, Sound m { m with reg := { m.reg with regStep := 0 } } :=
    fun m => .burst (.inr (Nat.zero_le 2)) rfl
  refine (notice m).trans (Sound.chains.when ?_)
  generalize regNotice m = m
  unfold regTick
  dsimp only
  split
  · exact ended m
  · split
    · split
      · exact .burst (.inr le_rfl) rfl
      · exact .burst (.inr (Nat.zero_le 2)) rfl
    · have told : Sound m { m with reg := { m.reg with lastCreg := 1 } } := .burst (.inl rfl) rfl
      refine Sound.chains.when ?_
      exact Sound.chains.andThen (Sound.chains.andThen told fun m => .of_board (board_emitXciev m))
        ended

theorem sound_tempTurn (m : Modem) : Sound m (tempTurn m).1 := by
  unfold tempTurn
  split
  · next due =>
    exact ⟨fun timed => ⟨fun _ => timed.temp due.1, timed.gps, timed.burst⟩, id⟩
  · exact .refl m

theorem sound_modemTick (host : Host) (m : Modem) : Sound m (modemTick host m).1 := by
  have chains := Sound.chains
  refine chains.andThen (chains.andThen (chains.andThen ?_ sound_tempTurn) ?_) (chains.forEach ?_ _)
  · exact (Sound.walk'.campUpdate m).trans (sound_regTurn host _)
  · exact fun m => .of_board (board_xsimTurn m)
  · exact fun i m => .of_board (board_callTick i m)

/-- Every step of the engine keeps both. -/
theorem sound_step {host : Host} {m m' : Modem} (step : EngineStep host m m') : Sound m m' := by
  cases step with
  | clock now => exact .of_same rfl rfl
  | buffer ch line => exact .of_same rfl rfl
  | line mode channel text =>
    exact (Sound.walk channel).atCommand m .of_board mode fun _ _ _ _ _ => .burst (.inl rfl) rfl
  | prompt ch send => exact Sound.walk'.cmgsPromptCommit m ch send
  | opened ch => exact .of_same rfl rfl
  | closed ch => exact .of_same rfl rfl
  | poke => exact .of_same rfl rfl
  | tick => exact sound_modemTick host m
  | gps => exact Sound.walk'.gpsPoll m host
  | call accepted =>
    obtain ⟨number, m', i, made, rfl⟩ := incomingCall_some accepted
    exact (Sound.of_board (board_callNew made)).trans (.of_same rfl rfl)
  | sms accepted =>
    obtain ⟨store, next, same⟩ := incomingSms_some accepted
    rw [same]
    exact .of_same rfl rfl
  | remoteAnswer =>
    unfold remoteAnswer
    split
    · exact .of_same rfl rfl
    · exact .refl m
  | remoteHangup =>
    unfold remoteHangup
    split
    · exact .of_same rfl rfl
    · exact .refl m
  | control accepted => exact Sound.walk'.control accepted

end QemuIos.Baseband

import QemuIos.Baseband.Due
import QemuIos.Baseband.Proofs.Sound
import QemuIos.Baseband.Proofs.Registration
import QemuIos.Baseband.Proofs.Acknowledge
import QemuIos.Baseband.Proofs.Calls

/-!
# Ticks

After a tick nothing is due, and a tick before the next due time does nothing. There is one
exception: a burst whose second half comes due after the registration it reports has been lost.
It leaves a host that was told the wrong thing and no timer to put that right.
-/

namespace QemuIos.Baseband
open CText List Baseband.Core Bool

/-! ## What each part of a tick does -/

/-- A search that is possible runs, and its end is noted. -/
def Searched (m : Modem) (due : Int) (noted : Bool) : Prop :=
  if campPossible m then due ≠ 0 ∧ (due ≤ m.nowMs → noted = true) else due = 0

theorem campUpdate_eq (m : Modem) :
    ∃ due noted s, campUpdate m =
        { m with reg := { m.reg with campDueMs := due, campNoted := noted }, sim := s } ∧
      s.locked = m.sim.locked ∧ Searched m due noted := by
  have search := searchTime_pos m
  unfold campUpdate Searched
  by_cases possible : campPossible m = true
  · rw [if_neg (by simp [possible])]
    simp only [if_pos possible]
    by_cases fresh : m.reg.campDueMs = 0
    · rw [if_pos fresh]
      refine ⟨_, false, m.sim, rfl, rfl, ?_⟩
      split
      · exact ⟨by decide, fun found => by omega⟩
      · exact ⟨by assumption, fun found => by omega⟩
    · rw [if_neg fresh]
      by_cases found : m.reg.campDueMs ≤ m.nowMs ∧ (!m.reg.campNoted) = true
      · rw [if_pos found]
        by_cases moved : m.sim.lociPlmn ≠ m.reg.plmn
        · exact ⟨m.reg.campDueMs, true, _, if_pos moved, save_locked _, fresh, fun _ => rfl⟩
        · exact ⟨m.reg.campDueMs, true, m.sim, if_neg moved, rfl, fresh, fun _ => rfl⟩
      · rw [if_neg found]
        refine ⟨m.reg.campDueMs, m.reg.campNoted, m.sim, rfl, rfl, fresh, fun ended => ?_⟩
        simpa [ended] using found
  · rw [if_pos (by simp [possible])]
    simp only [if_neg possible]
    exact ⟨0, m.reg.campNoted, m.sim, rfl, rfl, rfl⟩

/-- The second half of a burst is due and no longer true, to a host that asked for reports. -/
def staleBurst (m : Modem) : Bool :=
  m.reg.regStep = 2 && m.reg.regDueMs ≤ m.nowMs && m.isOpen m.reg.cregCh && m.reg.cfun = 1 &&
    0 < m.reg.cregN && !camped m

theorem emitXciev_eq (m : Modem) :
    ∃ rssi batt, (emitXciev m).1 = { m with lastRssi := rssi, lastBatt := batt } := by
  unfold emitXciev
  split
  · exact ⟨m.lastRssi, m.lastBatt, rfl⟩
  · exact ⟨_, _, rfl⟩

/-- What a tick leaves of a burst: another half comes later, or the host has heard what it should
hear, a stale burst apart. -/
def Turned (m : Modem) (step : Nat) (due last : Int) : Prop :=
  (step ≠ 0 → m.nowMs < due) ∧
  (step = 0 → 0 < m.reg.cregN → m.isOpen m.reg.cregCh = true → m.reg.cfun = 1 →
    last = if staleBurst m then 1 else regStat m) ∧
  (staleBurst m = true → step = 0)

theorem staleBurst_of_step (step : m.reg.regStep ≠ 2) : staleBurst m = false := by
  simp [staleBurst, step]

theorem staleBurst_step (stale : staleBurst m = true) : m.reg.regStep = 2 := by
  by_contra other
  rw [staleBurst_of_step other] at stale
  cases stale

theorem staleBurst_due (stale : staleBurst m = true) : m.reg.regDueMs ≤ m.nowMs := by
  simp only [staleBurst, and_eq_true, decide_eq_true_eq] at stale
  exact stale.1.1.1.1.2

theorem regStat_of_isCamped (found : camped m = true) : regStat m = 1 := by
  unfold camped campPossible at found
  simp only [and_eq_true, decide_eq_true_eq, not_eq_true'] at found
  exact regStat_eq_one.mpr ⟨found.1.1.1.1.1, found.1.1.1.1.2, found.1.1.1.2, found.1.1.2, found.1.2,
    found.2⟩

/-- Nothing is scheduled, a burst is, or the search has found the cell. -/
theorem regNotice_cases (m : Modem) :
    (regNotice m = m ∧ (m.reg.regStep = 0 → 0 < m.reg.cregN → m.isOpen m.reg.cregCh = true →
      m.reg.cfun = 1 → m.reg.lastCreg = regStat m)) ∨
    (m.reg.regStep = 0 ∧
      regNotice m = { m with reg := { m.reg with regStep := 1, regDueMs := m.nowMs + 300 } }) ∨
    (regStat m = 1 ∧ m.reg.regStep = 0 ∧ m.isOpen m.reg.cregCh = true ∧
      regNotice m = { m with reg := { m.reg with regStep := 2, regDueMs := m.nowMs } }) := by
  unfold regNotice
  split
  · next notice =>
    split
    · next found => exact .inr (.inr ⟨found.1, notice.1, notice.2.2.1, rfl⟩)
    unfold regSchedule
    split
    · next off => exact .inl ⟨rfl, fun _ _ _ on => absurd on off⟩
    · exact .inr (.inl ⟨notice.1, rfl⟩)
  · next calm =>
    refine .inl ⟨rfl, fun idle wanted isOpen on => ?_⟩
    by_contra differs
    exact calm ⟨idle, wanted, isOpen, Ne.symm differs⟩

variable (host : Host)

/-- A half of a burst that is due: the other half comes later, or the host hears the present
state, or that it is registered. -/
theorem regTick_eq (half : m.reg.regStep = 1 ∨ m.reg.regStep = 2) :
    ∃ step due last rssi batt, (regTick host m).1 =
        { m with
          reg := { m.reg with regStep := step, regDueMs := due, lastCreg := last }
          lastRssi := rssi, lastBatt := batt } ∧
      (step ≠ 0 → m.nowMs < due) ∧
      (step = 0 → m.isOpen m.reg.cregCh = true →
        last = if m.reg.regStep = 2 then 1 else regStat m) ∧
      (m.reg.regStep = 2 → step = 0) := by
  unfold regTick
  dsimp only
  by_cases closed : (!m.isOpen m.reg.cregCh) = true
  · rw [if_pos closed]
    exact ⟨0, m.reg.regDueMs, m.reg.lastCreg, m.lastRssi, m.lastBatt, rfl, fun no => absurd rfl no,
      fun _ isOpen => by simp [isOpen] at closed, fun _ => rfl⟩
  · rw [if_neg closed]
    rcases half with first | second
    · rw [if_pos first]
      by_cases found : regStat m = 1
      · rw [if_pos found]
        exact ⟨2, m.nowMs + 400, 2, m.lastRssi, m.lastBatt, rfl, fun _ => by omega,
          fun no => absurd no (by decide), fun no => by omega⟩
      · rw [if_neg found]
        refine ⟨0, m.reg.regDueMs, regStat m, m.lastRssi, m.lastBatt, rfl, fun no => absurd rfl no,
          fun _ _ => ?_, fun _ => rfl⟩
        rw [if_neg (by rw [first]; decide)]
    · rw [if_neg (by rw [second]; decide), if_pos second]
      obtain ⟨rssi, batt, told⟩ := emitXciev_eq { m with reg := { m.reg with lastCreg := 1 } }
      refine ⟨0, m.reg.regDueMs, 1, rssi, batt, ?_, fun no => absurd rfl no, fun _ _ => ?_,
        fun _ => rfl⟩
      · simp only [Out.andThen, told]
      · rw [if_pos second]

theorem regTurn_eq (burst : m.reg.regStep ≤ 2) :
    ∃ step due last rssi batt, (regTurn host m).1 =
        { m with
          reg := { m.reg with regStep := step, regDueMs := due, lastCreg := last }
          lastRssi := rssi, lastBatt := batt } ∧
      Turned m step due last := by
  unfold regTurn
  dsimp only
  rcases regNotice_cases m with ⟨same, knows⟩ | ⟨idle, scheduled⟩ | ⟨found, idle, isOpen, now⟩
  · rw [same]
    by_cases isDue : m.reg.regStep ≠ 0 ∧ m.reg.regDueMs ≤ m.nowMs
    · rw [if_pos isDue]
      obtain ⟨step, due, last, rssi, batt, after, later, told, ends⟩ :=
        regTick_eq host (m := m) (by omega)
      refine ⟨step, due, last, rssi, batt, after, later, fun ended wanted isOpen on => ?_,
        fun stale => ends (staleBurst_step stale)⟩
      rw [told ended isOpen]
      by_cases second : m.reg.regStep = 2
      · rw [if_pos second]
        split
        · rfl
        · next notStale =>
          have found : camped m = true := by
            simpa [staleBurst, second, isDue.2, isOpen, on, wanted] using notStale
          exact (regStat_of_isCamped found).symm
      · rw [if_neg second, staleBurst_of_step second]
        rfl
    · rw [if_neg isDue]
      refine ⟨m.reg.regStep, m.reg.regDueMs, m.reg.lastCreg, m.lastRssi, m.lastBatt, rfl, ?_, ?_,
        ?_⟩
      · intro half
        by_contra late
        exact isDue ⟨half, not_lt.mp late⟩
      · intro idle wanted isOpen on
        rw [knows idle wanted isOpen on, staleBurst_of_step (by rw [idle]; decide)]
        rfl
      · intro stale
        exact absurd ⟨by rw [staleBurst_step stale]; decide, staleBurst_due stale⟩ isDue
  · rw [scheduled, if_neg (by dsimp only; omega)]
    exact ⟨1, m.nowMs + 300, m.reg.lastCreg, m.lastRssi, m.lastBatt, rfl, fun _ => by omega,
      fun no => absurd no (by decide), fun stale => by
        rw [staleBurst_step stale] at idle; cases idle⟩
  · rw [now, if_pos ⟨Nat.succ_ne_zero 1, le_refl m.nowMs⟩]
    obtain ⟨step, due, last, rssi, batt, after, later, told, ends⟩ := regTick_eq host
      (m := { m with reg := { m.reg with regStep := 2, regDueMs := m.nowMs } }) (.inr rfl)
    refine ⟨step, due, last, rssi, batt, after, later, fun ended _ _ _ => ?_, fun _ => ends rfl⟩
    rw [told ended isOpen, staleBurst_of_step (by rw [idle]; decide), found]
    rfl

theorem tempTurn_eq (period : m.tempDueMs ≠ 0 → 0 < m.tempPeriodMs) :
    ∃ due, (tempTurn m).1 = { m with tempDueMs := due } ∧ (due ≠ 0 → m.nowMs < due) := by
  unfold tempTurn
  split
  · next isDue =>
    have positive := period isDue.1
    exact ⟨_, rfl, fun _ => by omega⟩
  · next notDue =>
    refine ⟨m.tempDueMs, rfl, fun runs => ?_⟩
    by_contra ended
    exact notDue ⟨runs, not_lt.mp ended⟩

theorem xsimTurn_eq (m : Modem) :
    ∃ due last pushed, (xsimTurn m).1 =
        { m with xsimDueMs := due, simLast := last, xsimPushed := pushed } ∧
      (due ≠ 0 → m.nowMs < due) := by
  unfold xsimTurn
  split
  · dsimp only
    split
    · exact ⟨0, _, _, rfl, fun no => absurd rfl no⟩
    · exact ⟨0, m.simLast, m.xsimPushed, rfl, fun no => absurd rfl no⟩
  · next notDue =>
    refine ⟨m.xsimDueMs, m.simLast, m.xsimPushed, rfl, fun runs => ?_⟩
    by_contra ended
    exact notDue ⟨runs, not_lt.mp ended⟩

/-- A call that waits for something waits for later. -/
def Call.Waits (c : Call) (now : Int) : Prop := c.used = true → c.next ≠ .none → now < c.dueMs

theorem Call.waits_ticked (m : Modem) (c : Call) : (c.ticked m).Waits m.nowMs := by
  unfold Call.ticked
  split
  · next unused => exact fun used => by simp [used] at unused
  split
  · split
    · exact fun _ waits => absurd rfl waits
    · intro _ _
      dsimp only
      omega
  · next rings =>
    split
    · next isDue =>
      match next : c.next with
      | .none => exact fun _ waits => absurd next waits
      | .ring => exact absurd ⟨next, isDue⟩ rings
      | .stat .alerting =>
        dsimp only
        split
        · intro _ _
          dsimp only
          split
          · omega
          · omega
        · exact fun _ waits => absurd rfl waits
      | .stat .active => exact fun _ waits => absurd rfl waits
      | .stat .held | .stat .dialing | .stat .incoming | .stat .waiting | .stat .released =>
        exact fun _ waits => absurd rfl waits
    · next early => exact fun _ _ => not_le.mp early

theorem callTicks_eq (is : List Nat) (m : Modem) :
    ∃ calls, (forEach is callTick m).1 = { m with calls } ∧
      ∀ i, (i ∈ is ∨ (m.calls i).Waits m.nowMs) → (calls i).Waits m.nowMs := by
  have loop : ∀ o : Out, ∃ calls,
      (is.foldl (fun o i => o.andThen (callTick i)) o).1 = { o.1 with calls } ∧
        ∀ i, (i ∈ is ∨ (o.1.calls i).Waits o.1.nowMs) → (calls i).Waits o.1.nowMs := by
    induction is with
    | nil => exact fun o => ⟨o.1.calls, rfl, fun i waits => waits.resolve_left (not_mem_nil)⟩
    | cons i is ih =>
      intro o
      have waits := (o.1.calls i).waits_ticked o.1
      obtain ⟨calls, rest, all⟩ := ih (o.andThen (callTick i))
      have first : (o.andThen (callTick i)).1 =
          { o.1 with calls := Function.update o.1.calls i ((o.1.calls i).ticked o.1) } :=
        callTick_fst i o.1
      rw [first] at rest all
      refine ⟨calls, rest, fun j turned => all j ?_⟩
      by_cases same : j = i
      · right
        rw [same]
        simpa using waits
      rcases turned with inside | before
      · exact .inl ((mem_cons.mp inside).resolve_left same)
      · right
        simpa [Function.update_of_ne same] using before
  exact loop (m, [])

theorem gpsPoll_eq (period : 0 ≤ m.gps.ch → 0 < m.gps.intervalMs) :
    ∃ due, (gpsPoll host m).1 = { m with gps := { m.gps with dueMs := due } } ∧
      (0 ≤ m.gps.ch → due ≠ 0 → m.nowMs < due) := by
  unfold gpsPoll
  dsimp only
  split
  · next idle =>
    refine ⟨m.gps.dueMs, rfl, fun session runs => ?_⟩
    omega
  · next isDue =>
    refine ⟨_, rfl, fun session _ => ?_⟩
    have positive := period session
    omega

/-! ## After a tick -/

/-- Nothing is due at the present time. -/
structure Rests (m : Modem) : Prop where
  camp : Searched m m.reg.campDueMs m.reg.campNoted
  reg : m.reg.regStep ≠ 0 → m.nowMs < m.reg.regDueMs
  temp : m.tempDueMs ≠ 0 → m.nowMs < m.tempDueMs
  xsim : m.xsimDueMs ≠ 0 → m.nowMs < m.xsimDueMs
  calls : ∀ i < maxCalls, (m.calls i).Waits m.nowMs
  gps : 0 ≤ m.gps.ch → m.gps.dueMs ≠ 0 → m.nowMs < m.gps.dueMs

/-- A host that asked for reports, with none under way. -/
def Listens (m : Modem) : Prop :=
  m.reg.regStep = 0 ∧ 0 < m.reg.cregN ∧ m.isOpen m.reg.cregCh = true ∧ m.reg.cfun = 1

theorem camped_iff : camped m = true ↔ regStat m = 1 := by
  refine ⟨regStat_of_isCamped, fun found => ?_⟩
  obtain ⟨on, attached, unlocked, registered, runs, ended⟩ := regStat_eq_one.mp found
  simp [camped, campPossible, on, attached, unlocked, registered, runs, ended]

theorem staleBurst_congr {m' : Modem} (nowMs : m'.nowMs = m.nowMs) (chans : m'.chans = m.chans)
    (step : m'.reg.regStep = m.reg.regStep) (due : m'.reg.regDueMs = m.reg.regDueMs)
    (cregCh : m'.reg.cregCh = m.reg.cregCh) (cfun : m'.reg.cfun = m.reg.cfun)
    (cregN : m'.reg.cregN = m.reg.cregN) (stat : regStat m' = regStat m) :
    staleBurst m' = staleBurst m := by
  have found : camped m' = camped m := by
    rw [Bool.eq_iff_iff, camped_iff, camped_iff, stat]
  simp only [staleBurst, Modem.isOpen, nowMs, chans, step, due, cregCh, cfun, cregN, found]

/-- The engine's state after a tick. -/
def ticked (host : Host) (m : Modem) : Modem := (gpsPoll host (modemTick host m).1).1

theorem rests_ticked (timed : Timed m) :
    Rests (ticked host m) ∧ (ticked host m).nowMs = m.nowMs ∧
      (Listens (ticked host m) → (ticked host m).reg.lastCreg =
        if staleBurst m then 1 else regStat (ticked host m)) ∧
      (staleBurst m = true → Listens (ticked host m) ∧ regStat (ticked host m) ≠ 1) := by
  have chain : ticked host m = (gpsPoll host (forEach (range maxCalls) callTick
      (xsimTurn (tempTurn (regTurn host (campUpdate m)).1).1).1).1).1 := by
    simp only [ticked, modemTick, Out.andThen]
  have stat := (camps_campUpdate m).stat
  -- each part changes a few fields of the state before it
  obtain ⟨campDue, noted, s, camp, locked, searched⟩ := campUpdate_eq m
  generalize campUpdate m = m₁ at chain stat camp
  obtain ⟨step, due, last, rssi, batt, reg, later, knows, ends⟩ :=
    regTurn_eq host (m := m₁) (by rw [camp]; exact timed.burst)
  generalize (regTurn host m₁).1 = m₂ at chain reg
  obtain ⟨tempDue, temp, tempLater⟩ := tempTurn_eq (m := m₂) (by rw [reg, camp]; exact timed.temp)
  generalize (tempTurn m₂).1 = m₃ at chain temp
  obtain ⟨xsimDue, simLast, pushed, xsim, xsimLater⟩ := xsimTurn_eq m₃
  generalize (xsimTurn m₃).1 = m₄ at chain xsim
  obtain ⟨calls, turns, waits⟩ := callTicks_eq (range maxCalls) m₄
  generalize (forEach (range maxCalls) callTick m₄).1 = m₅ at chain turns
  obtain ⟨gpsDue, gps, gpsLater⟩ :=
    gpsPoll_eq host (m := m₅) (by rw [turns, xsim, temp, reg, camp]; exact timed.gps)
  rw [gps] at chain
  have stale : staleBurst m₁ = staleBurst m := by
    rw [camp] at stat ⊢
    exact staleBurst_congr rfl rfl rfl rfl rfl rfl rfl stat
  rw [stale] at knows ends
  subst turns xsim temp reg camp
  dsimp only at chain later knows stat tempLater xsimLater waits gpsLater
  have same : regStat (ticked host m) = regStat m := by
    rw [chain, ← stat]
    exact regStat_congr rfl rfl rfl rfl rfl rfl
  have possible : campPossible (ticked host m) = campPossible m := by
    rw [chain]
    simp only [campPossible, locked]
  generalize ticked host m = m' at chain same possible ⊢
  subst chain
  refine ⟨⟨?_, later, tempLater, xsimLater, fun i inside => waits i (.inl (mem_range.mpr inside)),
    gpsLater⟩, rfl, ?_, ?_⟩
  · unfold Searched at searched ⊢
    rw [possible]
    exact searched
  · rintro ⟨ended, wanted, isOpen, on⟩
    rw [same, ← stat]
    exact knows ended wanted isOpen on
  · intro isStale
    rw [same]
    have ended := ends isStale
    simp only [staleBurst, and_eq_true, decide_eq_true_eq, not_eq_true'] at isStale
    obtain ⟨⟨⟨⟨⟨-, -⟩, isOpen⟩, on⟩, wanted⟩, lost⟩ := isStale
    refine ⟨⟨ended, wanted, isOpen, on⟩, fun found => ?_⟩
    rw [camped_iff.mpr found] at lost
    cases lost

/-! ## A tick with nothing to do -/

theorem campUpdate_idle (searched : Searched m m.reg.campDueMs m.reg.campNoted) :
    campUpdate m = m := by
  unfold Searched at searched
  unfold campUpdate
  by_cases possible : campPossible m = true
  · rw [if_pos possible] at searched
    rw [if_neg (by simp [possible]), if_neg searched.1, if_neg]
    rintro ⟨found, unnoted⟩
    rw [searched.2 found] at unnoted
    cases unnoted
  · rw [if_neg possible] at searched
    rw [if_pos (by simp [possible]), ← searched]

theorem regNotice_idle (knows : Listens m → m.reg.lastCreg = regStat m) : regNotice m = m := by
  unfold regNotice
  split
  · next notice =>
    have off : m.reg.cfun ≠ 1 := fun on =>
      notice.2.2.2 (knows ⟨notice.1, notice.2.1, notice.2.2.1, on⟩).symm
    rw [if_neg fun found => off (regStat_eq_one.mp found.1).1]
    exact if_pos off
  · rfl

theorem callTick_idle {i : Nat} (waits : (m.calls i).Waits m.nowMs) : callTick i m = (m, []) := by
  unfold callTick
  dsimp only
  by_cases used : (m.calls i).used = true
  · rw [if_neg (by simp [used])]
    by_cases idle : (m.calls i).next = .none
    · rw [if_neg (by simp [idle]), idle]
      split
      · rfl
      · rfl
    · have later := waits used idle
      rw [if_neg (by omega), if_neg (by omega)]
  · rw [if_pos (by simp [used])]

theorem callTicks_idle {is : List Nat} (waits : ∀ i ∈ is, (m.calls i).Waits m.nowMs) :
    forEach is callTick m = (m, []) := by
  unfold forEach
  induction is with
  | nil => rfl
  | cons i is ih =>
    obtain ⟨first, rest⟩ := forall_mem_cons.mp waits
    rw [foldl_cons]
    have turn : Out.andThen (m, []) (callTick i) = (m, []) := by
      simp only [Out.andThen, callTick_idle first, append_nil]
    rw [turn]
    exact ih rest

variable {m : Modem}

theorem Rests.modemTick (rests : Rests m) (knows : Listens m → m.reg.lastCreg = regStat m)
    (host : Host) : modemTick host m = (m, []) := by
  have reg : regTurn host m = (m, []) := by
    unfold regTurn
    dsimp only
    rw [regNotice_idle knows, if_neg fun isDue => absurd (rests.reg isDue.1) (not_lt.mpr isDue.2)]
  have temp : tempTurn m = (m, []) :=
    if_neg fun isDue => absurd (rests.temp isDue.1) (not_lt.mpr isDue.2)
  have xsim : xsimTurn m = (m, []) :=
    if_neg fun isDue => absurd (rests.xsim isDue.1) (not_lt.mpr isDue.2)
  have calls : forEach (range maxCalls) callTick m = (m, []) :=
    callTicks_idle fun i inside => rests.calls i (mem_range.mp inside)
  unfold Baseband.modemTick
  rw [campUpdate_idle rests.camp, reg]
  simp only [Out.andThen, temp, xsim, calls, append_nil]

theorem Rests.gpsPoll (rests : Rests m) (host : Host) : gpsPoll host m = (m, []) := by
  unfold Baseband.gpsPoll
  dsimp only
  rw [if_pos]
  by_cases session : 0 ≤ m.gps.ch
  · by_cases runs : m.gps.dueMs = 0
    · exact .inr (.inl runs)
    · exact .inr (.inr (rests.gps session runs))
  · exact .inl (not_le.mp session)

/-! ## A tick only writes -/

theorem writes_emitXciev (m : Modem) : Only Act.isWrite (emitXciev m) := by
  unfold emitXciev emitXsigstr
  dsimp only
  repeat' split
  all_goals rfl

theorem writes_regTick : Only Act.isWrite (regTick host m) := by
  have packet : ∀ (m : Modem) stat, (cgregReport m stat).all Act.isWrite = true := by
    intro m stat
    unfold cgregReport
    split <;> rfl
  have zone : ∀ m : Modem, (nitzReport host m).all Act.isWrite = true := by
    intro m
    unfold nitzReport
    split <;> rfl
  unfold regTick
  dsimp only
  repeat' split
  · rfl
  · exact packet m 2
  · exact packet m _
  · refine Only.andThen (Only.andThen ?_ writes_emitXciev) fun m => rfl
    simp [Only, packet, zone, urc, chanPrintf, Act.isWrite]
  · refine Only.andThen (Only.andThen ?_ writes_emitXciev) fun m => rfl
    simp [Only, packet, zone, urc, chanPrintf, Act.isWrite]
  · rfl

theorem writes_modemTick : Only Act.isWrite (modemTick host m) :=
  .modemTick (fun _ plain => (and_eq_true_iff.mp plain).1) (.ite (writes_regTick _) rfl)

theorem writes_gpsPoll : Only Act.isWrite (gpsPoll host m) := by
  refine .ite rfl ?_
  unfold Only
  dsimp only
  split <;> rfl

theorem runOut_off (c : Core) {o : Out} (writes : Only Act.isWrite o) :
    (c.runOut o).off = c.off := by
  have acts : ∀ (acts : List Act) (c : Core), acts.all Act.isWrite = true →
      (acts.foldl runAct c).off = c.off := by
    intro acts
    induction acts with
    | nil => exact fun c _ => rfl
    | cons act acts ih =>
      intro c writes
      rw [all_cons, and_eq_true] at writes
      rw [foldl_cons, ih _ writes.2]
      cases act with
      | write ch text =>
        unfold runAct chanWrite
        dsimp only
        split
        · exact h5Stream_off c _
        · exact h5Stream_off c _
      | _ => cases writes.1
  exact acts o.2 _ writes

/-! ## The link -/

namespace Link

variable {l : Link} {now : Int}

/-- What is not acknowledged was sent lately. -/
def Lately (l : Link) (now : Int) : Prop := l.unacked ≠ [] → now - l.lastTxMs < h5RetxMs

theorem lately_now (sent : l.lastTxMs = now) : l.Lately now := by
  intro _
  rw [sent, sub_self]
  decide

theorem lately_h5PumpFrom (formed : l.Formed) (lately : l.Lately now) (left : Nat) :
    (h5PumpFrom now left l).Lately now := by
  rcases (h5PumpFrom_spec now formed left).2.2 with same | sent
  · rw [same]
    exact lately
  · exact lately_now sent

theorem lately_h5Queue (lately : l.Lately now) (data : Bytes) : (l.h5Queue data).Lately now := by
  unfold h5Queue
  dsimp only
  split
  · exact lately
  · exact lately

theorem lately_stream (formed : l.Formed) (lately : l.Lately now) (op : Op) :
    (l.stream now op).Lately now := by
  unfold stream
  split
  · exact lately
  split
  · exact lately
  split
  · exact lately_h5Queue lately op.data
  unfold h5Pump
  split
  · exact lately_h5PumpFrom (formed_h5Queue formed op.data) (lately_h5Queue lately op.data) _
  · exact lately_h5Queue lately op.data

theorem h5Retransmit_txq (l : Link) (now : Int) : (l.h5Retransmit now).txq = l.txq := by
  unfold h5Retransmit
  generalize l.unacked = packets
  induction packets generalizing l with
  | nil => rfl
  | cons p packets ih =>
    rw [foldl_cons, ih]
    unfold h5SendPkt
    split
    · rfl
    · rfl

end Link

/-! ## The core -/

namespace Core

variable {c c' : Core}

variable {t : Int}

/-- Whole records wait, and what is not acknowledged was sent lately. -/
structure Fresh (c : Core) : Prop where
  formed : c.link.Formed
  lately : c.link.Lately c.now

theorem formed_prim {host : Host} (step : Prim host c c') (formed : c.link.Formed) :
    c'.link.Formed := by
  cases step with
  | stream data =>
    rw [(plays_h5Stream c data).eq]
    exact (Link.waits_stream c.now formed _).formed
  | _ => exact formed

theorem fresh_prim {host : Host} (step : Prim host c c') (fresh : c.Fresh) : c'.Fresh := by
  refine ⟨formed_prim step fresh.formed, ?_⟩
  cases step with
  | stream data =>
    rw [(plays_h5Stream c data).eq]
    exact Link.lately_stream fresh.formed fresh.lately _
  | engine m sameTime =>
    show c.link.Lately m.nowMs
    rw [sameTime]
    exact fresh.lately
  | _ => exact fresh.lately

theorem Moves.keep {host : Host} {p : Core → Prop}
    (each : ∀ {c c' : Core}, Prim host c c' → p c → p c') (moves : Moves host c c') (first : p c) :
    p c' := by
  induction moves with
  | refl => exact first
  | tail _ step ih => exact each step ih

theorem fresh_retransmit (formed : c.link.Formed) : c.retransmit.Fresh := by
  unfold retransmit
  split
  · refine ⟨?_, Link.lately_now rfl⟩
    unfold Link.Formed
    dsimp only
    rw [Link.h5Retransmit_txq]
    exact formed
  · next early =>
    refine ⟨formed, fun waiting => ?_⟩
    by_contra late
    exact early ⟨waiting, not_lt.mp late⟩

theorem gpsPoll_nowMs (m : Modem) : (gpsPoll host m).1.nowMs = m.nowMs := by
  unfold gpsPoll
  dsimp only
  split
  · rfl
  · rfl

/-- Nothing is due. -/
structure Settled (c : Core) : Prop where
  modem : Rests c.modem
  link : c.link.Lately c.now

theorem settled_iosBbTick (on : c.off = false) (formed : c.link.Formed)
    (timed : Timed c.modem) (now : Int) : (c.iosBbTick host now).Settled := by
  obtain ⟨rests, sameTime, -⟩ := rests_ticked host (m := { c.modem with nowMs := now })
    ⟨timed.temp, timed.gps, timed.burst⟩
  refine ⟨?_, ?_⟩
  · rw [iosBbTick_modem c now on]
    exact rests
  · unfold iosBbTick
    dsimp only
    rw [if_neg (by simp [on])]
    apply Fresh.lately
    -- the report of a position comes after the retransmission
    have moves := moves_runOut (retransmit (runOut { c with modem := { c.modem with nowMs := now } }
      (modemTick host { c.modem with nowMs := now }))) (gpsPoll_nowMs host _) (.single (.gps _))
    refine moves.keep fresh_prim (fresh_retransmit ?_)
    refine (moves_runOut _ ?_ (.single (.tick _))).keep formed_prim formed
    rw [← gpsPoll_nowMs host]
    exact sameTime

/-- A tick at the time of the last one does nothing. -/
theorem Settled.iosBbTick (settled : c.Settled) (host : Host)
    (knows : Listens c.modem → c.modem.reg.lastCreg = regStat c.modem) :
    c.iosBbTick host c.now = c := by
  have still : c.runOut (c.modem, []) = c := rfl
  have engine := settled.modem.modemTick knows host
  have gps := settled.modem.gpsPoll host
  have link : c.retransmit = c :=
    if_neg fun late => absurd (settled.link late.1) (not_lt.mpr late.2)
  unfold Core.iosBbTick
  dsimp only
  split
  · rfl
  · show (c.runOut (modemTick host c.modem)).retransmit.runOut (gpsPoll host
      (c.runOut (modemTick host c.modem)).retransmit.modem) = c
    rw [engine, still, link, gps, still]

/-! ## The next due time -/

theorem vibNextEdge_later (edge : vibNextEdge m ≠ 0) : m.nowMs < vibNextEdge m := by
  unfold vibNextEdge at edge ⊢
  dsimp only at edge ⊢
  split
  · next idle => exact absurd (if_pos idle) edge
  · next runs =>
    simp only [if_neg runs] at edge
    split
    · next once =>
      simp only [if_pos once] at edge
      split
      · omega
      · next ended => simp [ended] at edge
    · next notOnce =>
      simp only [if_neg notOnce] at edge
      split
      · next again =>
        have left := Int.emod_lt_of_pos (m.nowMs - m.vibStartMs) again.2
        split
        · omega
        · omega
      · next never => simp [never] at edge

/-- Every timer that runs is due later than a time. -/
structure Ahead (c : Core) (t : Int) : Prop where
  reg : c.modem.reg.regStep ≠ 0 → t < c.modem.reg.regDueMs
  camp : c.modem.nowMs < c.modem.reg.campDueMs → t < c.modem.reg.campDueMs
  temp : c.modem.tempDueMs ≠ 0 → t < c.modem.tempDueMs
  xsim : c.modem.xsimDueMs ≠ 0 → t < c.modem.xsimDueMs
  vib : vibNextEdge c.modem ≠ 0 → t < vibNextEdge c.modem
  calls : ∀ i < maxCalls, (c.modem.calls i).used = true → (c.modem.calls i).dueMs ≠ 0 →
    (c.modem.calls i).next ≠ .none → t < (c.modem.calls i).dueMs
  link : c.link.unacked ≠ [] → t < c.link.lastTxMs + h5RetxMs
  gps : gpsNextDue c.modem.gps ≠ 0 → t < gpsNextDue c.modem.gps

theorem ahead_iff : (∀ timer ∈ c.timers, timer.1 = true → t < timer.2) ↔ c.Ahead t := by
  simp only [timers, forall_mem_append, forall_mem_cons, forall_mem_map,
    mem_range, and_eq_true, decide_eq_true_eq]
  constructor
  · rintro ⟨⟨⟨reg, camp, temp, xsim, vib, -⟩, calls⟩, link, gps, -⟩
    exact ⟨reg, camp, temp, xsim, vib,
      fun i inside used runs next => calls i inside ⟨⟨used, runs⟩, next⟩, link, gps⟩
  · rintro ⟨reg, camp, temp, xsim, vib, calls, link, gps⟩
    exact ⟨⟨⟨reg, camp, temp, xsim, vib, by simp⟩,
      fun i inside runs => calls i inside runs.1.1 runs.1.2 runs.2⟩, link, gps, by simp⟩

theorem gpsNextDue_eq {g : Gps} (runs : gpsNextDue g ≠ 0) :
    0 ≤ g.ch ∧ g.dueMs ≠ 0 ∧ gpsNextDue g = g.dueMs := by
  unfold gpsNextDue at runs ⊢
  split
  · next session => exact ⟨session, by simpa [session] using runs, rfl⟩
  · next idle => exact absurd (if_neg idle) runs

/-- All timers of a settled core are ahead of it. -/
theorem Settled.ahead (settled : c.Settled) : c.Ahead c.now where
  reg := settled.modem.reg
  camp := id
  temp := settled.modem.temp
  xsim := settled.modem.xsim
  vib := vibNextEdge_later
  calls i inside used _ next := settled.modem.calls i inside used next
  link waiting := by
    have lately := settled.link waiting
    omega
  gps runs := by
    obtain ⟨session, due, same⟩ := gpsNextDue_eq runs
    rw [same]
    exact settled.modem.gps session due

theorem Settled.nextDue (settled : c.Settled) (nonneg : 0 ≤ c.now) (on : c.off = false) :
    Earliest c.now c.iosBbNextDue c.timers := by
  unfold iosBbNextDue
  rw [if_neg (by simp [on])]
  exact earliest_foldl nonneg (ahead_iff.mpr settled.ahead)

/-- A search that is over stays over, and one that is not is not over before its end. -/
theorem Ahead.campDue (ahead : c.Ahead t) (later : c.now < t) :
    c.modem.reg.campDueMs ≤ t ↔ c.modem.reg.campDueMs ≤ c.modem.nowMs := by
  constructor
  · intro ended
    by_contra runs
    have due := ahead.camp (not_le.mp runs)
    omega
  · exact fun ended => ended.trans later.le

theorem Ahead.regStat (ahead : c.Ahead t) (later : c.now < t) :
    regStat (c.atTime t).modem = regStat c.modem := by
  have found : camped (c.atTime t).modem = camped c.modem := by
    unfold camped
    congr 1
    exact decide_eq_decide.mpr (ahead.campDue later)
  exact regStat_of_camped rfl rfl rfl found

/-- Before the timers nothing gets due. -/
theorem Settled.later (settled : c.Settled) (nonneg : 0 ≤ c.now) (later : c.now < t)
    (ahead : c.Ahead t) : (c.atTime t).Settled where
  modem := by
    constructor
    · have searched := settled.modem.camp
      unfold Searched at searched ⊢
      by_cases possible : campPossible c.modem = true
      · rw [if_pos possible] at searched
        rw [if_pos (show campPossible (c.atTime t).modem = true from possible)]
        exact ⟨searched.1, fun ended => searched.2 ((ahead.campDue later).mp ended)⟩
      · rw [if_neg possible] at searched
        rwa [if_neg (show ¬ campPossible (c.atTime t).modem = true from possible)]
    · exact ahead.reg
    · exact ahead.temp
    · exact ahead.xsim
    · intro i inside used next
      have due := settled.modem.calls i inside used next
      exact ahead.calls i inside used (by unfold now at nonneg; omega) next
    · intro session runs
      have same : gpsNextDue c.modem.gps = c.modem.gps.dueMs := if_pos session
      have due := ahead.gps (by rw [same]; exact runs)
      rw [same] at due
      exact due
  link waiting := by
    have due := ahead.link waiting
    show t - c.link.lastTxMs < h5RetxMs
    omega

/-! ## Which ticks matter -/

/-- After a stale burst the next tick schedules another, whenever it comes. -/
theorem scheduled_ticked (listens : Listens m) (told : m.reg.lastCreg = 1)
    (lost : regStat m ≠ 1) : (ticked host m).reg.regStep ≠ 0 := by
  obtain ⟨idle, wanted, isOpen, on⟩ := listens
  have camps := camps_campUpdate m
  have notice : regNotice (campUpdate m) = regSchedule (campUpdate m) := by
    unfold regNotice
    rw [camps.regStep, camps.cregN, camps.cregCh, camps.isOpen, camps.stat, camps.lastCreg,
      if_pos ⟨idle, wanted, isOpen, by rw [told]; exact lost⟩, if_neg fun found => lost found.1]
  have later : regTurn host (campUpdate m) = (regSchedule (campUpdate m), []) := by
    unfold regTurn
    dsimp only
    rw [notice, if_neg]
    rw [regSchedule, if_neg (not_not.mpr (camps.cfun.trans on))]
    dsimp only
    omega
  have kept : (ticked host m).reg = (regTurn host (campUpdate m)).1.reg := by
    have gps : ∀ m : Modem, (gpsPoll host m).1.reg = m.reg := by
      intro m
      unfold gpsPoll
      dsimp only
      split
      · rfl
      · rfl
    unfold ticked
    rw [gps, (quiet_modemTick host m).reg]
  rw [kept, later, regSchedule, if_neg (not_not.mpr (camps.cfun.trans on))]
  exact Nat.one_ne_zero

theorem iosBbTick_off (c : Core) (now : Int) : (c.iosBbTick host now).off = c.off := by
  have retransmits : ∀ c : Core, c.retransmit.off = c.off := by
    intro c
    unfold retransmit
    split
    · rfl
    · rfl
  unfold iosBbTick
  dsimp only
  split
  · rfl
  · rw [runOut_off _ (writes_gpsPoll _), retransmits, runOut_off _ (writes_modemTick _)]

theorem timed_init (start : Modem) : Timed (iosBbInit start).modem where
  temp runs := absurd rfl runs
  gps session := by
    have negative : (0 : Int) ≤ -1 := session
    omega
  burst := Nat.zero_le 2

theorem timed_run (start : Modem) (events : List Event) :
    Timed ((iosBbInit start).run host events).modem :=
  EngineSteps.keep (fun step => (sound_step step).timed) (engine_run _ events) (timed_init start)

/-- A settled core whose host heard what it should hear, or was told by a stale burst that it is
registered when it is not. -/
theorem Settled.idle_iff (settled : c.Settled) (host : Host) (on : c.off = false)
    (nonneg : 0 ≤ c.now) {stale : Bool}
    (told : Listens c.modem → c.modem.reg.lastCreg = if stale then 1 else regStat c.modem)
    (lost : stale = true → Listens c.modem ∧ regStat c.modem ≠ 1) (later : c.now < t)
    (ahead : c.Ahead t) : c.iosBbTick host t = c.atTime t ↔ stale = false := by
  have stat := ahead.regStat later
  constructor
  · intro idle
    by_contra isFresh
    have isStale : stale = true := by simpa using isFresh
    obtain ⟨listens, differs⟩ := lost isStale
    have wrong := told listens
    rw [if_pos isStale] at wrong
    have moved := scheduled_ticked host (m := (c.atTime t).modem) listens wrong (stat ▸ differs)
    have same : (c.iosBbTick host t).modem = ticked host (c.atTime t).modem :=
      iosBbTick_modem c t on
    rw [← same, idle] at moved
    exact moved listens.1
  · intro calm
    apply (settled.later nonneg later ahead).iosBbTick host
    intro listens
    have known := told listens
    rw [calm] at known
    rw [stat]
    exact known

/-- After a tick the next due time lies ahead, and until then a tick does nothing, unless this
one ended a stale burst: then every tick until then does something. -/
theorem tick_idle_iff (host : Host) (start : Modem) (events : List Event) {now : Int}
    (nonneg : 0 ≤ now) (on : ((iosBbInit start).run host events).off = false) :
    let before := (iosBbInit start).run host events
    let after := before.iosBbTick host now
    (after.iosBbNextDue = 0 ∨ now < after.iosBbNextDue) ∧
      ∀ t, now < t → (after.iosBbNextDue = 0 ∨ t < after.iosBbNextDue) →
        (after.iosBbTick host t = after.atTime t ↔
          staleBurst { before.modem with nowMs := now } = false) := by
  have timed := timed_run host start events
  have formed := formed_run host start events
  generalize (iosBbInit start).run host events = before at *
  intro _ after
  have settled : after.Settled := settled_iosBbTick host on formed timed now
  have engine : after.modem = ticked host { before.modem with nowMs := now } :=
    iosBbTick_modem before now on
  have running : after.off = false := (iosBbTick_off host before now).trans on
  obtain ⟨-, sameTime, told, lost⟩ := rests_ticked host (m := { before.modem with nowMs := now })
    ⟨timed.temp, timed.gps, timed.burst⟩
  rw [← engine] at sameTime told lost
  have isNow : after.now = now := sameTime
  clear_value after
  subst isNow
  have earliest := settled.nextDue nonneg running
  constructor
  · rcases earliest with ⟨idle, -⟩ | ⟨later, -⟩
    · exact .inl idle
    · exact .inr later
  · intro t later window
    exact settled.idle_iff host running nonneg told lost later
      (ahead_iff.mp fun timer inside runs => earliest.not_due window inside runs nonneg)

/-- A host that asks for reports on channel 2 of the multiplexer, and the first half of the
burst. -/
def halfTold : List Event :=
  [.input 0 (ascii "AT+CREG=1\rAT+CMUX=0\r"),
    .input 0 (mxEncode (mxFrame (mxAddr 2 true) (mxSabm ||| mxPf) [])), .tick 400]

/-- The second half tells the truth, and nothing is due after it. -/
theorem told_host_left_alone :
    let host : Host := bareHost
    let after := ((iosBbInit { reg := { registered := true, searchMs := 100 } }).run host
      halfTold).iosBbTick host 800
    after.iosBbTick host 5000 = after.atTime 5000 :=
  ((tick_idle_iff _ _ halfTold (by decide : (0 : Int) ≤ 800) (by decide +kernel)).2 5000 (by decide)
    (.inl (by decide +kernel))).mpr (by decide +kernel)

/-- The network goes between the halves: the host is told that it is registered, no tick is due,
and the tick that would put it right never comes. -/
theorem lost_network_never_told :
    ¬ ∀ (host : Host) (start : Modem) (events : List Event) (now t : Int), 0 ≤ now →
      ((iosBbInit start).run host events).off = false → now < t →
      let after := ((iosBbInit start).run host events).iosBbTick host now
      (after.iosBbNextDue = 0 ∨ t < after.iosBbNextDue) →
        after.iosBbTick host t = after.atTime t := by
  intro all
  have idle := congrArg (fun c : Core => c.modem.reg.regStep) (all
    bareHost { reg := { registered := true, searchMs := 100 } }
    (halfTold ++ [.control (.registered false)]) 800 5000 (by decide) (by decide +kernel)
      (by decide)
    (.inl (by decide +kernel)))
  revert idle
  decide +kernel

end Core

end QemuIos.Baseband

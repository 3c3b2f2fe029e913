import QemuIos.Lib.Trace
import Mathlib.Logic.Function.Basic

/-!
# The GPIO interrupt fabric

A source is driven by a pad, by the logical level of a device, or by edge requests. A level that
asserts is kept in `gpio_level_pending`, from where an acknowledge latches it again. For a pad the
word is brought up to date by `sysic_pad_eval`, and only for the sources of type level: what a
source had pending when it became an edge source stays there.
-/

namespace QemuIos.Sysic

/-- `GPIO_NUMINTGROUPS`. -/
abbrev numGroups : Nat := 7

/-- The words of a group, and its output. -/
structure Group where
  intLevel : BitVec 32 := 0
  intStatus : BitVec 32 := 0
  intEnabled : BitVec 32 := 0
  intType : BitVec 32 := 0
  levelPending : BitVec 32 := 0
  padLevel : BitVec 32 := 0
  padDriven : BitVec 32 := 0
  irq : Bool := false

inductive Reg where
  | level
  | stat
  | en
  | type
  deriving DecidableEq, Repr

namespace Group

variable (g : Group)

def updateGpioIrq : Group := { g with irq := g.intStatus &&& g.intEnabled != 0 }

def requestEdge (bit : Nat) : Group :=
  { g with intStatus := g.intStatus ||| BitVec.twoPow 32 bit }.updateGpioIrq

/-- The sources driven by a pad that match their polarity. -/
def padMatch : BitVec 32 := ~~~(g.padLevel ^^^ g.intLevel) &&& g.padDriven

def padEval (was : BitVec 32) : Group :=
  let here := g.padMatch
  let level := g.intType
  { g with
    levelPending := g.levelPending &&& ~~~(g.padDriven &&& level) ||| here &&& level
    intStatus := g.intStatus ||| (here &&& ~~~was &&& ~~~level ||| here &&& level &&& g.intEnabled)
  }.updateGpioIrq

def drivePad (bit : Nat) (level : Bool) : Group :=
  let mask := BitVec.twoPow 32 bit
  { g with
    padDriven := g.padDriven ||| mask
    padLevel := g.padLevel &&& ~~~mask ||| if level then mask else 0 }

def setPad (bit : Nat) (level : Bool) : Group := (g.drivePad bit level).padEval g.padMatch

def gpioIrqInput (bit : Nat) (level : Bool) : Group :=
  let mask := BitVec.twoPow 32 bit
  (if level then
    { g with
      levelPending := g.levelPending ||| mask
      intStatus := g.intStatus ||| mask &&& g.intEnabled }
  else
    { g with
      levelPending := g.levelPending &&& ~~~mask
      intStatus := g.intStatus &&& ~~~mask }).updateGpioIrq

/-- A write of the guest to one of the group's registers. -/
def write (val : BitVec 32) : Reg → Group
  | .level => { g with intLevel := val }.padEval g.padMatch
  | .stat =>
    { g with
      intStatus := g.intStatus &&& ~~~val ||| g.levelPending &&& g.intEnabled }.updateGpioIrq
  | .en =>
    { g with
      intEnabled := val
      intStatus := g.intStatus ||| g.levelPending &&& val }.updateGpioIrq
  | .type => { g with intType := val }.padEval g.padMatch

/-- `sysic_post_load`: the pads are not saved, and are as a reset leaves them. -/
def postLoad : Group := { g with padLevel := 0, padDriven := 0 }.updateGpioIrq

end Group

inductive Event where
  | pad (irq : Nat) (level : Bool)
  | input (pin : Nat) (level : Bool)
  | edge (group bit : Nat)
  | write (reg : Reg) (group : Nat) (val : BitVec 32)
  | saveRestore
  deriving DecidableEq, Repr

/-- A group with what the board does to its sources: the level each pad was last driven to, and the
level of each input. -/
structure Bank extends Group where
  pad : Nat → Option Bool := fun _ => none
  input : Nat → Bool := fun _ => false

/-- The event is one of the group. -/
def Event.Reaches (group : Nat) : Event → Prop
  | pad irq _ => irq / 32 = group
  | input pin _ => pin / 32 = group
  | edge group' bit => group' = group ∧ bit < 32
  | write _ group' _ => group' = group
  | saveRestore => True

instance (group : Nat) : DecidablePred (Event.Reaches group) := fun e => by
  cases e <;> unfold Event.Reaches <;> infer_instance

def Bank.act (b : Bank) : Event → Bank
  | .pad irq level =>
    { b with
      toGroup := b.setPad (irq % 32) level
      pad := Function.update b.pad (irq % 32) (some level) }
  | .input pin level =>
    { b with
      toGroup := b.gpioIrqInput (pin % 32) level
      input := Function.update b.input (pin % 32) level }
  | .edge _ bit => { b with toGroup := b.requestEdge bit }
  | .write reg _ val => { b with toGroup := b.write val reg }
  | .saveRestore => { b with toGroup := b.postLoad }

def Bank.step (b : Bank) (group : Nat) (e : Event) : Bank :=
  if e.Reaches group then b.act e else b

/-- The groups there are: an event of any other group changes nothing. -/
abbrev Fabric := Fin numGroups → Bank

def Fabric.step (s : Fabric) (e : Event) : Fabric := fun group => (s group).step group e

/-- What drives a source. -/
inductive Kind where
  | pad
  | level
  | edge
  deriving DecidableEq, Repr

/-- The event drives a source by what it is driven by. -/
def Event.Drives (kind : Nat → Nat → Kind) : Event → Prop
  | pad irq _ => kind (irq / 32) (irq % 32) = .pad
  | input pin _ => kind (pin / 32) (pin % 32) = .level
  | edge group bit => kind group bit = .edge
  | _ => True

namespace Bank

variable (b : Bank)

/-- The pad of a source matches the programmed polarity. -/
def Matches (i : Nat) : Prop := b.pad i = some (b.intLevel.getLsbD i)

/-- The condition of a level source holds. -/
def Asserts (i : Nat) : Kind → Prop
  | .pad => b.intType.getLsbD i = true ∧ b.Matches i
  | .level => b.input i = true
  | .edge => False

/-- No source becomes an edge source while the level of its pad is pending, and the device is saved
and restored only while no pad is driven. -/
def Spares : Event → Prop
  | .write .type _ val => b.padDriven &&& b.levelPending &&& ~~~val = 0
  | .saveRestore => b.padDriven = 0
  | _ => True

end Bank

/-- What the guest and the VIC may rely on. -/
structure Reliable (kind : Nat → Nat → Kind) (group : Nat) (b : Bank) : Prop where
  line : b.irq = true ↔ b.intStatus &&& b.intEnabled ≠ 0
  pending : ∀ i < 32, kind group i = .pad →
    (b.levelPending.getLsbD i = true ↔ b.intType.getLsbD i = true ∧ b.Matches i)
  /-- An acknowledged source reads 1 only while it asserts. -/
  acknowledged : ∀ i < 32, ∀ val : BitVec 32, val.getLsbD i = true →
    ((b.step group (.write .stat group val)).intStatus.getLsbD i = true ↔
      b.intEnabled.getLsbD i = true ∧ b.Asserts i (kind group i))
  /-- An edge source is latched when its pad starts to match. -/
  latched : ∀ e : Event, e.Drives kind → (e.Reaches group → b.Spares e) →
    ∀ i < 32, kind group i = .pad →
    (b.step group e).intType.getLsbD i = false → b.intStatus.getLsbD i = false →
    (b.step group e).intStatus.getLsbD i = true → ¬ b.Matches i ∧ (b.step group e).Matches i

/-! ### The words of a group -/

section Bits

variable {i : Nat} (small : i < 32) (g : Group) (was : BitVec 32)

@[simp] theorem padEval_intType : (g.padEval was).intType = g.intType :=
  rfl

include small

theorem padMatch_bit : g.padMatch.getLsbD i =
    (g.padLevel.getLsbD i == g.intLevel.getLsbD i && g.padDriven.getLsbD i) := by
  cases pad : g.padLevel.getLsbD i <;> simp_all [Group.padMatch]

theorem padEval_pending : (g.padEval was).levelPending.getLsbD i =
    (if g.padDriven.getLsbD i && g.intType.getLsbD i then g.padMatch.getLsbD i
    else g.levelPending.getLsbD i) := by
  cases type : g.intType.getLsbD i <;> cases driven : g.padDriven.getLsbD i <;>
    simp_all [Group.padEval, Group.updateGpioIrq, Group.padMatch]

theorem padEval_status : (g.padEval was).intStatus.getLsbD i = (g.intStatus.getLsbD i ||
    g.padMatch.getLsbD i &&
      if g.intType.getLsbD i then g.intEnabled.getLsbD i else !was.getLsbD i) := by
  cases type : g.intType.getLsbD i <;> simp_all [Group.padEval, Group.updateGpioIrq]

theorem padEval_latch (type : g.intType.getLsbD i = false) (off : g.intStatus.getLsbD i = false)
    (on : (g.padEval was).intStatus.getLsbD i = true) :
    was.getLsbD i = false ∧ (g.padEval was).padMatch.getLsbD i = true := by
  rw [padEval_status small, off, type] at on
  have starts : was.getLsbD i = false ∧ g.padMatch.getLsbD i = true := by
    simpa [and_comm] using on
  exact starts

end Bits

/-! ### One source -/

/-- The pad of a source is known, and nothing is pending that an evaluation would leave. -/
structure Ready (kind : Kind) (b : Bank) (i : Nat) : Prop where
  driven : b.padDriven.getLsbD i = (b.pad i).isSome
  level : ∀ l, b.pad i = some l → b.padLevel.getLsbD i = l
  mine : ∀ l, b.pad i = some l → kind = .pad
  edge : kind = .pad → b.intType.getLsbD i = false → b.levelPending.getLsbD i = false
  other : b.pad i = none → (b.levelPending.getLsbD i = true ↔ kind = .level ∧ b.input i = true)

structure Fits (kind : Kind) (b : Bank) (i : Nat) : Prop extends Ready kind b i where
  pending : ∀ l, b.pad i = some l → b.intType.getLsbD i = true →
    (b.levelPending.getLsbD i = true ↔ l = b.intLevel.getLsbD i)

variable {kind : Kind} {b : Bank} {i : Nat}

theorem Ready.padMatch (ready : Ready kind b i) (small : i < 32) :
    b.padMatch.getLsbD i = true ↔ b.Matches i := by
  rw [padMatch_bit small, ready.driven, Bank.Matches]
  cases reads : b.pad i with
  | none => simp
  | some l => simp [ready.level l reads]

theorem Ready.padEval (ready : Ready kind b i) (small : i < 32) (was : BitVec 32) :
    Fits kind { b with toGroup := b.toGroup.padEval was } i := by
  have bit := padEval_pending small b.toGroup was
  refine ⟨{ ready with edge := ?_, other := ?_ }, ?_⟩
  · intro isPad type
    rw [bit, if_neg (by simp_all)]
    exact ready.edge isPad type
  · intro undriven
    rw [bit, ready.driven, if_neg (by simp_all)]
    exact ready.other undriven
  · intro l reads type
    have driven := ready.driven
    rw [reads] at driven
    rw [bit, if_pos (by simp_all), ready.padMatch small, Bank.Matches, reads, Option.some_inj]
    rfl

namespace Fits

variable (fits : Fits kind b i) (small : i < 32)
include fits

theorem asserts : b.levelPending.getLsbD i = true ↔ b.Asserts i kind := by
  cases reads : b.pad i with
  | none =>
    rw [fits.other reads]
    cases kind <;> simp [Bank.Asserts, Bank.Matches, reads]
  | some l =>
    obtain rfl := fits.mine l reads
    cases type : b.intType.getLsbD i with
    | false => simp [Bank.Asserts, fits.edge rfl type, type]
    | true => simp [Bank.Asserts, Bank.Matches, reads, type, fits.pending l reads type]

theorem postLoad (driven : b.padDriven = 0) : Fits kind { b with toGroup := b.postLoad } i := by
  have undriven : b.pad i = none := by simpa [driven] using fits.driven
  exact { fits with
    driven := by simp [Group.postLoad, Group.updateGpioIrq, undriven]
    level := by simp [undriven] }

include small

theorem write (val : BitVec 32) (reg : Reg)
    (spares : reg = .type → b.padDriven &&& b.levelPending &&& ~~~val = 0) :
    Fits kind { b with toGroup := b.write val reg } i := by
  cases reg with
  | level => exact Ready.padEval (b := { b with intLevel := val }) { fits with } small _
  | stat => exact { fits with }
  | en => exact { fits with }
  | type =>
    refine Ready.padEval (b := { b with intType := val }) { fits with edge := ?_ } small _
    intro isPad type
    have off : val.getLsbD i = false := type
    have driven := fits.driven
    have clear : (b.padDriven &&& b.levelPending &&& ~~~val).getLsbD i = false := by
      simp [spares rfl]
    cases reads : b.pad i with
    | none => simpa [isPad] using fits.other reads
    | some l => simpa [reads, off, driven, small, -BitVec.getLsbD_eq_getElem] using clear

theorem setPad {j : Nat} (isPad : i = j → kind = .pad) (level : Bool) :
    Fits kind { b with
      toGroup := b.setPad j level
      pad := Function.update b.pad j (some level) } i := by
  refine Ready.padEval (b := ⟨b.drivePad j level, Function.update b.pad j (some level), b.input⟩)
    ?_ small _
  by_cases own : i = j
  · subst own
    exact
      { driven := by simp [Group.drivePad, small]
        level := by cases level <;> simp [Group.drivePad, small]
        mine := fun _ _ => isPad rfl
        edge := fits.edge
        other := by simp }
  · have same : Function.update b.pad j (some level) i = b.pad i := Function.update_of_ne own _ _
    exact
      { driven := by simpa [Group.drivePad, Ne.symm own, same] using fits.driven
        level := by cases level <;> simpa [Group.drivePad, own, same, small] using fits.level
        mine := by simpa only [same] using fits.mine
        edge := fits.edge
        other := fun undriven => fits.other (same ▸ undriven) }

theorem gpioIrqInput {j : Nat} (isLevel : i = j → kind = .level) (level : Bool) :
    Fits kind { b with
      toGroup := b.gpioIrqInput j level
      input := Function.update b.input j level } i := by
  by_cases own : i = j
  · subst own
    obtain rfl := isLevel rfl
    cases level <;> exact
      { fits with
        edge := by simp
        other := by simp [Group.gpioIrqInput, Group.updateGpioIrq, small]
        pending := fun l reads => by cases fits.mine l reads }
  · have same : (b.gpioIrqInput j level).levelPending.getLsbD i = b.levelPending.getLsbD i := by
      cases level <;> simp [Group.gpioIrqInput, Group.updateGpioIrq, own, small]
    have input : Function.update b.input j level i = b.input i := Function.update_of_ne own _ _
    cases level <;> exact
      { fits with
        edge := same ▸ fits.edge
        other := by simpa only [same, input] using fits.other
        pending := same ▸ fits.pending }

end Fits

/-! ### The fabric -/

/-- The output of a group shows what is latched and enabled. -/
def Group.Shown (g : Group) : Prop := g.irq = (g.intStatus &&& g.intEnabled != 0)

section Step

variable {kind : Nat → Nat → Kind} {group : Nat} {e : Event}

theorem shown_step (shown : b.Shown) : (b.step group e).Shown := by
  unfold Bank.step
  split
  · cases e with
    | input pin level => cases level <;> rfl
    | write reg group' val => cases reg <;> rfl
    | _ => rfl
  · exact shown

theorem fits_step (fits : Fits (kind group i) b i) (small : i < 32) (drives : e.Drives kind)
    (spares : e.Reaches group → b.Spares e) : Fits (kind group i) (b.step group e) i := by
  unfold Bank.step
  split
  case isTrue here =>
    have spares := spares here
    cases e with
    | pad irq level => exact fits.setPad small (fun own => own ▸ here ▸ drives) level
    | input pin level => exact fits.gpioIrqInput small (fun own => own ▸ here ▸ drives) level
    | edge group' bit => exact { fits with }
    | write reg group' val => exact fits.write small val reg (by rintro rfl; exact spares)
    | saveRestore => exact fits.postLoad spares
  case isFalse => exact fits

theorem latched_step (fits : Fits .pad b i) (small : i < 32) (isPad : kind group i = .pad)
    (drives : e.Drives kind) (type : (b.step group e).intType.getLsbD i = false)
    (off : b.intStatus.getLsbD i = false) (on : (b.step group e).intStatus.getLsbD i = true) :
    b.padMatch.getLsbD i = false ∧ (b.step group e).padMatch.getLsbD i = true := by
  unfold Bank.step at *
  split at on
  case isFalse => simp [off] at on
  case isTrue here =>
    rw [if_pos here] at type ⊢
    cases e with
    | pad irq level => exact padEval_latch small (b.drivePad _ level) _ type off on
    | input pin level =>
      have away : pin % 32 ≠ i := by
        rintro rfl
        subst here
        cases isPad.symm.trans drives
      cases level <;> simp [Bank.act, Group.gpioIrqInput, Group.updateGpioIrq, away, off] at on
    | edge group' bit =>
      have away : bit ≠ i := by
        rintro rfl
        cases isPad.symm.trans (here.1 ▸ drives)
      simp [Bank.act, Group.requestEdge, Group.updateGpioIrq, away, off] at on
    | write reg group' val =>
      cases reg with
      | level => exact padEval_latch small { b.toGroup with intLevel := val } _ type off on
      | type => exact padEval_latch small { b.toGroup with intType := val } _ type off on
      | stat | en =>
        have quiet := fits.edge rfl type
        simp [Bank.act, Group.write, Group.updateGpioIrq, off, quiet] at on
    | saveRestore => simp [Bank.act, Group.postLoad, Group.updateGpioIrq, off] at on

/-- In a state where every source fits, the guest may rely on the group. -/
theorem Reliable.of_fits (shown : b.Shown) (fits : ∀ i < 32, Fits (kind group i) b i) :
    Reliable kind group b where
  line := by simp [show b.irq = _ from shown]
  pending i small isPad := by
    have fits := fits i small
    rw [fits.asserts, isPad, Bank.Asserts]
  acknowledged i small val on := by
    rw [← (fits i small).asserts]
    simp [Bank.step, Event.Reaches, Bank.act, Group.write, Group.updateGpioIrq, on, and_comm,
      -BitVec.getLsbD_eq_getElem]
  latched e drives spares i small isPad type off on := by
    have here := fits i small
    rw [← here.padMatch small, ← (fits_step here small drives spares).padMatch small]
    rw [isPad] at here
    simpa using latched_step here small isPad drives type off on

end Step

namespace Fabric

variable {kind : Nat → Nat → Kind}

def reset : Fabric := fun _ => {}

/-- The event drives its source by what that is driven by, and spares the groups it reaches. -/
def Spared (kind : Nat → Nat → Kind) (s : Fabric) (e : Event) : Prop :=
  e.Drives kind ∧ ∀ group : Fin numGroups, e.Reaches group → (s group).Spares e

def Inv (kind : Nat → Nat → Kind) (s : Fabric) : Prop :=
  ∀ group : Fin numGroups, (s group).Shown ∧ ∀ i < 32, Fits (kind group i) (s group) i

theorem inv_reset : Inv kind reset := fun group => by
  refine ⟨by simp [Group.Shown, reset], fun i small => ⟨⟨?_, ?_, ?_, ?_, ?_⟩, ?_⟩⟩ <;> simp [reset]

theorem inv_step {s : Fabric} {e : Event} (inv : Inv kind s) (spared : s.Spared kind e) :
    Inv kind (s.step e) := fun group =>
  ⟨shown_step (inv group).1, fun i small =>
    fits_step ((inv group).2 i small) small spared.1 (spared.2 group)⟩

/-- As long as no source becomes an edge source with its level pending, and no driven pad is
forgotten, the guest and the VIC may rely on every group. -/
theorem reliable_of_spared (kind : Nat → Nat → Kind) (events : List Event)
    (spared : Trace.Along step (Spared kind) reset events) (group : Fin numGroups) :
    Reliable kind group (events.foldl step reset group) := by
  have inv : Inv kind (events.foldl step reset) :=
    Trace.Along.keep (fun _ _ => inv_step) inv_reset spared
  exact .of_fits (inv group).1 (inv group).2

/-- A pad that is low and matches is enabled, acknowledged and driven high. -/
theorem reliable_low_pad : Reliable (fun _ _ => .pad) 0
    ([.write .type 0 32, .pad 5 false, .write .en 0 32, .write .stat 0 32, .pad 5 true].foldl step
      reset 0) :=
  reliable_of_spared (fun _ _ => .pad)
    [.write .type 0 32, .pad 5 false, .write .en 0 32, .write .stat 0 32, .pad 5 true]
    ⟨⟨trivial, by simp [Bank.Spares, reset]⟩, ⟨rfl, fun _ _ => trivial⟩,
      ⟨trivial, fun _ _ => trivial⟩,
      ⟨trivial, fun _ _ => trivial⟩, ⟨rfl, fun _ _ => trivial⟩, trivial⟩ 0

/-- A source that becomes an edge source keeps the level of its pad pending. -/
theorem edge_keeps_pending : ∃ events : List Event, (∀ e ∈ events, e.Drives (fun _ _ => .pad)) ∧
    ¬ Reliable (fun _ _ => .pad) 0 (events.foldl step reset 0) := by
  refine ⟨[.pad 5 false, .write .type 0 32, .write .type 0 0], by simp [Event.Drives], ?_⟩
  intro reliable
  have edge := ((reliable.pending 5 (by decide) rfl).mp (by decide)).1
  exact absurd edge (by decide)

end Fabric

end QemuIos.Sysic

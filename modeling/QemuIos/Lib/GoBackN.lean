import Mathlib.Data.List.Basic
import Mathlib.Data.Nat.ModEq
import Mathlib.Logic.Relation

/-!
# Go-back-N

A sender with a window over a FIFO link that loses and repeats frames. It numbers its frames
modulo `M`, has at most `W < M` of them unacknowledged, and may repeat any of those; the receiver
takes a frame only if its number is the next one, and acknowledges cumulatively over a link of
the same kind. Whatever the links do, what the receiver has taken is a beginning of what the
sender was given (`Reachable.got_prefix`).
-/

namespace QemuIos.GoBackN

open List Option Nat

variable {α : Type*}

/-- The sender, with everything it was given, how much of it is acknowledged and sent, and the
frames it put on the link: the index of the item, or a frame that carries none. -/
structure Sender (α : Type*) where
  input : List α := []
  base : Nat := 0
  next : Nat := 0
  frames : List (Option Nat) := []

namespace Sender

/-- The sender's reaction to an acknowledgement: it counts if it lies in the window. -/
def acked (M : Nat) (s : Sender α) (r : Nat) : Sender α :=
  let d := (r + M - s.base % M) % M
  if d ≤ s.next - s.base then { s with base := s.base + d } else s

/-- What the sender may do; the list holds the acknowledgement it reacts to. -/
inductive Step (W M : Nat) : Sender α → List Nat → Sender α → Prop where
  | submit (s : Sender α) (a : α) : Step W M s [] { s with input := s.input ++ [a] }
  | send (s : Sender α) (given : s.next < s.input.length) (room : s.next < s.base + W) :
      Step W M s [] { s with next := s.next + 1, frames := s.frames ++ [some s.next] }
  | resend (s : Sender α) (k : Nat) (unacked : s.base ≤ k) (sent : k < s.next) :
      Step W M s [] { s with frames := s.frames ++ [some k] }
  | other (s : Sender α) : Step W M s [] { s with frames := s.frames ++ [none] }
  | ack (s : Sender α) (r : Nat) : Step W M s [r] (s.acked M r)

/-- A run, and the acknowledgements it reacts to in order. -/
inductive Run (W M : Nat) : Sender α → List Nat → Sender α → Prop where
  | refl (s : Sender α) : Run W M s [] s
  | tail {s s₁ s₂ : Sender α} {rs rs' : List Nat} (run : Run W M s rs s₁)
      (step : Step W M s₁ rs' s₂) : Run W M s (rs ++ rs') s₂

theorem Run.single {W M : Nat} {s s' : Sender α} {rs : List Nat} (step : Step W M s rs s') :
    Run W M s rs s' := by
  simpa using Run.tail (.refl s) step

theorem Run.trans {W M : Nat} {s s₁ s₂ : Sender α} {rs rs' : List Nat} (first : Run W M s rs s₁)
    (second : Run W M s₁ rs' s₂) : Run W M s (rs ++ rs') s₂ := by
  induction second with
  | refl => simpa using first
  | tail _ step ih => simpa [append_assoc] using Run.tail ih step

/-- The window, and the frames on the link: none is of an item not sent yet, and one that comes
after another is less than a window behind it. -/
structure Inv (W : Nat) (s : Sender α) : Prop where
  order : s.base ≤ s.next
  window : s.next ≤ s.base + W
  given : s.next ≤ s.input.length
  sent : ∀ k, some k ∈ s.frames → k < s.next
  near : s.frames.Pairwise fun x y => ∀ a b, x = some a → y = some b → a < b + W

section
variable {W M : Nat} {s s' : Sender α}

theorem inv_init : Inv W ({} : Sender α) :=
  ⟨le_rfl, zero_le _, le_rfl, by simp, by simp⟩

theorem near_append {frames : List (Option Nat)} {k : Nat}
    (near : frames.Pairwise fun x y => ∀ a b, x = some a → y = some b → a < b + W)
    (close : ∀ a, some a ∈ frames → a < k + W) :
    (frames ++ [some k]).Pairwise fun x y => ∀ a b, x = some a → y = some b → a < b + W := by
  rw [pairwise_append]
  refine ⟨near, pairwise_singleton _ _, ?_⟩
  intro x inside y last a b isA isB
  rw [mem_singleton.mp last] at isB
  obtain rfl := some.inj isB
  exact close a (isA ▸ inside)

theorem inv_acked (inv : Inv W s) (r : Nat) : Inv W (s.acked M r) := by
  have order := inv.order
  have window := inv.window
  unfold acked
  dsimp only
  split
  · next inWindow =>
    exact ⟨by dsimp only; omega, by dsimp only; omega, inv.given, inv.sent, inv.near⟩
  · exact inv

theorem inv_step (inv : Inv W s) {rs : List Nat} (step : Step W M s rs s') : Inv W s' := by
  have order := inv.order
  have window := inv.window
  cases step with
  | submit a =>
    refine ⟨order, window, ?_, inv.sent, inv.near⟩
    have := inv.given
    simp only [length_append, length_singleton]
    omega
  | send given room =>
    refine ⟨by dsimp only; omega, by dsimp only; omega, given, ?_, ?_⟩
    · intro k inside
      rcases mem_append.mp inside with before | last
      · exact lt_succ_of_lt (inv.sent k before)
      · obtain rfl := some.inj (mem_singleton.mp last)
        exact lt_succ_self _
    · apply near_append inv.near
      intro a before
      have := inv.sent a before
      omega
  | resend k unacked sent =>
    refine ⟨order, window, inv.given, ?_, ?_⟩
    · intro j inside
      rcases mem_append.mp inside with before | last
      · exact inv.sent j before
      · obtain rfl := some.inj (mem_singleton.mp last)
        exact sent
    · apply near_append inv.near
      intro a before
      have := inv.sent a before
      omega
  | other =>
    refine ⟨order, window, inv.given, ?_, ?_⟩
    · intro k inside
      rcases mem_append.mp inside with before | last
      · exact inv.sent k before
      · exact absurd (mem_singleton.mp last) (by simp)
    · rw [pairwise_append]
      refine ⟨inv.near, pairwise_singleton _ _, ?_⟩
      intro x _ y last a b _ isB
      rw [mem_singleton.mp last] at isB
      exact absurd isB (by simp)
  | ack r => exact inv_acked inv r

/-- An acknowledgement from inside the window says what it acknowledges. -/
theorem acked_eq (small : W < M) (inv : Inv W s) {a : Nat} (lower : s.base ≤ a)
    (upper : a ≤ s.next) : s.acked M (a % M) = { s with base := a } := by
  have window := inv.window
  obtain ⟨d, rfl⟩ := Nat.exists_eq_add_of_le lower
  have far : d < M := by omega
  have residue : s.base % M < M := Nat.mod_lt _ (by omega)
  have parts : (s.base + d) % M = (s.base % M + d) % M := by simp [add_mod]
  have distance : ((s.base + d) % M + M - s.base % M) % M = d := by
    rw [parts]
    by_cases wraps : s.base % M + d < M
    · rw [mod_eq_of_lt wraps, show s.base % M + d + M - s.base % M = d + M by omega,
        Nat.add_mod_right, Nat.mod_eq_of_lt far]
    · have once : (s.base % M + d) % M = s.base % M + d - M := by
        rw [Nat.mod_eq_sub_mod (Nat.le_of_not_lt wraps), Nat.mod_eq_of_lt (by omega)]
      rw [once, show s.base % M + d - M + M - s.base % M = d by omega, Nat.mod_eq_of_lt far]
  unfold acked
  dsimp only
  rw [distance, if_pos (by omega)]

end

end Sender

/-! ## Links -/

/-- What a FIFO link that loses and repeats frames may deliver of what was `sent`, with the
position of the last delivery before and after. -/
inductive Heard {β : Type*} (sent : List β) : Nat → List β → Nat → Prop where
  | nil (pos : Nat) : Heard sent pos [] pos
  | cons {pos i pos' : Nat} {r : β} {rs : List β} (later : pos ≤ i) (at_ : sent[i]? = some r)
      (rest : Heard sent i rs pos') : Heard sent pos (r :: rs) pos'

theorem Heard.map {β γ : Type*} (f : β → γ) {sent : List β} {pos pos' : Nat} {rs : List β}
    (heard : Heard sent pos rs pos') : Heard (sent.map f) pos (rs.map f) pos' := by
  induction heard with
  | nil pos => exact .nil pos
  | cons later at_ _ ih => exact .cons later (by rw [getElem?_map, at_]; rfl) ih

theorem Heard.of_append {β : Type*} {sent : List β} {pos pos' : Nat} {rs rs' : List β}
    (heard : Heard sent pos (rs ++ rs') pos') :
    ∃ mid, Heard sent pos rs mid ∧ Heard sent mid rs' pos' := by
  induction rs generalizing pos with
  | nil => exact ⟨pos, .nil pos, heard⟩
  | cons r rs ih =>
    cases heard with
    | cons later at_ rest =>
      obtain ⟨mid, first, second⟩ := ih rest
      exact ⟨mid, .cons later at_ first, second⟩

/-! ## Both ends -/

/-- The sender, what the receiver has taken, the position of the last frame it heard, the counts
it acknowledged, and the position of the last one the sender heard. -/
structure System (α : Type*) where
  sender : Sender α := {}
  got : List α := []
  seen : Nat := 0
  acks : List Nat := []
  ackSeen : Nat := 0

namespace System

/-- The receiver takes an item if its number is the next one. -/
def takes (M : Nat) (y : System α) (frame : Option Nat) : List α :=
  match frame with
  | none => y.got
  | some k => if k % M = y.got.length % M then y.got ++ y.sender.input[k]?.toList else y.got

inductive Step (W M : Nat) : System α → System α → Prop where
  | send (y : System α) {rs : List Nat} {pos : Nat} {s' : Sender α}
      (heard : Heard (y.acks.map (· % M)) y.ackSeen rs pos) (run : Sender.Run W M y.sender rs s') :
      Step W M y { y with sender := s', ackSeen := pos }
  | receive (y : System α) (i : Nat) (frame : Option Nat) (later : y.seen ≤ i)
      (sent : y.sender.frames[i]? = some frame) :
      Step W M y { y with got := y.takes M frame, seen := i }
  | reply (y : System α) : Step W M y { y with acks := y.acks ++ [y.got.length] }

/-- The sender's window lies around what the receiver has taken, and the acknowledgements still
on the link lie inside it. -/
structure Inv (W : Nat) (y : System α) : Prop where
  sender : y.sender.Inv W
  got : y.got = y.sender.input.take y.got.length
  base_le : y.sender.base ≤ y.got.length
  le_next : y.got.length ≤ y.sender.next
  sorted : y.acks.Pairwise (· ≤ ·)
  acks_le : ∀ a ∈ y.acks, a ≤ y.got.length
  ackAhead : ∀ i a, y.ackSeen ≤ i → y.acks[i]? = some a → y.sender.base ≤ a
  last : ∀ n, y.got.length = n + 1 → ∃ p ≤ y.seen, y.sender.frames[p]? = some (some n)

section
variable {W M : Nat} {y y' : System α}

theorem inv_init : Inv W ({} : System α) where
  sender := Sender.inv_init
  got := rfl
  base_le := le_rfl
  le_next := le_rfl
  sorted := .nil
  acks_le := by simp
  ackAhead := by simp
  last := by simp

/-- A step of the sender that leaves what is acknowledged alone. -/
theorem Inv.quiet {s' : Sender α} (inv : Inv W y) (sender : s'.Inv W)
    (input : y.sender.input <+: s'.input) (base : s'.base = y.sender.base)
    (next : y.sender.next ≤ s'.next) (frames : y.sender.frames <+: s'.frames) :
    Inv W { y with sender := s' } where
  sender := sender
  got := by
    obtain ⟨more, grown⟩ := input
    have inside : y.got.length ≤ y.sender.input.length := inv.le_next.trans inv.sender.given
    dsimp only
    rw [← grown, take_append_of_le_length inside]
    exact inv.got
  base_le := base ▸ inv.base_le
  le_next := inv.le_next.trans next
  sorted := inv.sorted
  acks_le := inv.acks_le
  ackAhead := fun i a later at_ => base ▸ inv.ackAhead i a later at_
  last := by
    intro n taken
    obtain ⟨p, before, at_⟩ := inv.last n taken
    obtain ⟨more, grown⟩ := frames
    refine ⟨p, before, ?_⟩
    have inside : p < y.sender.frames.length := (List.getElem?_eq_some_iff.mp at_).1
    dsimp only
    rw [← grown, List.getElem?_append_left inside]
    exact at_

/-- The sender hears an acknowledgement: it is of a count inside the window, and none that is
still to come is of less. -/
theorem Inv.ack (small : W < M) (inv : Inv W y) {i a : Nat} (later : y.ackSeen ≤ i)
    (at_ : y.acks[i]? = some a) :
    Inv W { y with sender := y.sender.acked M (a % M), ackSeen := i } := by
  have lower := inv.ackAhead i a later at_
  have taken := inv.acks_le a (mem_of_getElem? at_)
  have upper := taken.trans inv.le_next
  have window := (Sender.inv_acked inv.sender (a % M) : Sender.Inv W (y.sender.acked M (a % M)))
  rw [Sender.acked_eq small inv.sender lower upper] at window ⊢
  refine ⟨window, inv.got, taken, inv.le_next, inv.sorted, inv.acks_le, ?_, inv.last⟩
  intro j b after atJ
  obtain ⟨insideI, rfl⟩ := List.getElem?_eq_some_iff.mp at_
  obtain ⟨insideJ, rfl⟩ := List.getElem?_eq_some_iff.mp atJ
  rcases eq_or_lt_of_le after with rfl | strictly
  · exact le_rfl
  · exact pairwise_iff_getElem.mp inv.sorted i j insideI insideJ strictly

theorem inv_senderStep (small : W < M) (inv : Inv W y) {rs : List Nat} {pos : Nat} {s' : Sender α}
    (heard : Heard (y.acks.map (· % M)) y.ackSeen rs pos)
    (step : Sender.Step W M y.sender rs s') : Inv W { y with sender := s', ackSeen := pos } := by
  have sender := Sender.inv_step inv.sender step
  cases step with
  | submit a =>
    cases heard
    exact inv.quiet sender (prefix_append _ _) rfl le_rfl (prefix_refl _)
  | send given room =>
    cases heard
    exact inv.quiet sender (prefix_refl _) rfl (le_succ _) (prefix_append _ _)
  | resend k unacked sent =>
    cases heard
    exact inv.quiet sender (prefix_refl _) rfl le_rfl (prefix_append _ _)
  | other =>
    cases heard
    exact inv.quiet sender (prefix_refl _) rfl le_rfl (prefix_append _ _)
  | ack r =>
    cases heard with
    | cons later at_ rest =>
      cases rest
      rw [getElem?_map, map_eq_some_iff] at at_
      obtain ⟨a, at_, rfl⟩ := at_
      exact inv.ack small later at_

theorem inv_senderRun (small : W < M) {s s' : Sender α} {rs : List Nat}
    (run : Sender.Run W M s rs s') {y : System α} (inv : Inv W y) (same : y.sender = s) {pos : Nat}
    (heard : Heard (y.acks.map (· % M)) y.ackSeen rs pos) :
    Inv W { y with sender := s', ackSeen := pos } := by
  induction run generalizing pos with
  | refl =>
    cases heard
    subst same
    exact inv
  | tail run step ih =>
    obtain ⟨mid, first, second⟩ := heard.of_append
    exact inv_senderStep small (ih first) second step

/-- The number of a frame that comes next is the receiver's only if the frame is the next one:
it is less than a window ahead of what was taken, and at most a window behind. -/
theorem eq_of_residue (small : W < M) (positive : 0 < W) (inv : Inv W y) {i k : Nat}
    (later : y.seen ≤ i) (sent : y.sender.frames[i]? = some (some k))
    (residue : k % M = y.got.length % M) : k = y.got.length := by
  have window := inv.sender.window
  have ahead : k < y.sender.next := inv.sender.sent k (mem_of_getElem? sent)
  have behind : y.got.length ≤ k + W := by
    rcases eq_zero_or_eq_succ_pred y.got.length with none | taken
    · omega
    · obtain ⟨p, before, at_⟩ := inv.last _ taken
      rcases eq_or_lt_of_le (before.trans later) with rfl | strictly
      · rw [sent] at at_
        have : k = y.got.length.pred := some.inj (some.inj at_)
        omega
      · obtain ⟨insideP, atP⟩ := List.getElem?_eq_some_iff.mp at_
        obtain ⟨insideI, atI⟩ := List.getElem?_eq_some_iff.mp sent
        have := List.pairwise_iff_getElem.mp inv.sender.near p i insideP insideI strictly _ _
          atP atI
        omega
  have base_le := inv.base_le
  by_contra differs
  rcases lt_or_gt_of_ne differs with less | more
  · have divides : M ∣ y.got.length - k := (modEq_iff_dvd' less.le).mp residue
    have := le_of_dvd (by omega) divides
    omega
  · have divides : M ∣ k - y.got.length := (modEq_iff_dvd' more.le).mp residue.symm
    have := le_of_dvd (by omega) divides
    omega

theorem inv_receive (small : W < M) (positive : 0 < W) (inv : Inv W y) {i : Nat}
    {frame : Option Nat} (later : y.seen ≤ i) (sent : y.sender.frames[i]? = some frame) :
    Inv W { y with got := y.takes M frame, seen := i } := by
  -- a frame that is not taken only moves the position
  have skipped : Inv W { y with seen := i } :=
    { inv with
      last := fun n taken => by
        obtain ⟨p, before, at_⟩ := inv.last n taken
        exact ⟨p, before.trans later, at_⟩ }
  cases frame with
  | none => exact skipped
  | some k =>
    unfold takes
    dsimp only
    split
    · next residue =>
      obtain rfl := eq_of_residue small positive inv later sent residue
      have ahead : y.got.length < y.sender.next :=
        inv.sender.sent _ (mem_of_getElem? sent)
      have inside : y.got.length < y.sender.input.length := ahead.trans_le inv.sender.given
      have grown : (y.got ++ y.sender.input[y.got.length]?.toList).length = y.got.length + 1 := by
        simp [inside]
      constructor
      · exact inv.sender
      · dsimp only
        rw [grown, take_add_one]
        exact congrArg (· ++ _) inv.got
      · dsimp only
        rw [grown]
        exact inv.base_le.trans (le_succ _)
      · dsimp only
        rw [grown]
        exact ahead
      · exact inv.sorted
      · intro a inside
        dsimp only
        rw [grown]
        exact (inv.acks_le a inside).trans (le_succ _)
      · exact inv.ackAhead
      · intro n taken
        dsimp only at taken
        rw [grown] at taken
        obtain rfl : y.got.length = n := succ.inj taken
        exact ⟨i, le_rfl, sent⟩
    · exact skipped

theorem inv_reply (inv : Inv W y) : Inv W { y with acks := y.acks ++ [y.got.length] } where
  sender := inv.sender
  got := inv.got
  base_le := inv.base_le
  le_next := inv.le_next
  sorted := by
    rw [pairwise_append]
    refine ⟨inv.sorted, pairwise_singleton _ _, ?_⟩
    intro a before b last
    rw [mem_singleton.mp last]
    exact inv.acks_le a before
  acks_le := by
    intro a inside
    rcases mem_append.mp inside with before | last
    · exact inv.acks_le a before
    · exact (mem_singleton.mp last).le
  ackAhead := by
    intro i a later at_
    dsimp only at at_
    rw [getElem?_append] at at_
    split at at_
    · exact inv.ackAhead i a later at_
    rw [getElem?_singleton] at at_
    split at at_
    · exact some.inj at_ ▸ inv.base_le
    · cases at_
  last := inv.last

theorem inv_step (small : W < M) (positive : 0 < W) (inv : Inv W y) (step : Step W M y y') :
    Inv W y' := by
  cases step with
  | send heard run => exact inv_senderRun small run inv rfl heard
  | receive i frame later sent => exact inv_receive small positive inv later sent
  | reply => exact inv_reply inv

/-- The states both ends can get into. -/
abbrev Reachable (W M : Nat) : System α → Prop := Relation.ReflTransGen (Step W M) {}

theorem reachable_inv (small : W < M) (positive : 0 < W) (reachable : Reachable W M y) :
    Inv W y := by
  induction reachable with
  | refl => exact inv_init
  | tail _ step ih => exact inv_step small positive ih step

/-- What was taken is a beginning of what was given: nothing lost, repeated or reordered. -/
theorem Reachable.got_prefix (small : W < M) (positive : 0 < W) (reachable : Reachable W M y) :
    y.got <+: y.sender.input := by
  rw [(reachable_inv small positive reachable).got]
  exact take_prefix _ _

end

end System

end QemuIos.GoBackN

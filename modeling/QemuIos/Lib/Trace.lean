import Mathlib.Data.List.Basic

/-!
# Conditions along a run

A machine takes one event after the other. Something that each step keeps as long as the step meets
a condition holds wherever a run leads whose steps all meet it (`Along.keep`); where a step that
does not meet the condition can be told from the state it leads to, the steps of a run all meet it
exactly if every state on the way is good (`every_iff`). Where such a step only opens the way to a
bad state, they all meet it exactly if no bad state can be got to by further steps that do
(`safe_iff`).
-/

namespace QemuIos.Trace

variable {σ ε : Type*} {step : σ → ε → σ} {ok : σ → ε → Prop}

/-- Every step of a run meets a condition in the state it starts from. -/
def Along (step : σ → ε → σ) (ok : σ → ε → Prop) : σ → List ε → Prop
  | _, [] => True
  | s, e :: rest => ok s e ∧ Along step ok (step s e) rest

theorem Along.keep {inv : σ → Prop} (kept : ∀ s e, inv s → ok s e → inv (step s e)) {s : σ}
    {events : List ε} (first : inv s) (along : Along step ok s events) :
    inv (events.foldl step s) := by
  induction events generalizing s with
  | nil => exact first
  | cons e rest ih => exact ih (kept s e first along.1) along.2

/-- Two conditions that come to the same where an invariant holds. -/
theorem along_iff {inv : σ → Prop} {good : σ → ε → Prop}
    (kept : ∀ s e, inv s → ok s e → inv (step s e)) (same : ∀ s e, inv s → (good s e ↔ ok s e))
    {s : σ} {events : List ε} (first : inv s) : Along step good s events ↔
    Along step ok s events := by
  induction events generalizing s with
  | nil => exact Iff.rfl
  | cons e rest ih =>
    rw [Along, Along, same s e first]
    exact and_congr_right fun met => ih (kept s e first met)

/-- The steps of a run all meet their condition exactly if every state on the way is good. -/
theorem every_iff {inv good : σ → Prop} (fine : ∀ s, inv s → good s)
    (kept : ∀ s e, inv s → ok s e → inv (step s e))
    (told : ∀ s e, inv s → good (step s e) → ok s e) {s : σ} (events : List ε) (first : inv s) :
    (∀ n, good ((events.take n).foldl step s)) ↔ Along step ok s events := by
  induction events generalizing s with
  | nil => exact iff_of_true (fun n => by rw [List.take_nil]; exact fine s first) trivial
  | cons e rest ih =>
    constructor
    · intro all
      have met : ok s e := told s e first (all 1)
      exact ⟨met, (ih (kept s e first met)).mp fun n => all (n + 1)⟩
    · rintro ⟨met, later⟩ n
      cases n with
      | zero => exact fine s first
      | succ n => exact (ih (kept s e first met)).mpr later n

/-- The steps of a run all meet their condition exactly if from no state on the way a bad state is
got to by steps that meet it. -/
theorem safe_iff {inv good : σ → Prop} (fine : ∀ s, inv s → good s)
    (kept : ∀ s e, inv s → ok s e → inv (step s e))
    (told : ∀ s e, inv s → ¬ ok s e →
      ∃ tail, Along step ok (step s e) tail ∧ ¬ good (tail.foldl step (step s e)))
    {s : σ} (events : List ε) (first : inv s) :
    Along step ok s events ↔
      ∀ n tail, Along step ok ((events.take n).foldl step s) tail →
        good (tail.foldl step ((events.take n).foldl step s)) := by
  induction events generalizing s with
  | nil =>
    refine iff_of_true trivial fun n tail along => ?_
    rw [List.take_nil] at along ⊢
    exact fine _ (along.keep kept first)
  | cons e rest ih =>
    constructor
    · rintro ⟨met, later⟩ n tail along
      cases n with
      | zero => exact fine _ (along.keep kept first)
      | succ n => exact (ih (kept s e first met)).mp later n tail along
    · intro all
      have met : ok s e := by
        by_contra unmet
        obtain ⟨tail, along, bad⟩ := told s e first unmet
        exact bad (all 1 tail along)
      exact ⟨met, (ih (kept s e first met)).mpr fun n => all (n + 1)⟩

end QemuIos.Trace

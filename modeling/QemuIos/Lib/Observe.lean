import Mathlib.Data.List.Basic

/-!
# Observed runs

A machine that takes its input one symbol at a time, with what is seen of it at each symbol. How
the input is cut into pieces makes no difference to what is seen (`observeIn_eq`), and a part of
the machine that no step disturbs is seen as if it ran alone (`observe_part`).
-/

namespace QemuIos

variable {σ β γ : Type*}

/-- What is seen while the input is taken. -/
def observe (step : σ → β → σ) (see : σ → β → List γ) : σ → List β → List γ
  | _, [] => []
  | s, b :: rest => see s b ++ observe step see (step s b) rest

/-- The same for input that arrives in pieces. -/
def observeIn (step : σ → β → σ) (see : σ → β → List γ) : σ → List (List β) → List γ
  | _, [] => []
  | s, piece :: pieces =>
    observe step see s piece ++ observeIn step see (piece.foldl step s) pieces

theorem observe_append (step : σ → β → σ) (see : σ → β → List γ) (s : σ) (first second : List β) :
    observe step see s (first ++ second) =
      observe step see s first ++ observe step see (first.foldl step s) second := by
  induction first generalizing s with
  | nil => rfl
  | cons b first ih => simp [observe, ih]

theorem observeIn_eq (step : σ → β → σ) (see : σ → β → List γ) (s : σ) (pieces : List (List β)) :
    observeIn step see s pieces = observe step see s pieces.flatten := by
  induction pieces generalizing s with
  | nil => rfl
  | cons piece pieces ih => rw [observeIn, List.flatten_cons, observe_append, ih]

/-- A run over an input: what is seen, and where it ends. -/
structure Sees (step : σ → β → σ) (see : σ → β → List γ) (s : σ) (input : List β) (seen : List γ)
    (s' : σ) : Prop where
  seen_eq : observe step see s input = seen
  ends : input.foldl step s = s'

namespace Sees

variable {step : σ → β → σ} {see : σ → β → List γ} {s s' s'' : σ}

theorem nil (s : σ) : Sees step see s [] [] s := ⟨rfl, rfl⟩

theorem single (s : σ) (b : β) : Sees step see s [b] (see s b) (step s b) :=
  ⟨List.append_nil _, rfl⟩

theorem append {first second : List β} {seen₁ seen₂ : List γ}
    (run₁ : Sees step see s first seen₁ s') (run₂ : Sees step see s' second seen₂ s'') :
    Sees step see s (first ++ second) (seen₁ ++ seen₂) s'' where
  seen_eq := by rw [observe_append, run₁.ends, run₁.seen_eq, run₂.seen_eq]
  ends := by rw [List.foldl_append, run₁.ends, run₂.ends]

end Sees

/-- A part that steps on its own, and from which everything seen can be told. -/
theorem observe_part {ρ : Type*} (step : σ → β → σ) (see : σ → β → List γ) (part : σ → ρ)
    (partStep : ρ → β → ρ) (partSee : ρ → β → List γ)
    (steps : ∀ s b, part (step s b) = partStep (part s) b)
    (sees : ∀ s b, see s b = partSee (part s) b) (s : σ) (input : List β) :
    observe step see s input = observe partStep partSee (part s) input ∧
      part (input.foldl step s) = input.foldl partStep (part s) := by
  induction input generalizing s with
  | nil => exact ⟨rfl, rfl⟩
  | cons b rest ih =>
    obtain ⟨seen, ended⟩ := ih (step s b)
    rw [steps] at seen ended
    refine ⟨?_, ended⟩
    rw [observe, observe, seen, sees]

end QemuIos

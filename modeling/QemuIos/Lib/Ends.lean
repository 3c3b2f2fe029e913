import Mathlib.Data.List.Basic

/-!
# Computations that end well

A computation that may fail, and does not: it ends in a value with a property. The rules follow the
shape of the program, so that what a function keeps is shown without looking at how its callees do
it.
-/

namespace QemuIos

variable {ε α β γ : Type}

/-- The computation does not fail, and its result has a property. -/
def Ends (p : α → Prop) (r : Except ε α) : Prop := ∃ a, r = .ok a ∧ p a

namespace Ends

variable {p : α → Prop} {q : β → Prop}

theorem ok {a : α} (holds : p a) : Ends p (.ok a : Except ε α) := ⟨a, rfl, holds⟩

theorem bind {r : Except ε α} {f : α → Except ε β} (first : Ends p r)
    (second : ∀ a, p a → Ends q (f a)) : Ends q (r >>= f) := by
  obtain ⟨a, rfl, holds⟩ := first
  exact second a holds

theorem ite {c : Prop} [Decidable c] {r₁ r₂ : Except ε α} (yes : c → Ends p r₁)
    (no : ¬ c → Ends p r₂) : Ends p (if c then r₁ else r₂) := by
  split
  · next holds => exact yes holds
  · next fails => exact no fails

theorem foldlM {f : α → β → Except ε α} (each : ∀ a b, p a → Ends p (f a b)) {a : α}
    (first : p a) (items : List β) : Ends p (items.foldlM f a) := by
  induction items generalizing a with
  | nil => exact ok first
  | cons b items ih =>
    rw [List.foldlM_cons]
    exact (each a b first).bind fun a' holds => ih holds

theorem mono {p' : α → Prop} {r : Except ε α} (ends : Ends p r) (weaker : ∀ a, p a → p' a) :
    Ends p' r := by
  obtain ⟨a, rfl, holds⟩ := ends
  exact ok (weaker a holds)

end Ends

/-- If the computation does not fail, this is its result. -/
def Gives (a : α) (r : Except ε α) : Prop := ∀ b, r = .ok b → b = a

namespace Gives

variable {a : α} {r : Except ε α} {v : γ → α}

theorem of_eq {b : α} (same : b = a) : Gives a (.ok b : Except ε α) :=
  fun _ done => (Except.ok.inj done).symm.trans same

theorem ok : Gives a (.ok a : Except ε α) := of_eq rfl

theorem error (e : ε) : Gives a (.error e) := fun _ failed => by cases failed

theorem bind {f : α → Except ε β} {b : β} (first : Gives a r) (second : Gives b (f a)) :
    Gives b (r >>= f) := by
  intro c done
  cases r with
  | error e => cases done
  | ok a' =>
    obtain rfl := first a' rfl
    exact second c done

section

variable {c : Prop} [Decidable c] {x y : γ}

theorem ite {r' : Except ε α} (yes : c → Gives (v x) r) (no : ¬ c → Gives (v y) r') :
    Gives (v (if c then x else y)) (if c then r else r') := by
  split
  · next holds => exact yes holds
  · next fails => exact no fails

theorem ok_ite {b : α} (yes : a = v x) (no : b = v y) :
    Gives (v (if c then x else y)) (.ok (if c then a else b) : Except ε α) := by
  split
  · exact of_eq yes
  · exact of_eq no

end

/-- Step by step what `g` makes of a view. -/
theorem foldlM {f : α → β → Except ε α} {g : γ → β → γ}
    (each : ∀ c b, Gives (v (g c b)) (f (v c) b)) (c : γ) (items : List β) :
    Gives (v (items.foldl g c)) (items.foldlM f (v c)) := by
  induction items generalizing c with
  | nil => exact ok
  | cons b items ih =>
    rw [List.foldlM_cons]
    exact (each c b).bind (ih _)

theorem of_ends {p : α → Prop} (gives : Gives a r) (ends : Ends p r) : r = .ok a := by
  obtain ⟨b, rfl, -⟩ := ends
  rw [gives b rfl]

end Gives

end QemuIos

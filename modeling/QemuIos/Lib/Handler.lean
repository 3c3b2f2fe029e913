import Mathlib.Data.List.Basic

/-!
# Handlers that call back

A device's handler changes the device's own world and may, between two changes, call into the
machine that uses the device. What it does next may depend on what the calls have done to its world.
A handler is therefore a tree: nothing more to do, or a call and how to go on behind it. Running one
over a machine that holds the world takes the meaning of a call; what every call and every change of
the world keep, a handler keeps.
-/

namespace QemuIos

/-- What a handler still does: `κ` are the calls it can make, `ω` is its own world. -/
inductive Handler (κ ω : Type) where
  | ret
  | call (c : κ) (change : ω → ω) (rest : ω → Handler κ ω)

namespace Handler

variable {κ ω σ : Type} (call : κ → σ → σ) (world : σ → ω) (put : σ → ω → σ)

/-- Run a handler over a machine that holds its world. -/
def exec : Handler κ ω → σ → σ
  | ret, s => s
  | .call c change rest, s =>
    let s := call c s
    let w := change (world s)
    exec (rest w) (put s w)

/-- A handler that does one call after the other and changes nothing itself. -/
def calls : List κ → Handler κ ω
  | [] => ret
  | c :: rest => .call c id fun _ => calls rest

variable {call world put} {p : σ → Prop}

theorem exec_keep (called : ∀ c s, p s → p (call c s)) (changed : ∀ s w, p s → p (put s w))
    (h : Handler κ ω) {s : σ} (first : p s) : p (h.exec call world put s) := by
  induction h generalizing s with
  | ret => exact first
  | call c change rest ih => exact ih _ (changed _ _ (called c s first))

end Handler

end QemuIos

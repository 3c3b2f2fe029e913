import Mathlib.Data.List.Basic

/-!
# Chained block transducers

A filter that takes a stream a block at a time and carries a state from one block to the next, as a
cipher in a chaining mode does.
-/

namespace QemuIos.Blocks

variable {σ α : Type*} (size : Nat) (step : σ → List α → List α × σ)

/-- The output for `n` blocks, and the state behind them. -/
def run : Nat → σ → List α → List α × σ
  | 0, c, _ => ([], c)
  | n + 1, c, data =>
    let block := step c (data.take size)
    let rest := run n block.2 (data.drop size)
    (block.1 ++ rest.1, rest.2)

end QemuIos.Blocks

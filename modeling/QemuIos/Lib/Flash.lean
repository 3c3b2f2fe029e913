import Mathlib.Data.UInt

/-!
# Arrays of flash pages

A program clears bits of one page, an erase sets every bit of a block. What a page holds after a run
is told by its own past alone: the AND of its programs since its block was last erased, over all
ones, or over what it held at first if no erase reached it (`run_byte`).
-/

namespace QemuIos.Flash
open List

variable {α : Type*} [DecidableEq α]

/-- The bytes of the page at each address. -/
abbrev Pages (α : Type*) := α → Nat → UInt8

inductive Op (α : Type*)
  | program (cell : α) (mask : Nat → UInt8)
  | erase (block : α → Bool)

def Pages.apply (pages : Pages α) : Op α → Pages α
  | .program cell mask => Function.update pages cell fun i => pages cell i &&& mask i
  | .erase block => fun a => if block a then fun _ => 0xff else pages a

/-- What became of one page: whether its block was erased, and the programs since then. -/
structure Past where
  erased : Bool
  programs : List (Nat → UInt8)

/-- One operation more. Only a program of this page and an erase of its block count. -/
def Past.after (a : α) (past : Past) : Op α → Past
  | .program cell mask =>
    if a = cell then { past with programs := past.programs ++ [mask] } else past
  | .erase block => if block a then ⟨true, []⟩ else past

/-- The past of a page along a run. -/
def past (ops : List (Op α)) (a : α) : Past := ops.foldl (Past.after a) ⟨false, []⟩

/-- The AND of what was there at first, or of all ones, with every program since the last erase. -/
def Past.byte (past : Past) (first : Nat → UInt8) (i : Nat) : UInt8 :=
  past.programs.foldl (fun v program => v &&& program i) (if past.erased then 0xff else first i)

theorem Past.byte_congr (past : Past) {first first' : Nat → UInt8} {i : Nat}
    (same : first i = first' i) : past.byte first i = past.byte first' i := by
  rw [Past.byte, Past.byte, same]

theorem apply_byte {pages : Pages α} {a : α} {past : Past} {first : Nat → UInt8}
    (held : ∀ i, pages a i = past.byte first i) (op : Op α) (i : Nat) :
    pages.apply op a i = (past.after a op).byte first i := by
  cases op with
  | program cell mask =>
    rw [Pages.apply, Past.after]
    by_cases same : a = cell
    · subst same
      rw [Function.update_self, if_pos rfl, held i, Past.byte, Past.byte, foldl_concat]
    · rw [Function.update_of_ne same, if_neg same, held i]
  | erase block =>
    rw [Pages.apply, Past.after]
    by_cases hit : block a
    · simp only [hit, if_true]
      rfl
    · simp only [hit, Bool.false_eq_true, if_false]
      exact held i

/-- A page after a run holds what its past says. -/
theorem run_byte (pages : Pages α) (ops : List (Op α)) (a : α) (i : Nat) :
    ops.foldl Pages.apply pages a i = (past ops a).byte (pages a) i := by
  induction ops using reverseRecOn generalizing i with
  | nil => rfl
  | append_singleton ops op ih =>
    rw [past, foldl_concat, foldl_concat]
    exact apply_byte ih op i

end QemuIos.Flash

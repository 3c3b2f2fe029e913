import QemuIos.Lib.CText

/-!
# Fixed-size byte buffers

A C array with a fill count. Only the count is reset when a buffer is used again: what lies
behind it is what was written there before, and code that reads past the count sees it.
-/

namespace QemuIos
open CText List Function

structure Buf (cap : Nat) where
  data : Nat → UInt8
  len : Nat
  bound : len ≤ cap

namespace Buf

variable {cap : Nat} (b : Buf cap)

/-- A buffer of zeros with nothing in it. -/
def zero : Buf cap := ⟨fun _ => 0, 0, Nat.zero_le cap⟩

/-- The bytes up to the fill count. -/
def contents : Bytes := (List.range b.len).map b.data

/-- The count is reset, the bytes stay. -/
def clear : Buf cap := { b with len := 0, bound := Nat.zero_le cap }

/-- One byte more, as long as there is room. -/
def push (c : UInt8) : Buf cap :=
  if room : b.len < cap then ⟨Function.update b.data b.len c, b.len + 1, room⟩ else b

/-- The C string that starts at an index. -/
def cstrFrom (start : Nat) : Bytes :=
  cstr (((List.range cap).drop start).map b.data)

/-- A NUL behind the bytes up to the fill count. -/
def terminate : Buf cap := { b with data := Function.update b.data b.len 0 }

@[simp] theorem clear_len : b.clear.len = 0 := rfl

@[simp] theorem length_contents : b.contents.length = b.len := by simp [contents]

theorem push_len {b : Buf cap} (room : b.len < cap) (c : UInt8) : (b.push c).len = b.len + 1 := by
  simp [push, room]

theorem push_full {b : Buf cap} (full : ¬ b.len < cap) (c : UInt8) : b.push c = b := by
  simp [push, full]

theorem contents_push {b : Buf cap} (room : b.len < cap) (c : UInt8) :
    (b.push c).contents = b.contents ++ [c] := by
  have old : ∀ i ∈ range b.len, update b.data b.len c i = b.data i := by
    intro i inside
    exact update_of_ne (mem_range.mp inside).ne _ _
  unfold contents push
  rw [dif_pos room]
  dsimp only
  rw [range_succ, map_append, map_singleton, update_self,
    map_congr_left old]

/-- A byte inside the count. -/
theorem data_eq {i : Nat} (inside : i < b.len) : b.data i = b.contents.getD i 0 := by
  simp [contents, inside]

end Buf

end QemuIos

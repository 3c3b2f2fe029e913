import Mathlib.Data.List.Basic
import Mathlib.Tactic.Ring
import Mathlib.Logic.Function.Basic

/-!
# Ring buffers

A queue in a ring of `cap` cells: a head and a fill count. An operation whose precondition does not
hold has no result. Each operation is described by what it does to the queue, `contents`, whatever
the place of the head; only `popBufptr`, which hands out a piece of the ring itself, stops at the
ring's end.
-/

namespace QemuIos

open List Nat

structure Ring (α : Type) (cap : Nat) where
  data : Nat → α
  head : Nat
  num : Nat
  front : 0 < cap → head < cap
  bound : num ≤ cap

namespace Ring

variable {α : Type} {cap : Nat}

variable (r : Ring α cap)

/-- Nothing in it; the cells stay. -/
def reset : Ring α cap :=
  { r with head := 0, num := 0, front := fun some => some, bound := Nat.zero_le cap }

/-- The queue, oldest first. -/
def contents : List α :=
  (List.range r.num).map fun i => r.data ((r.head + i) % cap)

def push (x : α) : Option (Ring α cap) :=
  if room : r.num < cap then
    some { r with
      data := Function.update r.data ((r.head + r.num) % cap) x, num := r.num + 1, bound := room }
  else none

/-- `memcpy` into the cells from a place on. -/
def copyAt (data : Nat → α) (start : Nat) (xs : List α) : Nat → α :=
  fun j => if start ≤ j then xs.getD (j - start) (data j) else data j

/-- The cells behind the queue, and from the ring's start where they go past its end. -/
def pushAll (xs : List α) : Option (Ring α cap) :=
  if room : r.num + xs.length ≤ cap then
    let start := (r.head + r.num) % cap
    let avail := cap - start
    let data :=
      if start + xs.length ≤ cap then copyAt r.data start xs
      else copyAt (copyAt r.data start (xs.take avail)) 0 (xs.drop avail)
    some { r with data, num := r.num + xs.length, bound := room }
  else none

def pop : Option (α × Ring α cap) :=
  if 0 < r.num then
    some (r.data r.head,
      { r with
        head := (r.head + 1) % cap, num := r.num - 1, front := fun pos => Nat.mod_lt _ pos
        bound := (Nat.sub_le _ _).trans r.bound })
  else none

/-- Up to `max` of the oldest, as far as they lie in one piece. -/
def popBufptr (max : Nat) : Option (List α × Ring α cap) :=
  if 0 < max ∧ max ≤ r.num then
    let n := min (cap - r.head) max
    some ((List.range n).map fun i => r.data (r.head + i),
      { r with
        head := (r.head + n) % cap, num := r.num - n, front := fun pos => Nat.mod_lt _ pos
        bound := (Nat.sub_le _ _).trans r.bound })
  else none

variable (r : Ring α cap)

@[simp] theorem length_contents : r.contents.length = r.num := by
  simp [contents]

theorem getElem?_contents {i : Nat} (inside : i < r.num) :
    r.contents[i]? = some (r.data ((r.head + i) % cap)) := by
  simp [contents, inside]

/-- A place in the ring, at most one turn from the head. -/
theorem mod_of_lt_double {a : Nat} (once : a < 2 * cap) :
    (a < cap ∧ a % cap = a) ∨ (cap ≤ a ∧ a % cap = a - cap) := by
  by_cases less : a < cap
  · exact .inl ⟨less, mod_eq_of_lt less⟩
  · refine .inr ⟨by omega, ?_⟩
    rw [mod_eq_sub_mod (by omega), mod_eq_of_lt (by omega)]

theorem contents_eq_of {r : Ring α cap} {xs : List α} (length : r.num = xs.length)
    (cells : ∀ i, i < r.num → xs[i]? = some (r.data ((r.head + i) % cap))) : r.contents = xs := by
  apply ext_getElem?
  intro i
  by_cases inside : i < r.num
  · rw [r.getElem?_contents inside, cells i inside]
  · rw [getElem?_eq_none (by simpa using by omega), getElem?_eq_none (by omega)]

theorem push_eq {r : Ring α cap} (room : r.num < cap) (x : α) :
    ∃ r', r.push x = some r' ∧ r'.contents = r.contents ++ [x] := by
  have front := r.front (by omega)
  have bound := r.bound
  refine ⟨_, dif_pos room, ?_⟩
  apply contents_eq_of
  · simp
  · intro i inside
    dsimp only at inside ⊢
    by_cases old : i < r.num
    · have other : (r.head + i) % cap ≠ (r.head + r.num) % cap := by
        have here := mod_of_lt_double (show r.head + i < 2 * cap by omega)
        have there := mod_of_lt_double (show r.head + r.num < 2 * cap by omega)
        omega
      rw [Function.update_of_ne other, getElem?_append_left (by simpa using old),
        r.getElem?_contents old]
    · have last : i = r.num := by omega
      subst last
      rw [Function.update_self, getElem?_append_right (by simp)]
      simp

theorem copyAt_of_mem (data : Nat → α) (start : Nat) (xs : List α) {k : Nat}
    (inside : k < xs.length) : some (copyAt data start xs (start + k)) = xs[k]? := by
  rw [copyAt, if_pos (Nat.le_add_right _ _), Nat.add_sub_cancel_left]
  simp [inside]

theorem copyAt_of_not_mem {data : Nat → α} {start : Nat} {xs : List α} {j : Nat}
    (outside : j < start ∨ start + xs.length ≤ j) : copyAt data start xs j = data j := by
  unfold copyAt
  split
  · have past : xs[j - start]? = none := getElem?_eq_none (by omega)
    simp [past]
  · rfl

/-- The cells from a place on, around the ring's end. -/
theorem copyAt_around (data : Nat → α) {start : Nat} (inside : start < cap) {xs : List α}
    (fits : xs.length ≤ cap) {data' : Nat → α}
    (isData : data' = if start + xs.length ≤ cap then copyAt data start xs
      else copyAt (copyAt data start (xs.take (cap - start))) 0 (xs.drop (cap - start))) :
    (∀ k, k < xs.length → some (data' ((start + k) % cap)) = xs[k]?) ∧
      ∀ k, xs.length ≤ k → k < cap → data' ((start + k) % cap) = data ((start + k) % cap) := by
  have place : ∀ k, k < cap → (start + k < cap ∧ (start + k) % cap = start + k) ∨
      (cap ≤ start + k ∧ (start + k) % cap = start + k - cap) :=
    fun k less => mod_of_lt_double (by omega)
  subst isData
  by_cases whole : start + xs.length ≤ cap
  · rw [if_pos whole]
    refine ⟨fun k less => ?_, fun k more less => ?_⟩
    · have here := place k (by omega)
      rw [show (start + k) % cap = start + k by omega, copyAt_of_mem _ _ _ less]
    · have here := place k less
      rw [copyAt_of_not_mem (by omega)]
  · rw [if_neg whole]
    refine ⟨fun k less => ?_, fun k more less => ?_⟩
    · rcases place k (by omega) with ⟨early, here⟩ | ⟨late, here⟩
      · rw [here, copyAt_of_not_mem (.inr (by rw [length_drop]; omega)),
          copyAt_of_mem _ _ _ (by rw [length_take]; omega),
          getElem?_take_of_lt (by omega)]
      have cell := copyAt_of_mem (copyAt data start (xs.take (cap - start))) 0
        (xs.drop (cap - start)) (show start + k - cap < (xs.drop (cap - start)).length by
          rw [length_drop]; omega)
      rw [zero_add] at cell
      rw [here, cell, getElem?_drop]
      congr 1
      omega
    · have here := place k less
      rw [copyAt_of_not_mem (by rw [length_drop]; omega),
        copyAt_of_not_mem (by rw [length_take]; omega)]

theorem pushAll_eq {r : Ring α cap} {xs : List α} (room : r.num + xs.length ≤ cap) :
    ∃ r', r.pushAll xs = some r' ∧ r'.contents = r.contents ++ xs := by
  refine ⟨_, dif_pos room, ?_⟩
  apply contents_eq_of
  · simp
  intro i inside
  dsimp only at inside ⊢
  have front := r.front (by omega)
  obtain ⟨new, old⟩ := copyAt_around r.data (mod_lt (r.head + r.num) (show 0 < cap by omega))
    (show xs.length ≤ cap by omega) rfl
  by_cases before : i < r.num
  · -- an old cell lies behind the new ones, once around
    have around : (r.head + i) % cap =
        ((r.head + r.num) % cap + (cap - r.num + i)) % cap := by
      rw [mod_add_mod, show r.head + r.num + (cap - r.num + i) = r.head + i + cap by omega,
        add_mod_right]
    rw [getElem?_append_left (by simpa using before), r.getElem?_contents before, around,
      old _ (by omega) (by omega)]
  · obtain ⟨k, rfl⟩ : ∃ k, i = r.num + k := ⟨i - r.num, by omega⟩
    have around : (r.head + (r.num + k)) % cap = ((r.head + r.num) % cap + k) % cap := by
      rw [Nat.mod_add_mod, Nat.add_assoc]
    rw [getElem?_append_right (by simp), length_contents, Nat.add_sub_cancel_left, around,
      new k (by omega)]

theorem pop_eq {r : Ring α cap} (nonempty : 0 < r.num) :
    ∃ x r', r.pop = some (x, r') ∧ r.contents = x :: r'.contents := by
  have bound := r.bound
  have front := r.front (by omega)
  refine ⟨_, _, if_pos nonempty, ?_⟩
  apply contents_eq_of
  · simp only [length_cons, length_contents]
    omega
  · intro i inside
    cases i with
    | zero => rw [getElem?_cons_zero, add_zero, mod_eq_of_lt front]
    | succ i =>
      rw [getElem?_cons_succ, getElem?_contents _ (by dsimp only; omega)]
      dsimp only
      rw [mod_add_mod, add_assoc, add_comm 1 i]

/-- What is handed out is the front of the queue, up to the ring's end. -/
theorem popBufptr_eq {r : Ring α cap} {max : Nat} (positive : 0 < max) (waiting : max ≤ r.num) :
    ∃ r', r.popBufptr max = some (r.contents.take (min (cap - r.head) max), r') ∧
      r'.contents = r.contents.drop (min (cap - r.head) max) := by
  have bound := r.bound
  have front := r.front (by omega)
  have piece : ((range (min (cap - r.head) max)).map fun i => r.data (r.head + i)) =
      r.contents.take (min (cap - r.head) max) := by
    rw [contents, ← map_take, take_range,
      min_eq_left (show min (cap - r.head) max ≤ r.num by omega)]
    apply map_congr_left
    intro i inside
    have less := mem_range.mp inside
    rw [mod_eq_of_lt (by omega)]
  rw [← piece]
  refine ⟨_, if_pos ⟨positive, waiting⟩, ?_⟩
  apply contents_eq_of
  · simp only [length_drop, length_contents]
  · intro i inside
    dsimp only at inside ⊢
    rw [getElem?_drop, r.getElem?_contents (by omega), mod_add_mod, add_assoc]

end Ring

end QemuIos

import Mathlib

/-!
# Bounded FIFO sets

A list of distinct items that holds at most `cap` of them: adding one that is there changes
nothing, adding a new one to a full list drops the oldest. The list is always the end of the
sequence of everything that was ever appended (`addAll_items`), so an item is only gone once
`cap` others were appended behind it (`mem_rtake_of_recent`).
-/

namespace QemuIos

open List

structure Fifo (α : Type) (cap : Nat) where
  items : List α
  nodup : items.Nodup
  bound : items.length ≤ cap
  deriving DecidableEq, Repr

namespace Fifo

variable {α : Type} {cap : Nat}

def empty : Fifo α cap := ⟨[], List.nodup_nil, Nat.zero_le cap⟩

instance : Membership α (Fifo α cap) := ⟨fun q x => x ∈ q.items⟩

theorem mem_iff {q : Fifo α cap} {x : α} : x ∈ q ↔ x ∈ q.items := Iff.rfl

@[simp] theorem not_mem_empty (x : α) : x ∉ (empty : Fifo α cap) := by simp [mem_iff, empty]

/-- The list with its oldest item dropped when there is no room for another. -/
def makeRoom (q : Fifo α cap) : List α := if q.items.length = cap then q.items.tail else q.items

variable (q : Fifo α cap)

theorem makeRoom_sublist : q.makeRoom.Sublist q.items := by
  unfold makeRoom
  split
  · exact tail_sublist _
  · exact List.Sublist.refl _

theorem makeRoom_length [NeZero cap] : q.makeRoom.length < cap := by
  have room := q.bound
  have positive := NeZero.pos cap
  unfold makeRoom
  split
  · rw [length_tail]
    omega
  · omega

/-- Keeping the newest `n` of a list early or late is the same. -/
theorem rtake_rtake_append (l m : List α) (n : Nat) :
    (l.rtake n ++ m).rtake n = (l ++ m).rtake n := by
  have keep : l.drop (l.length - n) ++ m = (l ++ m).drop (l.length - n) :=
    (drop_append_of_le_length (by omega)).symm
  simp only [rtake, keep, drop_drop]
  congr 1
  simp only [length_drop, length_append]
  omega

/-- An item is still among the newest `n` as long as fewer than `n` came behind it. -/
theorem mem_rtake_of_recent {before after : List α} {x : α} {n : Nat} (recent : after.length < n) :
    x ∈ (before ++ x :: after).rtake n := by
  have enough : (before ++ x :: after).length - n ≤ before.length := by
    simp only [length_append, length_cons]
    omega
  rw [rtake, drop_append_of_le_length enough]
  exact mem_append_right _ mem_cons_self

theorem mem_of_mem_rtake {l : List α} {x : α} {n : Nat} (member : x ∈ l.rtake n) : x ∈ l :=
  mem_of_mem_drop member

/-- Dropping the oldest item when full is keeping the newest `cap`. -/
theorem rtake_append_singleton [NeZero cap] (x : α) :
    (q.items ++ [x]).rtake cap = q.makeRoom ++ [x] := by
  have room := q.bound
  have positive := NeZero.pos cap
  rw [rtake, makeRoom, length_append, length_singleton]
  split
  · rename_i full
    have one : q.items.length + 1 - cap = 1 := by omega
    rw [one, drop_append_of_le_length (by omega), drop_one]
  · have zero : q.items.length + 1 - cap = 0 := by omega
    rw [zero, drop_zero]

variable [DecidableEq α]

instance (q : Fifo α cap) (x : α) : Decidable (x ∈ q) := inferInstanceAs (Decidable (x ∈ q.items))

/-- Append an item that is not there yet. -/
def add [NeZero cap] (q : Fifo α cap) (x : α) : Fifo α cap :=
  if present : x ∈ q.items then q
  else
    { items := q.makeRoom ++ [x]
      nodup := by
        refine List.nodup_append.mpr
          ⟨q.nodup.sublist q.makeRoom_sublist, List.nodup_singleton x, ?_⟩
        intro y member z isNew same
        rw [List.mem_singleton] at isNew
        exact present (isNew ▸ same ▸ q.makeRoom_sublist.subset member)
      bound := by
        have := q.makeRoom_length
        simp only [List.length_append, List.length_singleton]
        omega }

variable [NeZero cap]

theorem add_of_mem {q : Fifo α cap} {x : α} (present : x ∈ q) : q.add x = q := dif_pos present

theorem add_items_of_notMem {q : Fifo α cap} {x : α} (absent : x ∉ q) :
    (q.add x).items = q.makeRoom ++ [x] := by
  rw [add, dif_neg (mem_iff.not.mp absent)]

/-- Nothing but the new item comes in. -/
theorem mem_of_mem_add {q : Fifo α cap} {x y : α} (member : y ∈ q.add x) : y ∈ q ∨ y = x := by
  by_cases present : x ∈ q
  · rw [add_of_mem present] at member
    exact .inl member
  · rw [mem_iff, add_items_of_notMem present, mem_append, mem_singleton] at member
    exact member.imp_left fun kept => q.makeRoom_sublist.subset kept

/-- Items added one after the other. -/
def addAll (q : Fifo α cap) (xs : List α) : Fifo α cap := xs.foldl add q

/-- The items that were not there when they were added. -/
def appended (q : Fifo α cap) : List α → List α
  | [] => []
  | x :: xs => if x ∈ q then appended q xs else x :: appended (q.add x) xs

@[simp] theorem addAll_nil : q.addAll [] = q := rfl

@[simp] theorem addAll_cons (x : α) (xs : List α) :
    q.addAll (x :: xs) = (q.add x).addAll xs := rfl

theorem mem_of_mem_addAll {q : Fifo α cap} {xs : List α} {y : α} (member : y ∈ q.addAll xs) :
    y ∈ q ∨ y ∈ xs := by
  induction xs generalizing q with
  | nil => exact .inl member
  | cons x xs ih =>
    rcases ih member with inAdd | inRest
    · rcases mem_of_mem_add inAdd with old | rfl
      · exact .inl old
      · exact .inr (by simp)
    · exact .inr (mem_cons_of_mem _ inRest)

theorem mem_of_mem_appended {q : Fifo α cap} {xs : List α} {y : α} (member : y ∈ q.appended xs) :
    y ∈ xs := by
  induction xs generalizing q with
  | nil => exact member
  | cons x xs ih =>
    rw [appended] at member
    split at member
    · exact mem_cons_of_mem _ (ih member)
    · rcases mem_cons.mp member with rfl | inRest
      · exact mem_cons_self
      · exact mem_cons_of_mem _ (ih inRest)

/-- The list is the end of the sequence of everything appended. -/
theorem addAll_items (xs : List α) :
    (q.addAll xs).items = (q.items ++ q.appended xs).rtake cap := by
  induction xs generalizing q with
  | nil =>
    have room := q.bound
    have zero : q.items.length - cap = 0 := by omega
    simp [appended, rtake, zero]
  | cons x xs ih =>
    rw [addAll_cons, ih]
    by_cases present : x ∈ q
    · simp [appended, present, add_of_mem present]
    · rw [appended, if_neg present, add_items_of_notMem present, ← rtake_append_singleton,
        rtake_rtake_append, append_assoc, singleton_append]

/-- Distinct new items are appended as they come while there is room. -/
theorem addAll_items_of_room {q : Fifo α cap} {xs : List α} (distinct : (q.items ++ xs).Nodup)
    (room : (q.items ++ xs).length ≤ cap) : (q.addAll xs).items = q.items ++ xs := by
  induction xs generalizing q with
  | nil => simp
  | cons x xs ih =>
    have absent : x ∉ q := by
      intro present
      rw [nodup_append] at distinct
      exact distinct.2.2 x present x mem_cons_self rfl
    have roomy : q.items.length ≠ cap := by
      simp only [length_append, length_cons] at room
      omega
    have added : (q.add x).items = q.items ++ [x] := by
      rw [add_items_of_notMem absent, makeRoom, if_neg roomy]
    have shift : q.items ++ x :: xs = (q.add x).items ++ xs := by simp [added]
    rw [shift] at distinct room
    rw [addAll_cons, ih distinct room, shift]

/-- A list is built again from its items. -/
theorem addAll_empty_items : (empty : Fifo α cap).addAll q.items = q := by
  have same : ((empty : Fifo α cap).addAll q.items).items = q.items := by
    simpa [empty] using addAll_items_of_room (q := empty) (by simpa [empty] using q.nodup)
      (by simpa [empty] using q.bound)
  cases q
  cases eq : (empty : Fifo α cap).addAll _
  simp_all

end Fifo
end QemuIos

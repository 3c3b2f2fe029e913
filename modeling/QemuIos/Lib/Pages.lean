import QemuIos.Lib.Mem

/-!
# Copying page by page

A run of addresses is copied to or from a buffer one page at a time: each page is looked up, and the
part of the run that lies in it is moved. The lookup may refuse a page and the move may fall short;
either ends the copy. What such a copy has touched lies in the pages that were found
(`Ran.runs`, `Ran.outside`), and one that runs to its end has moved every byte (`Ran.loaded`,
`Ran.stored`).
-/

namespace QemuIos.Pages
open Nat Function Mem List

/-- Memory, the buffer, and the runs of addresses touched so far. -/
structure View where
  mem : Mem
  buf : Mem
  runs : List (Nat × Nat)

/-- Bytes from place `done` of the buffer are stored to memory, or loaded from there; `pa` is where
address `p` lies in memory. -/
def View.move (v : View) (store : Bool) (p pa done n : Nat) : View :=
  if store then
    { v with mem := v.mem.blit pa n (v.buf.slice done), runs := v.runs ++ [(p, n)] }
  else
    { v with buf := v.buf.blit done n (v.mem.slice pa), runs := v.runs ++ [(p, n)] }

section

variable (size : Nat) (frame : Nat → Option Nat) (moved : Nat → Nat → Nat) (va len : Nat)
  (store : Bool)

/-- The part of the run from an offset on that lies in one page. -/
def piece (done : Nat) : Nat := min (len - done) (size - (va + done) % size)

/-- The copy from an offset on. `frame` is where a page lies, `moved` how much of a piece is moved;
the fuel is the number of bytes still to go, as each turn moves at least one. -/
def copy : Nat → Nat → View → Bool × View
  | 0, _, v => (true, v)
  | fuel + 1, done, v =>
    if done < len then
      match frame ((va + done) / size) with
      | none => (false, v)
      | some base =>
        let pa := base + (va + done) % size
        let n := piece size va len done
        if moved pa n < n then
          (false, v.move store (va + done) pa done (moved pa n))
        else
          copy fuel (done + n) (v.move store (va + done) pa done n)
    else
      (true, v)

/-- Where an address lies in memory. -/
def place (x : Nat) : Nat := (frame (x / size)).getD 0 + x % size

/-- Memory once the first `n` bytes of a buffer have been stored, in order, to a run of
addresses. -/
def storedBytes (buf : Mem) : Nat → Mem → Mem
  | 0, m => m
  | n + 1, m => Function.update (storedBytes buf n m) (place size frame (va + n)) (buf n)

/-- How a copy ends. -/
inductive Ran : Nat → View → Bool → View → Prop where
  | finished {done : Nat} {v : View} (all : len ≤ done) : Ran done v true v
  | refused {done : Nat} {v : View} (more : done < len)
      (absent : frame ((va + done) / size) = none) : Ran done v false v
  | short {done m base : Nat} {v : View} (more : done < len)
      (found : frame ((va + done) / size) = some base) (less : m < piece size va len done) :
      Ran done v false (v.move store (va + done) (base + (va + done) % size) done m)
  | turn {done base : Nat} {v v' : View} {ok : Bool} (more : done < len)
      (found : frame ((va + done) / size) = some base)
      (rest : Ran (done + piece size va len done)
        (v.move store (va + done) (base + (va + done) % size) done (piece size va len done)) ok
          v') :
      Ran done v ok v'

end

variable {size : Nat} {frame : Nat → Option Nat} {moved : Nat → Nat → Nat} {va len : Nat}
  {store : Bool} {v v' : View} {ok : Bool} {done : Nat}

theorem piece_pos (pos : 0 < size) (more : done < len) : 0 < piece size va len done := by
  have inside := mod_lt (va + done) pos
  unfold piece
  omega

theorem piece_le_rest : piece size va len done ≤ len - done := min_le_left ..

theorem piece_le_page : piece size va len done ≤ size - (va + done) % size := min_le_right ..

/-- With a turn for every byte the copy ends as one of these. -/
theorem ran_copy (pos : 0 < size) {fuel : Nat} (enough : len - done ≤ fuel) :
    Ran size frame va len store done v (copy size frame moved va len store fuel done v).1
      (copy size frame moved va len store fuel done v).2 := by
  induction fuel generalizing done v with
  | zero => exact .finished (by omega)
  | succ fuel ih =>
    unfold copy
    by_cases more : done < len
    · rw [if_pos more]
      cases found : frame ((va + done) / size) with
      | none => exact .refused more found
      | some base =>
        have moves : 0 < piece size va len done := piece_pos pos more
        dsimp only
        split
        · next less => exact .short more found less
        · exact .turn more found (ih (by omega))
    · rw [if_neg more]
      exact .finished (by omega)

/-! ## What a copy touches -/

@[simp] theorem move_runs (p pa done n : Nat) :
    (v.move store p pa done n).runs = v.runs ++ [(p, n)] := by
  unfold View.move
  split <;> rfl

@[simp] theorem move_load_mem (p pa done n : Nat) :
    (v.move false p pa done n).mem = v.mem := rfl

@[simp] theorem move_store_buf (p pa done n : Nat) :
    (v.move true p pa done n).buf = v.buf := rfl

/-- A run of addresses inside one page that was found, and inside the run to be copied. -/
structure Within (size : Nat) (frame : Nat → Option Nat) (va len : Nat) (run : Nat × Nat) :
    Prop where
  found : frame (run.1 / size) ≠ none
  page : run.1 % size + run.2 ≤ size
  low : va ≤ run.1
  high : run.1 + run.2 ≤ va + len

theorem within_piece {base n : Nat} (pos : 0 < size) (more : done < len)
    (found : frame ((va + done) / size) = some base) (small : n ≤ piece size va len done) :
    Within size frame va len (va + done, n) := by
  have rest : piece size va len done ≤ len - done := piece_le_rest
  have page : piece size va len done ≤ size - (va + done) % size := piece_le_page
  have inside := mod_lt (va + done) pos
  refine ⟨?_, ?_, le_add_right va done, ?_⟩
  · rw [found]
    exact Option.some_ne_none base
  · dsimp only
    omega
  · dsimp only
    omega

theorem Ran.runs (pos : 0 < size) (ran : Ran size frame va len store done v ok v') :
    ∀ run ∈ v'.runs, run ∈ v.runs ∨ Within size frame va len run := by
  induction ran with
  | finished all => exact fun run => .inl
  | refused more absent => exact fun run => .inl
  | short more found less =>
    intro run member
    rw [move_runs, mem_append, mem_singleton] at member
    rcases member with before | rfl
    · exact .inl before
    · exact .inr (within_piece pos more found (le_of_lt less))
  | turn more found rest ih =>
    intro run member
    rcases ih run member with before | within
    · rw [move_runs, mem_append, mem_singleton] at before
      rcases before with before | rfl
      · exact .inl before
      · exact .inr (within_piece pos more found (le_refl _))
    · exact .inr within

theorem Ran.load_mem (ran : Ran size frame va len false done v ok v') : v'.mem = v.mem := by
  induction ran with
  | finished all => rfl
  | refused more absent => rfl
  | short more found less => rfl
  | turn more found rest ih => rw [ih, move_load_mem]

theorem Ran.store_buf (ran : Ran size frame va len true done v ok v') : v'.buf = v.buf := by
  induction ran with
  | finished all => rfl
  | refused more absent => rfl
  | short more found less => rfl
  | turn more found rest ih => rw [ih, move_store_buf]

/-- An address of memory outside every page that is found. -/
def Outside (size : Nat) (frame : Nat → Option Nat) (k : Nat) : Prop :=
  ∀ page base, frame page = some base → k < base ∨ base + size ≤ k

theorem move_outside {k base n : Nat} (pos : 0 < size) (outside : Outside size frame k)
    (found : frame ((va + done) / size) = some base) (small : n ≤ piece size va len done) :
    (v.move store (va + done) (base + (va + done) % size) done n).mem k = v.mem k := by
  have page : piece size va len done ≤ size - (va + done) % size := piece_le_page
  have inside := mod_lt (va + done) pos
  have apart := outside _ base found
  unfold View.move
  split
  · exact blit_of_outside _ _ _ _ (by omega)
  · rfl

/-- Memory outside the pages that are found stays as it is. -/
theorem Ran.outside {k : Nat} (pos : 0 < size) (outside : Outside size frame k)
    (ran : Ran size frame va len store done v ok v') : v'.mem k = v.mem k := by
  induction ran with
  | finished all => rfl
  | refused more absent => rfl
  | short more found less => exact move_outside pos outside found (le_of_lt less)
  | turn more found rest ih => rw [ih, move_outside pos outside found (le_refl _)]

/-- A load leaves the buffer past the run as it is. -/
theorem Ran.load_rest {j : Nat} (past : len ≤ j) (ran : Ran size frame va len false done v ok v') :
    v'.buf j = v.buf j := by
  have small : ∀ done, piece size va len done ≤ len - done := fun _ => piece_le_rest
  induction ran with
  | finished all => rfl
  | refused more absent => rfl
  | @short done m base v more found less =>
    have fits := small done
    exact blit_of_outside _ _ _ _ (by omega)
  | @turn done base v v' ok more found rest ih =>
    have fits := small done
    rw [ih]
    exact blit_of_outside _ _ _ _ (by omega)

/-! ## A copy that runs to its end -/

theorem div_mod_piece {j : Nat} (pos : 0 < size) (inside : j < piece size va len done) :
    (va + (done + j)) / size = (va + done) / size ∧
      (va + (done + j)) % size = (va + done) % size + j := by
  have page : piece size va len done ≤ size - (va + done) % size := piece_le_page
  have parts := div_add_mod (va + done) size
  have offset := mod_lt (va + done) pos
  have same : va + (done + j) = size * ((va + done) / size) + ((va + done) % size + j) := by omega
  have zero : ((va + done) % size + j) / size = 0 := div_eq_of_lt (by omega)
  constructor
  · rw [same, mul_add_div pos, zero, add_zero]
  · rw [same, mul_add_mod, mod_eq_of_lt (by omega)]

theorem place_add {base j : Nat} (pos : 0 < size) (found : frame ((va + done) / size) = some base)
    (inside : j < piece size va len done) :
    place size frame (va + (done + j)) = base + (va + done) % size + j := by
  obtain ⟨quot, rem⟩ := div_mod_piece pos inside
  unfold place
  rw [quot, rem, found, Option.getD_some, add_assoc]

/-- A load that runs to its end leaves the rest of the buffer as it was. -/
theorem Ran.loaded (pos : 0 < size) (ran : Ran size frame va len false done v ok v')
    (yes : ok = true) (inside : done ≤ len) (j : Nat) :
    v'.buf j = if done ≤ j ∧ j < len then v.mem (place size frame (va + j)) else v.buf j := by
  induction ran with
  | finished all => rw [if_neg (by omega)]
  | refused more absent => cases yes
  | short more found less => cases yes
  | @turn done base v v' ok more found rest ih =>
    have small : piece size va len done ≤ len - done := piece_le_rest
    rw [ih yes (by omega)]
    have bytes : (v.move false (va + done) (base + (va + done) % size) done
        (piece size va len done)).buf j =
        if done ≤ j ∧ j < done + piece size va len done
        then v.mem (base + (va + done) % size + (j - done)) else v.buf j := rfl
    rw [bytes, move_load_mem]
    by_cases new : done + piece size va len done ≤ j ∧ j < len
    · rw [if_pos new, if_pos (by omega)]
    rw [if_neg new]
    by_cases here : done ≤ j ∧ j < done + piece size va len done
    · rw [if_pos here, if_pos (by omega)]
      obtain ⟨i, rfl⟩ := Nat.exists_eq_add_of_le here.1
      rw [place_add pos found (show i < piece size va len done by omega),
        Nat.add_sub_cancel_left]
    · rw [if_neg here, if_neg (by omega)]

theorem blit_succ (m : Mem) (a n : Nat) (src : Mem) :
    m.blit a (n + 1) src = update (m.blit a n src) (a + n) (src n) := by
  funext k
  by_cases last : k = a + n
  · subst last
    rw [update_self, blit_of_inside _ _ _ _ (by omega) (by omega),
      Nat.add_sub_cancel_left]
  rw [update_of_ne last]
  by_cases inside : a ≤ k ∧ k < a + n
  · rw [blit_of_inside _ _ _ _ inside.1 (by omega),
      blit_of_inside _ _ _ _ inside.1 inside.2]
  · rw [blit_of_outside _ _ _ _ (by omega), blit_of_outside _ _ _ _ (by omega)]

theorem blit_storedBytes {base n : Nat} {m buf : Mem} (pos : 0 < size)
    (found : frame ((va + done) / size) = some base) (inside : n ≤ piece size va len done) :
    (storedBytes size frame va buf done m).blit (base + (va + done) % size) n (buf.slice done) =
      storedBytes size frame va buf (done + n) m := by
  induction n with
  | zero => exact blit_zero ..
  | succ n ih =>
    rw [blit_succ, ih (by omega), ← add_assoc]
    conv_rhs => unfold storedBytes
    rw [place_add pos found inside]
    rfl

/-- A store that runs to its end has stored every byte, in order. -/
theorem Ran.stored {m : Mem} (pos : 0 < size) (ran : Ran size frame va len true done v ok v')
    (yes : ok = true) (inside : done ≤ len)
    (before : v.mem = storedBytes size frame va v.buf done m) :
    v'.mem = storedBytes size frame va v.buf len m := by
  induction ran with
  | @finished done v all =>
    have last : done = len := le_antisymm inside all
    rw [before, last]
  | refused more absent => cases yes
  | short more found less => cases yes
  | @turn done base v v' ok more found rest ih =>
    have small : piece size va len done ≤ len - done := piece_le_rest
    refine ih yes (by omega) ?_
    change v.mem.blit _ _ _ = _
    rw [before]
    exact blit_storedBytes pos found (le_refl _)

/-! ## What a copy depends on -/

/-- Whether a copy ends well does not depend on what it copies. -/
theorem copy_fst (fuel done : Nat) (v v' : View) :
    (copy size frame moved va len store fuel done v).1 =
      (copy size frame moved va len store fuel done v').1 := by
  induction fuel generalizing done v v' with
  | zero => rfl
  | succ fuel ih =>
    unfold copy
    by_cases more : done < len
    · rw [if_pos more, if_pos more]
      cases frame ((va + done) / size) with
      | none => rfl
      | some base =>
        dsimp only
        split
        · rfl
        · exact ih _ _ _
    · rw [if_neg more, if_neg more]

/-- Only the pages of the run are looked up. -/
theorem copy_congr {frame' : Nat → Option Nat} (fuel : Nat)
    (same : ∀ j < len, frame ((va + j) / size) = frame' ((va + j) / size)) (done : Nat) (v : View) :
    copy size frame moved va len store fuel done v =
      copy size frame' moved va len store fuel done v := by
  induction fuel generalizing done v with
  | zero => rfl
  | succ fuel ih =>
    unfold copy
    by_cases more : done < len
    · rw [if_pos more, if_pos more, same done more]
      cases frame' ((va + done) / size) with
      | none => rfl
      | some base =>
        dsimp only
        split
        · rfl
        · exact ih _ _
    · rw [if_neg more, if_neg more]

/-- A copy that runs to its end has found every page of the run. -/
theorem Ran.found (pos : 0 < size) (ran : Ran size frame va len store done v ok v')
    (yes : ok = true) {j : Nat} (low : done ≤ j) (high : j < len) :
    frame ((va + j) / size) ≠ none := by
  induction ran with
  | finished all => omega
  | refused more absent => cases yes
  | short more found less => cases yes
  | @turn done base v v' ok more found rest ih =>
    by_cases here : j < done + piece size va len done
    · obtain ⟨i, rfl⟩ := Nat.exists_eq_add_of_le low
      rw [(div_mod_piece pos (show i < piece size va len done by omega)).1, found]
      exact Option.some_ne_none base
    · exact ih yes (by omega)

/-- Two memories that agree on every page that is found. -/
def Agree (size : Nat) (frame : Nat → Option Nat) (m m' : Mem) : Prop :=
  ∀ page base, frame page = some base → ∀ k < size, m (base + k) = m' (base + k)

/-- A load gives the buffer nothing but what lies in the pages that are found. -/
theorem copy_buf (pos : 0 < size) (fuel done : Nat) {v v' : View}
    (agree : Agree size frame v.mem v'.mem) (same : v.buf = v'.buf) :
    (copy size frame moved va len false fuel done v).2.buf =
      (copy size frame moved va len false fuel done v').2.buf := by
  induction fuel generalizing done v v' with
  | zero => exact same
  | succ fuel ih =>
    unfold copy
    by_cases more : done < len
    · rw [if_pos more, if_pos more]
      cases found : frame ((va + done) / size) with
      | none => exact same
      | some base =>
        have moves : ∀ n ≤ piece size va len done,
            (v.move false (va + done) (base + (va + done) % size) done n).buf =
              (v'.move false (va + done) (base + (va + done) % size) done n).buf := by
          intro n small
          funext j
          have page : piece size va len done ≤ size - (va + done) % size := piece_le_page
          have offset := mod_lt (va + done) pos
          change v.buf.blit _ _ _ j = v'.buf.blit _ _ _ j
          unfold blit slice
          rw [same]
          split
          · rw [add_assoc]
            exact agree _ base found _ (by omega)
          · rfl
        dsimp only
        split
        · next less => exact moves _ (le_of_lt less)
        · exact ih _ agree (moves _ (le_refl _))
    · rw [if_neg more, if_neg more]
      exact same

end QemuIos.Pages

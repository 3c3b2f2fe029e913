import QemuIos.Fmss.Pages

/-!
# Where the pages of a read go

A read takes the addresses for the halves of its pages from a list one after the other, and the
place of a spare from the number of the entry. An entry with a bad chip select takes no address, so
that the pages behind it go where the entries before them should.
-/

namespace QemuIos.Fmss

open List Bool

/-- The lists of a read whose DMA accesses all succeed. -/
structure ReadList where
  page : Nat → Nat
  cs : Nat → Nat
  out : Nat → Nat

namespace ReadList

variable (mode : Mode) (s : Store) (l : ReadList) (spareOut : Nat)

def dma : ReadDma := ⟨fun i => some (l.page i), fun i => some (l.cs i), fun j => some (l.out j),
  fun _ => true⟩

/-- An entry with a bad chip select. -/
def skips (i : Nat) : Bool := 3 < findBitIndex (l.cs i)

/-- The entries before `i` that are read. -/
def before (i : Nat) : Nat := (List.range i).countP fun j => !l.skips j

/-- The store when entry `i` is read. -/
def storeAt : Nat → Store
  | 0 => s
  | i + 1 =>
    if l.skips i then storeAt i
    else ((storeAt i).loadPage mode (findBitIndex (l.cs i)) (l.page i)).2

/-- The page that entry `i` reads. -/
def record (i : Nat) : Record :=
  ((l.storeAt mode s i).loadPage mode (findBitIndex (l.cs i)) (l.page i)).1

/-- An entry's page in two halves to the addresses from place `j` of the list on, and its spare. -/
def transfersAt (j addr i : Nat) : List Transfer :=
  if l.skips i then []
  else
    [⟨l.out j, 2048, (l.record mode s i).data⟩,
      ⟨l.out (j + 1), 2048, (l.record mode s i).data.slice 2048⟩,
      ⟨addr, 12, (l.record mode s i).spare⟩]

/-- The transfers as the list means them: entry `i` has the addresses at `2 i` and `2 i + 1`, and
the spare goes to `spareOut + 12 i`. -/
def delivered (n : Nat) : List Transfer :=
  (List.range n).flatMap fun i => l.transfersAt mode s (2 * i) (spareOut + 12 * i) i

variable {mode s l spareOut}

theorem before_succ (i : Nat) : l.before (i + 1) = l.before i + if l.skips i then 0 else 1 := by
  unfold before
  rw [range_succ, countP_append, countP_singleton]
  cases l.skips i <;> rfl

theorem entry_eq {i : Nat} (clean : Bool) (transfers : List Transfer) :
    Reading.entry mode l.dma spareOut ⟨l.storeAt mode s i, clean, 2 * l.before i, transfers⟩ i =
      .ok ⟨l.storeAt mode s (i + 1), clean && (l.skips i || (l.record mode s i).erased),
        2 * l.before (i + 1),
        transfers ++ l.transfersAt mode s (2 * l.before i) ((spareOut + 12 * i) % 2 ^ 32) i⟩ := by
  rw [before_succ]
  cases skip : l.skips i with
  | true =>
    have bad : 3 < findBitIndex (l.cs i) := of_decide_eq_true skip
    simp only [Reading.entry, dma, if_pos bad, storeAt, transfersAt, skip, if_true, Bool.true_or,
      Bool.and_true, Nat.add_zero, append_nil]
  | false =>
    have good : ¬ 3 < findBitIndex (l.cs i) := of_decide_eq_false skip
    simp only [Reading.entry, dma, if_neg good, Reading.writeHalf, Reading.write, if_true, storeAt,
      transfersAt, skip, Bool.false_eq_true, if_false, Bool.false_or, bytesPerPage,
      append_assoc, cons_append, nil_append, record]
    rfl

theorem entries_eq (n : Nat) (clean : Bool) :
    (range n).foldlM (Reading.entry mode l.dma spareOut) ⟨s, clean, 0, []⟩ =
      .ok ⟨l.storeAt mode s n, clean && (range n).all fun i =>
        l.skips i || (l.record mode s i).erased, 2 * l.before n,
        (range n).flatMap fun i =>
          l.transfersAt mode s (2 * l.before i) ((spareOut + 12 * i) % 2 ^ 32) i⟩ := by
  induction n with
  | zero =>
    simp [storeAt, before]
    rfl
  | succ n ih =>
    rw [range_succ, foldlM_append, ih]
    simp only [foldlM_cons, foldlM_nil, all_append, flatMap_append,
      all_cons, all_nil, Bool.and_true, flatMap_cons, flatMap_nil, append_nil]
    change (Reading.entry mode l.dma spareOut _ n >>= fun r => .ok r) = _
    rw [entry_eq]
    change Except.ok _ = _
    rw [Bool.and_assoc]

theorem readNandPages_eq (n : Nat) :
    readNandPages mode s n l.dma spareOut =
      (l.storeAt mode s n,
        (range n).flatMap fun i =>
          l.transfersAt mode s (2 * l.before i) ((spareOut + 12 * i) % 2 ^ 32) i,
        (mode.physical && 0 < n) && (range n).all fun i =>
          l.skips i || (l.record mode s i).erased) := by
  unfold readNandPages
  dsimp only
  rw [entries_eq]

theorem flatMap_eq_iff {f g : Nat → List Transfer} (same : ∀ i, (f i).length = (g i).length)
    (n : Nat) : (range n).flatMap f = (range n).flatMap g ↔ ∀ i < n, f i = g i := by
  induction n with
  | zero => simp
  | succ n ih =>
    have lengths : ((range n).flatMap f).length = ((range n).flatMap g).length := by
      rw [length_flatMap, length_flatMap]
      congr 1
      exact map_congr_left fun i _ => same i
    rw [range_succ, flatMap_append, flatMap_append, flatMap_singleton,
      flatMap_singleton]
    constructor
    · intro whole i inside
      obtain ⟨first, last⟩ := append_inj whole lengths
      rcases Nat.lt_succ_iff_lt_or_eq.mp inside with earlier | rfl
      · exact ih.mp first i earlier
      · exact last
    · intro each
      rw [ih.mpr fun i inside => each i (by omega), each n (by omega)]

/-- An entry's transfers are what the list means if its addresses are. -/
theorem transfersAt_eq_iff (i : Nat) :
    l.transfersAt mode s (2 * l.before i) ((spareOut + 12 * i) % 2 ^ 32) i =
        l.transfersAt mode s (2 * i) (spareOut + 12 * i) i ↔
      (l.skips i = false → l.out (2 * l.before i) = l.out (2 * i) ∧
        l.out (2 * l.before i + 1) = l.out (2 * i + 1) ∧ spareOut + 12 * i < 2 ^ 32) := by
  unfold transfersAt
  cases l.skips i with
  | true => simp
  | false => simp

theorem length_transfersAt (j addr i : Nat) :
    (l.transfersAt mode s j addr i).length = if l.skips i then 0 else 3 := by
  unfold transfersAt
  split <;> rfl

end ReadList

/-- For every list of a read whose DMA accesses succeed: entry `i` goes to the addresses at `2 i`
and `2 i + 1` of the list and its spare to `spareOut + 12 i`, for all entries that are read, and a
read that is reported clean has read at least one page and only erased ones, exactly if

* the addresses at twice the number of entries read before `i` are those at `2 i` and `2 i + 1`, and
  the place of the spare is below 2 ^ 32, for all entries that are read, and
* the image is not physical, or the list is empty, or some entry is read. -/
theorem read_delivers_iff (mode : Mode) (s : Store) (l : ReadList) (n spareOut : Nat) :
    let result := readNandPages mode s n l.dma spareOut
    (result.2.1 = l.delivered mode s spareOut n ∧
      (result.2.2 = true → (∃ i < n, l.skips i = false) ∧
        ∀ i < n, l.skips i = false → (l.record mode s i).erased = true)) ↔
    ((∀ i < n, l.skips i = false → l.out (2 * l.before i) = l.out (2 * i) ∧
        l.out (2 * l.before i + 1) = l.out (2 * i + 1) ∧ spareOut + 12 * i < 2 ^ 32) ∧
      (mode.physical = false ∨ n = 0 ∨ ∃ i < n, l.skips i = false)) := by
  dsimp only
  rw [ReadList.readNandPages_eq]
  refine and_congr ?_ ?_
  · unfold ReadList.delivered
    rw [ReadList.flatMap_eq_iff]
    · exact forall₂_congr fun i _ => ReadList.transfersAt_eq_iff i
    · intro i
      rw [ReadList.length_transfersAt, ReadList.length_transfersAt]
  · dsimp only
    simp only [and_eq_true, decide_eq_true_eq, all_eq_true, mem_range, or_eq_true]
    constructor
    · intro clean
      by_cases physical : mode.physical = true
      · rcases Nat.eq_zero_or_pos n with zero | pos
        · exact .inr (.inl zero)
        refine .inr (.inr ?_)
        refine Decidable.byContradiction fun unread => ?_
        have all : ∀ i < n, l.skips i = true := fun i inside =>
          eq_true_of_not_eq_false fun read => unread ⟨i, inside, read⟩
        exact unread (clean ⟨⟨physical, pos⟩, fun i inside => .inl (all i inside)⟩).1
      · exact .inl (eq_false_of_not_eq_true physical)
    · rintro cases' ⟨⟨physical, pos⟩, all⟩
      refine ⟨?_, fun i inside read => ?_⟩
      · rcases cases' with generated | zero | found
        · rw [physical] at generated
          cases generated
        · omega
        · exact found
      · rcases all i inside with skip | erased
        · rw [read] at skip
          cases skip
        · exact erased

/-- Of two entries the first has a bad chip select: the page of the second goes to the first two
addresses. -/
theorem skipped_entry_shifts_pages :
    let l : ReadList := ⟨fun _ => 0, fun i => if i = 0 then 0x10 else 1, fun j => 0x1000 * (j + 1)⟩
    let s : Store := ⟨none, none, .dir fun _ => .absent, fun _ => none, fun _ => false, 0,
      Nat.zero_le _, false, false⟩
    ((readNandPages ⟨true, false, false, false, false⟩ s 2 l.dma 0x8000).2.1.map Transfer.addr) =
        [0x1000, 0x2000, 0x800c] ∧
      ((l.delivered ⟨true, false, false, false, false⟩ s 0x8000 2).map Transfer.addr) =
        [0x3000, 0x4000, 0x800c] := by
  decide +kernel

end QemuIos.Fmss

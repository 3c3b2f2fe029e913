import QemuIos.Vic.Pl192

/-!
# What the priority sorter finds

A controller's sources and its daisy input each ask at a priority level. The sorter picks the most
urgent level that the software mask lets through, so the interrupt it finds is above the one in
service exactly if some request that is let through is (`wanted_iff`).
-/

namespace QemuIos.Vic

open List Nat

/-- The first level with a property, as a loop from level 0 up finds it. -/
theorem find_finRange {n : Nat} {p : Fin n → Bool} {i : Fin n}
    (found : (finRange n).find? p = some i) : p i = true ∧ ∀ j < i, p j = false := by
  obtain ⟨holds, before, after, parts, fails⟩ := find?_eq_some_iff_append.mp found
  refine ⟨holds, fun j below => ?_⟩
  have member : j ∈ before ++ i :: after := parts ▸ mem_finRange j
  have sorted : (before ++ i :: after).Pairwise (· < ·) := parts ▸ pairwise_lt_finRange n
  rcases mem_append.mp member with early | late
  · simpa using fails j early
  rcases mem_cons.mp late with rfl | later
  · exact absurd below (lt_irrefl _)
  · have above : i < j := (pairwise_cons.mp (pairwise_append.mp sorted).2.1).1 j later
    exact absurd (below.trans above) (lt_irrefl _)

namespace Pl192

variable {s : Pl192}

/-- The enabled sources that are pending, by hardware or software, and selected for the IRQ. -/
def requested (s : Pl192) : UInt32 := (s.rawintr ||| s.softint) &&& s.intenable &&& ~~~s.intselect

/-- A source or the daisy input asks for the IRQ at a priority. -/
def Requests (s : Pl192) (p : Fin 16) : Prop :=
  (∃ i : Fin 32, bit s.requested i = true ∧ s.vectPriority i = p) ∨
    (s.daisyInput = true ∧ s.daisyPriority = p)

instance (s : Pl192) (p : Fin 16) : Decidable (s.Requests p) :=
  inferInstanceAs (Decidable ((∃ _, _) ∨ _))

/-- A priority that SWPRIORITYMASK lets through. -/
def Allowed (s : Pl192) (p : Fin 16) : Prop := bit s.swPriorityMask p = true

instance (s : Pl192) (p : Fin 16) : Decidable (s.Allowed p) :=
  inferInstanceAs (Decidable (_ = _))

/-- The IRQ as the registers define it: some request that the mask lets through is more urgent than
the interrupt in service, or none is in service. -/
def Wanted (s : Pl192) : Prop :=
  ∃ p, s.Requests p ∧ s.Allowed p ∧ (s.stackI = 0 ∨ (p : Nat) < s.priority)

instance (s : Pl192) : Decidable s.Wanted := inferInstanceAs (Decidable (∃ _, _))

/-- What the acknowledges and the ends of service keep: with nothing in service the priority is
below every level. -/
structure Ranked (s : Pl192) : Prop where
  depth : 0 ≤ s.stackI
  idle : s.stackI = 0 → s.priority = 16
  bottom : s.priorityStack 0 = 16

theorem Ranked.wanted (ranked : s.Ranked) :
    s.Wanted ↔ ∃ p, s.Requests p ∧ s.Allowed p ∧ (p : Nat) < s.priority := by
  constructor
  · rintro ⟨p, requests, allowed, idle | above⟩
    · have small := p.isLt
      have unranked := ranked.idle idle
      exact ⟨p, requests, allowed, by omega⟩
    · exact ⟨p, requests, allowed, above⟩
  · rintro ⟨p, requests, allowed, above⟩
    exact ⟨p, requests, allowed, .inr above⟩

/-! ## The slots -/

/-- The loop over the sources from the last to the first: a slot ends with the lowest source of its
level, and one that no source has stays as it was. -/
theorem slots (status : UInt32) (level : Fin 32 → Fin 16) (first : Fin 16 → Nat) (p : Fin 16)
    (sources : List (Fin 32)) :
    let slot := sources.foldr
      (fun (i : Fin 32) slots => if bit status i then setAt slots (level i) (i : Nat) else slots)
      first p
    (∃ i : Fin 32, bit status i = true ∧ level i = p ∧ slot = i) ∨
      (slot = first p ∧ ∀ i ∈ sources, bit status i = true → level i ≠ p) := by
  induction sources with
  | nil => exact .inr ⟨rfl, fun i member => absurd member not_mem_nil⟩
  | cons i sources ih =>
    simp only [foldr_cons]
    by_cases asks : bit status i = true
    · by_cases same : level i = p
      · exact .inl ⟨i, asks, same, by simp [asks, setAt, same]⟩
      · rcases ih with ⟨j, asks', level', slot⟩ | ⟨slot, others⟩
        · exact .inl ⟨j, asks', level', by simp [asks, setAt, Ne.symm same, slot]⟩
        · refine .inr ⟨by simp [asks, setAt, Ne.symm same, slot], ?_⟩
          intro j member
          rcases mem_cons.mp member with rfl | member
          · exact fun _ => same
          · exact others j member
    · rcases ih with ⟨j, asks', level', slot⟩ | ⟨slot, others⟩
      · exact .inl ⟨j, asks', level', by simp [asks, slot]⟩
      · refine .inr ⟨by simp [asks, slot], ?_⟩
        intro j member
        rcases mem_cons.mp member with rfl | member
        · exact fun yes => absurd yes asks
        · exact others j member

/-- What stands in the slot of a level. -/
inductive Slot (s : Pl192) (p : Fin 16) : Nat → Prop where
  | source (i : Fin 32) (asks : bit s.irqStatus i = true) (level : s.vectPriority i = p) :
      Slot s p i
  | daisy (asks : s.daisyInput = true) (level : s.daisyPriority = p) : Slot s p daisyIrq
  | free (sources : ∀ i : Fin 32, bit s.irqStatus i = true → s.vectPriority i ≠ p)
      (daisy : s.daisyInput = true → s.daisyPriority ≠ p) : Slot s p noIrq

theorem slot (s : Pl192) (p : Fin 16) : s.Slot p (s.prioIrq p) := by
  have found := slots s.irqStatus s.vectPriority
    (if s.daisyInput then setAt (fun _ => noIrq) s.daisyPriority daisyIrq else fun _ => noIrq) p
    (finRange 32)
  unfold prioIrq
  simp only [foldl_reverse]
  rcases found with ⟨i, asks, level, slot⟩ | ⟨slot, others⟩
  · rw [slot]
    exact .source i asks level
  · rw [slot]
    by_cases asks : s.daisyInput = true ∧ s.daisyPriority = p
    · obtain ⟨asks, level⟩ := asks
      simp only [asks, if_true, setAt, level]
      exact .daisy asks level
    · have slot' : (if s.daisyInput then setAt (fun _ => noIrq) s.daisyPriority daisyIrq
          else fun _ => noIrq) p = noIrq := by
        by_cases input : s.daisyInput = true
        · have other : p ≠ s.daisyPriority := fun same => asks ⟨input, same.symm⟩
          simp [input, setAt, other]
        · simp [input]
      rw [slot']
      exact .free (fun i => others i (mem_finRange i)) fun input level => asks ⟨input, level⟩

/-- Either nothing that asks is let through, or the sorter returns what stands in the slot of the
most urgent level that asks and is let through. -/
theorem sorter_cases (s : Pl192) :
    (s.prioritySorter = noIrq ∧ ∀ q, s.Allowed q → s.Slot q noIrq) ∨
      ∃ p, s.Slot p s.prioritySorter ∧ s.prioritySorter ≤ daisyIrq ∧ s.Allowed p ∧
        ∀ q < p, s.Allowed q → s.Slot q noIrq := by
  have taken : ∀ q, s.prioIrq q ≤ daisyIrq ∨ s.Slot q noIrq := by
    intro q
    have here := slot s q
    generalize s.prioIrq q = k at here
    cases here with
    | source i asks level => exact .inl (le_of_lt i.isLt)
    | daisy asks level => exact .inl (le_refl _)
    | free sources daisy => exact .inr (.free sources daisy)
  unfold prioritySorter
  cases found : (finRange 16).find?
      fun (i : Fin 16) => bit s.swPriorityMask i && s.prioIrq i ≤ daisyIrq with
  | none =>
    refine .inl ⟨rfl, fun q allowed => (taken q).resolve_left ?_⟩
    have fails := find?_eq_none.mp found q (mem_finRange q)
    unfold Allowed at allowed
    simpa [allowed] using fails
  | some p =>
    obtain ⟨holds, before⟩ := find_finRange found
    simp only [Bool.and_eq_true, decide_eq_true_eq] at holds
    refine .inr ⟨p, slot s p, holds.2, holds.1, fun q below allowed => ?_⟩
    refine (taken q).resolve_left ?_
    have fails := before q below
    unfold Allowed at allowed
    simpa [allowed] using fails

/-! ## The registers an update computes -/

/-- The interrupt an update selects. -/
def highest (s : Pl192) : Nat :=
  if s.requested != 0 || s.daisyInput then { s with irqStatus := s.requested }.prioritySorter
  else noIrq

/-- The vector of that interrupt; with nothing pending the last one stays. -/
def vector (s : Pl192) : UInt32 :=
  if s.requested != 0 || s.daisyInput then
    if h : s.highest < 32 then s.vectAddr ⟨s.highest, h⟩ else s.daisyVectaddr
  else s.address

section

variable (s : Pl192)

/-- An update computes the statuses, the selected interrupt and its vector, and nothing else. -/
theorem sense_eq :
    s.sense = { s with
      irqStatus := s.requested
      fiqStatus := (s.rawintr ||| s.softint) &&& s.intenable &&& s.intselect
      currentHighest := s.highest
      address := s.vector } := by
  by_cases pending : (s.requested != 0 || s.daisyInput) = true
  · have high : s.highest = { s with irqStatus := s.requested }.prioritySorter := if_pos pending
    have vect : s.vector = if h : s.highest < 32 then s.vectAddr ⟨s.highest, h⟩
        else s.daisyVectaddr := if_pos pending
    rw [vect, high]
    exact if_pos pending
  · have high : s.highest = noIrq := if_neg pending
    have vect : s.vector = s.address := if_neg pending
    rw [vect, high]
    exact if_neg pending

@[simp] theorem sense_rawintr : s.sense.rawintr = s.rawintr := by rw [sense_eq]
@[simp] theorem sense_softint : s.sense.softint = s.softint := by rw [sense_eq]
@[simp] theorem sense_intenable : s.sense.intenable = s.intenable := by rw [sense_eq]
@[simp] theorem sense_intselect : s.sense.intselect = s.intselect := by rw [sense_eq]
@[simp] theorem sense_irqStatus : s.sense.irqStatus = s.requested := by rw [sense_eq]
@[simp] theorem sense_currentHighest : s.sense.currentHighest = s.highest := by
  rw [sense_eq]
@[simp] theorem sense_current : s.sense.current = s.current := by rw [sense_eq]
@[simp] theorem sense_priority : s.sense.priority = s.priority := by rw [sense_eq]
@[simp] theorem sense_stackI : s.sense.stackI = s.stackI := by rw [sense_eq]
@[simp] theorem sense_daisyInput : s.sense.daisyInput = s.daisyInput := by rw [sense_eq]
@[simp] theorem sense_vectPriority : s.sense.vectPriority = s.vectPriority := by
  rw [sense_eq]
@[simp] theorem sense_vectAddr : s.sense.vectAddr = s.vectAddr := by rw [sense_eq]
@[simp] theorem sense_daisyVectaddr : s.sense.daisyVectaddr = s.daisyVectaddr := by
  rw [sense_eq]
@[simp] theorem sense_swPriorityMask : s.sense.swPriorityMask = s.swPriorityMask := by
  rw [sense_eq]
@[simp] theorem sense_daisyPriority : s.sense.daisyPriority = s.daisyPriority := by
  rw [sense_eq]
@[simp] theorem sense_priorityStack : s.sense.priorityStack = s.priorityStack := by
  rw [sense_eq]
@[simp] theorem sense_irqStack : s.sense.irqStack = s.irqStack := by rw [sense_eq]
@[simp] theorem sense_daisyCallback : s.sense.daisyCallback = s.daisyCallback := by
  rw [sense_eq]
@[simp] theorem sense_requested : s.sense.requested = s.requested := by
  simp [requested]

@[simp] theorem sense_highest : s.sense.highest = s.highest := by
  unfold highest prioritySorter prioIrq
  simp

@[simp] theorem sense_vector : s.sense.vector = s.vector := by
  unfold vector
  simp only [sense_requested, sense_daisyInput, sense_vectAddr, sense_daisyVectaddr, sense_highest]
  split
  · rfl
  · next idle =>
    rw [sense_eq]
    exact if_neg idle

/-- A second update finds what the first has computed. -/
@[simp] theorem sense_sense : s.sense.sense = s.sense := by
  rw [sense_eq s.sense, sense_highest, sense_vector, sense_requested]
  simp only [sense_eq s]

@[simp] theorem sense_requests (p : Fin 16) : s.sense.Requests p ↔ s.Requests p := by
  simp [Requests]

@[simp] theorem sense_wanted : s.sense.Wanted ↔ s.Wanted := by
  simp [Wanted, Allowed]
end

/-- What an update selects: nothing, as no request is let through, or the occupant of the most
urgent level that is. -/
inductive Selects (s : Pl192) : Nat → Prop where
  | nothing (masked : ∀ q, s.Requests q → ¬ s.Allowed q) : Selects s noIrq
  | source (i : Fin 32) (asks : bit s.requested i = true) (allowed : s.Allowed (s.vectPriority i))
      (first : ∀ q, s.Requests q → s.Allowed q → s.vectPriority i ≤ q) : Selects s i
  | daisy (asks : s.daisyInput = true) (allowed : s.Allowed s.daisyPriority)
      (first : ∀ q, s.Requests q → s.Allowed q → s.daisyPriority ≤ q) : Selects s daisyIrq

theorem bit_zero (i : Nat) : bit 0 i = false := by simp [bit]

theorem selects (s : Pl192) : s.Selects s.highest := by
  unfold highest
  by_cases pending : (s.requested != 0 || s.daisyInput) = true
  · rw [if_pos pending]
    -- the slots are those of the status the update has just stored
    have free : ∀ q, Slot { s with irqStatus := s.requested } q noIrq → ¬ s.Requests q := by
      intro q slot requests
      generalize same : noIrq = k at slot
      cases slot with
      | source i asks level => exact absurd same (ne_of_gt (i.isLt.trans (by decide)))
      | daisy asks level => exact absurd same (by decide)
      | free sources daisy =>
        rcases requests with ⟨i, asks, level⟩ | ⟨asks, level⟩
        · exact sources i asks level
        · exact daisy asks level
    rcases sorter_cases { s with irqStatus := s.requested } with ⟨found, masked⟩ | found
    · rw [found]
      exact .nothing fun q requests allowed => free q (masked q allowed) requests
    obtain ⟨p, slot, small, allowed, before⟩ := found
    have first : ∀ q, s.Requests q → s.Allowed q → p ≤ q := fun q requests allowed =>
      not_lt.mp fun below => free q (before q below allowed) requests
    generalize ({ s with irqStatus := s.requested } : Pl192).prioritySorter = k at slot small
    cases slot with
    | source i asks level =>
      subst level
      exact .source i asks allowed first
    | daisy asks level =>
      subst level
      exact .daisy asks allowed first
    | free sources daisy => exact absurd small (by decide)
  · rw [if_neg pending]
    simp only [Bool.or_eq_true, bne_iff_ne, ne_eq, not_or, not_not, Bool.not_eq_true] at pending
    refine .nothing fun q requests => ?_
    rcases requests with ⟨i, asks, -⟩ | ⟨asks, -⟩
    · rw [pending.1, bit_zero] at asks
      exact Bool.noConfusion asks
    · rw [pending.2] at asks
      exact Bool.noConfusion asks

theorem outranked_source {i : Fin 32} (selected : s.highest = i) :
    s.sense.outranked = decide (s.priority ≤ (s.vectPriority i : Nat)) := by
  unfold outranked
  simp [selected]

theorem outranked_daisy (selected : s.highest = daisyIrq) :
    s.sense.outranked = decide (s.priority ≤ (s.daisyPriority : Nat)) := by
  unfold outranked
  simp [selected, daisyIrq]

/-- The selected interrupt is there and above the one in service exactly if one is wanted. -/
theorem wanted_iff (ranked : s.Ranked) :
    s.Wanted ↔ s.highest ≤ daisyIrq ∧ s.sense.outranked = false := by
  rw [ranked.wanted]
  have selected := s.selects
  generalize same : s.highest = k at selected
  cases selected with
  | nothing masked =>
    refine iff_of_false ?_ fun both => absurd both.1 (by decide)
    rintro ⟨p, requests, allowed, -⟩
    exact masked p requests allowed
  | source i asks allowed first =>
    have small : (i : Nat) ≤ daisyIrq := le_of_lt i.isLt
    simp only [outranked_source same, decide_eq_false_iff_not, not_le, small, true_and]
    constructor
    · rintro ⟨p, requests, allowed', above⟩
      exact lt_of_le_of_lt (first p requests allowed') above
    · exact fun above => ⟨_, .inl ⟨i, asks, rfl⟩, allowed, above⟩
  | daisy asks allowed first =>
    simp only [outranked_daisy same, decide_eq_false_iff_not, not_le, le_refl, true_and]
    constructor
    · rintro ⟨p, requests, allowed', above⟩
      exact lt_of_le_of_lt (first p requests allowed') above
    · exact fun above => ⟨_, .inr ⟨asks, rfl⟩, allowed, above⟩

end Pl192

end QemuIos.Vic

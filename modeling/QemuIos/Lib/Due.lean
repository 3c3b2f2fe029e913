import Mathlib.Order.Basic
import Mathlib.Algebra.Order.Ring.Int

/-!
# The next due time

The earliest of some timers, kept in one number where zero means that none runs.
-/

namespace QemuIos
open List

/-- A timer: whether it runs, and when it is due. -/
abbrev Timer := Bool × Int

/-- The earlier of a due time and a timer. -/
def sooner (due : Int) (timer : Timer) : Int :=
  if timer.1 && (due = 0 || timer.2 < due) then timer.2 else due

/-- No timer runs, or all that run are due from here on. -/
def Earliest (now due : Int) (timers : List Timer) : Prop :=
  (due = 0 ∧ ∀ timer ∈ timers, timer.1 = false) ∨
    (now < due ∧ ∀ timer ∈ timers, timer.1 = true → due ≤ timer.2)

variable {now due : Int} {timer : Timer} {before timers : List Timer}

theorem earliest_sooner (nonneg : 0 ≤ now) (earliest : Earliest now due before)
    (ahead : timer.1 = true → now < timer.2) :
    Earliest now (sooner due timer) (before ++ [timer]) := by
  unfold sooner
  cases runs : timer.1 with
  | false =>
    rcases earliest with ⟨unset, all⟩ | ⟨later, all⟩
    · refine .inl ⟨by simpa using unset, fun other inside => ?_⟩
      rcases mem_append.mp inside with old | new
      · exact all other old
      · rw [mem_singleton.mp new, runs]
    · refine .inr ⟨by simpa using later, fun other inside live => ?_⟩
      rcases mem_append.mp inside with old | new
      · simpa using all other old live
      · rw [mem_singleton.mp new, runs] at live
        cases live
  | true =>
    have due' := ahead runs
    rcases earliest with ⟨unset, all⟩ | ⟨later, all⟩
    · refine .inr ⟨by simpa [unset] using due', fun other inside live => ?_⟩
      rcases mem_append.mp inside with old | new
      · rw [all other old] at live
        cases live
      · rw [mem_singleton.mp new]
        simp [unset]
    · have nonzero : due ≠ 0 := by omega
      refine .inr ⟨?_, fun other inside live => ?_⟩
      · split
        · exact due'
        · exact later
      · rcases mem_append.mp inside with old | new
        · have bound := all other old live
          split
          · next sooner' =>
            simp only [nonzero, decide_false, Bool.false_or, Bool.true_and,
              decide_eq_true_eq] at sooner'
            omega
          · exact bound
        · rw [mem_singleton.mp new]
          split
          · exact le_refl _
          · next notSooner =>
            simp only [nonzero, decide_false, Bool.false_or, Bool.true_and,
              decide_eq_true_eq, not_lt] at notSooner
            exact notSooner

/-- Timers that are all ahead of now have their earliest as the due time. -/
theorem earliest_foldl (nonneg : 0 ≤ now)
    (ahead : ∀ timer ∈ timers, timer.1 = true → now < timer.2) :
    Earliest now (timers.foldl sooner 0) timers := by
  have loop : ∀ (before : List Timer) (due : Int), Earliest now due before →
      Earliest now (timers.foldl sooner due) (before ++ timers) := by
    induction timers with
    | nil =>
      intro before due earliest
      rwa [append_nil]
    | cons timer timers ih =>
      intro before due earliest
      obtain ⟨first, rest⟩ := forall_mem_cons.mp ahead
      have next := ih rest (before ++ [timer]) (sooner due timer)
        (earliest_sooner nonneg earliest first)
      simpa using next
  simpa using loop [] 0 (.inl ⟨rfl, by simp⟩)

theorem Earliest.not_due (earliest : Earliest now due timers) {t : Int}
    (window : due = 0 ∨ t < due) (inside : timer ∈ timers) (runs : timer.1 = true)
    (nonneg : 0 ≤ now) : t < timer.2 := by
  rcases earliest with ⟨-, stopped⟩ | ⟨later, all⟩
  · rw [stopped timer inside] at runs
    cases runs
  · have bound := all timer inside runs
    omega

end QemuIos

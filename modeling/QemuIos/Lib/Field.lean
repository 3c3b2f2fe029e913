import Mathlib.Data.UInt

/-!
# Fields of a register

A register of 32 bits is a word with fields under masks. Writing a field leaves every field under a
mask apart from its own as it was.
-/

namespace QemuIos.Field
open BitVec

variable (x y m k : UInt32)

theorem ext {x y : UInt32} (same : ∀ i, i < 32 → x.toBitVec.getLsbD i = y.toBitVec.getLsbD i) :
    x = y :=
  UInt32.toBitVec_inj.mp (eq_of_getLsbD_eq same)

/-- Two masks without a common bit. -/
theorem apart_bit {m k : UInt32} (apart : m &&& k = 0) (i : Nat) :
    (m.toBitVec.getLsbD i && k.toBitVec.getLsbD i) = false := by
  have bits := congrArg (fun w : UInt32 => w.toBitVec.getLsbD i) apart
  simpa using bits

theorem getLsbD_write {i : Nat} (small : i < 32) :
    (x &&& ~~~m ||| y &&& m).toBitVec.getLsbD i =
      bif m.toBitVec.getLsbD i then y.toBitVec.getLsbD i else x.toBitVec.getLsbD i := by
  simp only [UInt32.toBitVec_and, UInt32.toBitVec_or, UInt32.toBitVec_not, getLsbD_and,
    getLsbD_or, getLsbD_not, small, decide_true, Bool.true_and]
  cases m.toBitVec.getLsbD i <;> simp

theorem and_write : (x &&& ~~~m ||| y &&& m) &&& m = y &&& m := by
  refine ext fun i small => ?_
  rw [UInt32.toBitVec_and, getLsbD_and, getLsbD_write _ _ _ small, UInt32.toBitVec_and, getLsbD_and]
  cases m.toBitVec.getLsbD i <;> simp

theorem and_write_of_apart {m k : UInt32} (apart : m &&& k = 0) :
    (x &&& ~~~m ||| y &&& m) &&& k = x &&& k := by
  refine ext fun i small => ?_
  have bit := apart_bit apart i
  rw [UInt32.toBitVec_and, getLsbD_and, getLsbD_write _ _ _ small, UInt32.toBitVec_and, getLsbD_and]
  revert bit
  cases m.toBitVec.getLsbD i <;> cases k.toBitVec.getLsbD i <;> simp

theorem and_clear : (x &&& ~~~m) &&& m = 0 := by
  simpa only [UInt32.zero_and, UInt32.or_zero] using and_write x 0 m

theorem and_clear_of_apart {m k : UInt32} (apart : m &&& k = 0) : (x &&& ~~~m) &&& k = x &&& k := by
  simpa only [UInt32.zero_and, UInt32.or_zero] using and_write_of_apart x 0 apart

theorem and_set : (x ||| m) &&& m = m := by
  refine ext fun i _ => ?_
  simp only [UInt32.toBitVec_and, UInt32.toBitVec_or, getLsbD_and, getLsbD_or]
  cases m.toBitVec.getLsbD i <;> simp

theorem and_set_of_apart {m k : UInt32} (apart : m &&& k = 0) : (x ||| m) &&& k = x &&& k := by
  refine ext fun i _ => ?_
  have bit := apart_bit apart i
  simp only [UInt32.toBitVec_and, UInt32.toBitVec_or, getLsbD_and, getLsbD_or]
  revert bit
  cases m.toBitVec.getLsbD i <;> cases k.toBitVec.getLsbD i <;> simp

/-- A word with more bits set has what it had under a mask. -/
theorem or_and_ne_zero {x m : UInt32} (hits : x &&& m ≠ 0) (y : UInt32) : (x ||| y) &&& m ≠ 0 := by
  intro zero
  refine hits (ext fun i _ => ?_)
  have bit := apart_bit zero i
  simp only [UInt32.toBitVec_and, UInt32.toBitVec_or, getLsbD_and, getLsbD_or] at bit ⊢
  revert bit
  cases x.toBitVec.getLsbD i <;> cases m.toBitVec.getLsbD i <;> simp

/-- A field written with what it holds. -/
theorem write_self : x &&& ~~~m ||| x &&& m = x :=
  ext fun i small => by rw [getLsbD_write _ _ _ small, Bool.cond_self]

end QemuIos.Field

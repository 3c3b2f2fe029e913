import Mathlib.Algebra.GroupWithZero.Nat

/-!
# Sizes

The table sizes numerals are taken below, each with one proof for every module.
-/

namespace QemuIos

instance neZero_two : NeZero 2 := ⟨by decide⟩
instance neZero_eight : NeZero 8 := ⟨by decide⟩
instance neZero_sixteen : NeZero 16 := ⟨by decide⟩

end QemuIos

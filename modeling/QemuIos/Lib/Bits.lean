import QemuIos.Lib.CText

/-!
# Bit streams

A byte string read as a stream of bits, least significant bit of each byte first. Setting one
bit of a buffer leaves every other bit alone, so what a loop of single-bit writes leaves behind
is told bit by bit.
-/

namespace QemuIos.Bits
open CText List Nat

variable (bytes : Bytes)

/-- Bit `j` of a byte string; past its end all bits are clear. -/
def bitAt (j : Nat) : Bool := (bytes.getD (j / 8) 0).toNat.testBit (j % 8)

/-- Set bit `j` of a buffer. -/
def setBit (j : Nat) : Bytes :=
  bytes.modify (j / 8) (· ||| UInt8.ofNat (2 ^ (j % 8)))

@[simp] theorem length_setBit (j : Nat) : (setBit bytes j).length = bytes.length :=
  length_modify ..

theorem toNat_twoPow {k : Nat} (small : k < 8) : (UInt8.ofNat (2 ^ k)).toNat = 2 ^ k := by
  have bound : 2 ^ k < 2 ^ 8 := Nat.pow_lt_pow_right (by omega) small
  rw [UInt8.toNat_ofNat']
  exact Nat.mod_eq_of_lt bound

theorem bitAt_setBit {bytes : Bytes} {j : Nat} (inside : j / 8 < bytes.length) (k : Nat) :
    bitAt (setBit bytes j) k = (bitAt bytes k || decide (k = j)) := by
  unfold bitAt setBit
  rw [getD_eq_getElem?_getD, getElem?_modify, getD_eq_getElem?_getD]
  by_cases sameByte : j / 8 = k / 8
  · simp only [if_pos sameByte]
    rw [← sameByte, getElem?_eq_getElem inside]
    simp only [Option.map_eq_map, Option.map_some, Option.getD_some, UInt8.toNat_or, testBit_or]
    rw [toNat_twoPow (mod_lt _ (by omega)), testBit_two_pow]
    congr 1
    simp only [decide_eq_decide]
    omega
  · have other : k ≠ j := by
      rintro rfl
      exact sameByte rfl
    simp [if_neg sameByte, other]

@[simp] theorem bitAt_replicate (n k : Nat) : bitAt (replicate n 0) k = false := by
  unfold bitAt
  rw [getD_eq_getElem?_getD, getElem?_replicate]
  split <;> simp

/-- A prefix of whole bytes keeps its bits. -/
theorem bitAt_take {bytes : Bytes} {n k : Nat} (inside : k / 8 < n) :
    bitAt (bytes.take n) k = bitAt bytes k := by
  unfold bitAt
  rw [getD_eq_getElem?_getD, getElem?_take_of_lt inside, ← getD_eq_getElem?_getD]

/-- The number whose low bits are those from `start` on, as a loop over `width` bits puts it
together. -/
def wordAt (start width : Nat) : Nat :=
  (List.range width).foldl (fun v b => v ||| ((bitAt bytes (start + b)).toNat <<< b)) 0

theorem testBit_wordAt (start width k : Nat) :
    (wordAt bytes start width).testBit k = (decide (k < width) && bitAt bytes (start + k)) := by
  unfold wordAt
  induction width with
  | zero => simp
  | succ width ih =>
    rw [range_succ, foldl_concat, testBit_or, ih, testBit_shiftLeft]
    rcases lt_trichotomy k width with below | same | above
    · simp [show ¬ width ≤ k by omega, below, lt_succ_of_lt below]
    · subst same
      cases bitAt bytes (start + k) <;> simp
    have high : (bitAt bytes (start + width)).toNat.testBit (k - width) = false := by
      cases bitAt bytes (start + width) with
      | false => simp
      | true => exact Nat.testBit_lt_two_pow (Nat.one_lt_two_pow (by omega))
    simp [high, show ¬ k < width by omega, show ¬ k < width + 1 by omega]

theorem wordAt_eq {bytes : Bytes} {start width v : Nat} (small : v < 2 ^ width)
    (bits : ∀ k < width, bitAt bytes (start + k) = v.testBit k) : wordAt bytes start width = v := by
  apply eq_of_testBit_eq
  intro k
  rw [testBit_wordAt]
  by_cases inside : k < width
  · simp [inside, bits k inside]
  · rw [Nat.testBit_lt_two_pow (small.trans_le (Nat.pow_le_pow_right (by omega) (by omega)))]
    simp [inside]

end QemuIos.Bits

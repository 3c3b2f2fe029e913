import QemuIos.Lib.Bits

/-!
# Byte-addressed memory

Memory, or a file, as the byte at each address. Stores of a run of bytes and little-endian words are
functions from memory to memory; what a load sees behind a store depends on nothing but whether the
two overlap. A run of bytes is also a bitmap, eight bits to the byte.
-/

namespace QemuIos

open List Nat

/-- The byte at each address. -/
abbrev Mem := Nat → UInt8

namespace Mem

variable (m : Mem)

/-- Copy `len` bytes of `src` to address `a`. -/
def blit (a len : Nat) (src : Mem) : Mem :=
  fun k => if a ≤ k ∧ k < a + len then src (k - a) else m k

/-- What lies from an address on. -/
def slice (a : Nat) : Mem := fun i => m (a + i)

/-- A list of bytes from address 0 on, with zeros behind it. -/
def ofList (l : List UInt8) : Mem := fun i => l.getD i 0

/-- A little-endian half-word. -/
def half (a : Nat) : Nat := (m a).toNat + 2 ^ 8 * (m (a + 1)).toNat

/-- A little-endian word. -/
def word (a : Nat) : Nat := half m a + 2 ^ 16 * half m (a + 2)

/-- Store a little-endian word; of a larger number the low 32 bits. -/
def setWord (a v : Nat) : Mem := blit m a 4 fun i => UInt8.ofNat (v / 2 ^ (8 * i))

/-- Store a little-endian half-word; of a larger number the low 16 bits. -/
def setHalf (a v : Nat) : Mem := blit m a 2 fun i => UInt8.ofNat (v / 2 ^ (8 * i))

/-- A bit of a bitmap. -/
def bit (j : Nat) : Bool := (m (j / 8)).toNat.testBit (j % 8)

/-- Set a bit of a bitmap. -/
def setBit (j : Nat) : Mem :=
  Function.update m (j / 8) (m (j / 8) ||| UInt8.ofNat (2 ^ (j % 8)))

/-- Two runs of bytes that have no address in common. -/
def Apart (a len b len' : Nat) : Prop := a + len ≤ b ∨ b + len' ≤ a

section Blit

variable (m : Mem) (a len : Nat) (src : Mem)

theorem blit_of_inside {k : Nat} (low : a ≤ k) (high : k < a + len) :
    blit m a len src k = src (k - a) := if_pos ⟨low, high⟩

theorem blit_of_outside {k : Nat} (outside : k < a ∨ a + len ≤ k) : blit m a len src k = m k :=
  if_neg (by omega)

@[simp] theorem blit_zero : blit m a 0 src = m := by
  funext k
  exact blit_of_outside m a 0 src (by omega)

theorem blit_offset {i : Nat} (inside : i < len) : blit m a len src (a + i) = src i := by
  rw [blit_of_inside m a len src (by omega) (by omega), Nat.add_sub_cancel_left]

theorem blit_idem : blit (blit m a len src) a len src = blit m a len src := by
  funext k
  unfold blit
  split
  · rfl
  · rfl

theorem blit_start {i : Nat} (inside : i < len) : blit m 0 len src i = src i :=
  blit_of_inside m 0 len src (zero_le i) (by omega)

/-- Records of `stride` bytes, stored from record `first` on: the bytes of a record are those stored
for it, or what they were. -/
theorem blit_records {first count stride page i : Nat} (inside : i < stride) :
    blit m (first * stride) (count * stride) src (page * stride + i) =
      if first ≤ page ∧ page < first + count
      then src ((page - first) * stride + i) else m (page * stride + i) := by
  rcases lt_or_ge page first with before | late
  · have below : (page + 1) * stride ≤ first * stride := mul_le_mul_right stride before
    rw [Nat.add_mul, Nat.one_mul] at below
    rw [if_neg (by omega), blit_of_outside m _ _ src (by omega)]
  obtain ⟨k, rfl⟩ := Nat.exists_eq_add_of_le late
  rw [Nat.add_mul, Nat.add_sub_cancel_left]
  by_cases covered : k < count
  · have below : (k + 1) * stride ≤ count * stride := mul_le_mul_right stride covered
    rw [add_mul, one_mul] at below
    rw [if_pos (by omega), blit_of_inside m _ _ src (by omega) (by omega)]
    congr 1
    omega
  · have above : count * stride ≤ k * stride := mul_le_mul_right stride (by omega)
    rw [if_neg (by omega), blit_of_outside m _ _ src (by omega)]

end Blit

theorem blit_ofList (l k : List UInt8) :
    blit (ofList l) l.length k.length (ofList k) = ofList (l ++ k) := by
  funext i
  unfold ofList
  rcases lt_or_ge i l.length with inside | past
  · rw [blit_of_outside _ _ _ _ (.inl inside), getD_append _ _ _ _ inside]
  rw [getD_append_right _ _ _ _ past]
  rcases lt_or_ge i (l.length + k.length) with new | behind
  · rw [blit_of_inside _ _ _ _ past new]
  · rw [blit_of_outside _ _ _ _ (.inr behind), getD_eq_default _ _ past,
      getD_eq_default _ _ (by omega)]

/-- The bytes of a list, read back. -/
theorem range_map_ofList (l : List UInt8) : (range l.length).map (ofList l) = l := by
  apply ext_getElem
  · rw [length_map, length_range]
  · intro i inside _
    rw [getElem_map, getElem_range, ofList, getD_eq_getElem]

variable (m : Mem)

/-- A run of bytes, cut out of a longer one. -/
theorem range_map_slice {a n k : Nat} (fits : a + n ≤ k) :
    (range n).map (m.slice a) = (((range k).map m).drop a).take n := by
  apply ext_getElem
  · simp only [length_map, length_range, length_take, length_drop]
    omega
  · intro i inside _
    simp only [getElem_map, getElem_range, getElem_take, getElem_drop, slice]

theorem half_lt (a : Nat) : half m a < 2 ^ 16 := by
  have low := (m a).toNat_lt
  have high := (m (a + 1)).toNat_lt
  unfold half
  omega

theorem word_lt (a : Nat) : word m a < 2 ^ 32 := by
  have low := half_lt m a
  have high := half_lt m (a + 2)
  unfold word
  omega

/-- A word is its four bytes. -/
theorem word_congr {m m' : Mem} {a : Nat} (same : ∀ i < 4, m' (a + i) = m (a + i)) :
    word m' a = word m a := by
  have first : m' a = m a := same 0 (by omega)
  unfold word half
  rw [first, same 1 (by omega), same 2 (by omega), add_assoc a 2 1, same 3 (by omega)]

theorem word_setWord_of_apart {a b : Nat} (v : Nat) (apart : Apart a 4 b 4) :
    word (setWord m a v) b = word m b :=
  word_congr fun _ _ => blit_of_outside m a 4 _ (by unfold Apart at apart; omega)

theorem word_setWord (a : Nat) {v : Nat} (small : v < 2 ^ 32) :
    word (setWord m a v) a = v := by
  have byte : ∀ i < 4, setWord m a v (a + i) = UInt8.ofNat (v / 2 ^ (8 * i)) :=
    fun i inside => blit_offset m a 4 _ inside
  have first : setWord m a v a = UInt8.ofNat v := by simpa using byte 0 (by omega)
  unfold word half
  rw [first, byte 1 (by omega), byte 2 (by omega), add_assoc a 2 1, byte 3 (by omega)]
  simp only [UInt8.toNat_ofNat']
  omega

theorem half_setHalf (a : Nat) {v : Nat} (small : v < 2 ^ 16) :
    half (setHalf m a v) a = v := by
  have byte : ∀ i < 2, setHalf m a v (a + i) = UInt8.ofNat (v / 2 ^ (8 * i)) :=
    fun i inside => blit_offset m a 2 _ inside
  have first : setHalf m a v a = UInt8.ofNat v := by simpa using byte 0 (by omega)
  unfold half
  rw [first, byte 1 (by omega)]
  simp only [UInt8.toNat_ofNat']
  omega

theorem half_setHalf_of_apart {a b : Nat} (v : Nat) (apart : Apart a 2 b 2) :
    half (setHalf m a v) b = half m b := by
  have outside : ∀ k, b ≤ k → k < b + 2 → setHalf m a v k = m k := by
    intro k low high
    exact blit_of_outside m a 2 _ (by unfold Apart at apart; omega)
  unfold half
  rw [outside b (by omega) (by omega), outside (b + 1) (by omega) (by omega)]

theorem bit_setBit (j k : Nat) : bit (setBit m j) k = (bit m k || decide (k = j)) := by
  unfold bit setBit
  by_cases sameByte : k / 8 = j / 8
  · rw [sameByte, Function.update_self, UInt8.toNat_or, testBit_or,
      Bits.toNat_twoPow (mod_lt _ (by omega)), testBit_two_pow]
    congr 1
    simp only [decide_eq_decide]
    omega
  · have other : k ≠ j := by
      rintro rfl
      exact sameByte rfl
    rw [Function.update_of_ne sameByte, decide_eq_false other, Bool.or_false]

end Mem

end QemuIos

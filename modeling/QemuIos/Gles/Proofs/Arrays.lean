import QemuIos.Gles.Arrays

/-!
# What is staged for a draw

An array that is switched on for a draw holds the guest's elements from the lowest index on, one for
each vertex of the draw, and all of them inside the bytes that were copied or are left of the buffer
object (`bindArray_stages`, `es2BindAttr_stages`).
-/

namespace QemuIos.Gles
open Mem Nat

variable {count first : Nat} {pending pending' : Bool} {buffers : Nat → Region} {a : GLESArray}
  {base : Region} {env : Env} {slot : Slot}

/-- The bytes of one element at the host. -/
def HostArray.width (h : HostArray) : Nat := h.type.size * h.size

/-- How far its elements are apart. -/
def HostArray.pitch (h : HostArray) : Nat := if h.stride = 0 then h.width else h.stride

/-- The bytes of one element of the guest's array. -/
def GLESArray.width (a : GLESArray) : Nat := a.type.size * a.size

/-- How far its elements are apart. -/
def GLESArray.pitch (a : GLESArray) : Nat := if a.stride = 0 then a.width else a.stride

theorem GLESArray.pitch_ne_zero (a : GLESArray) (wide : a.width ≠ 0) : a.pitch ≠ 0 := by
  unfold pitch
  split <;> assumption

/-- Where the elements of an array are: in the guest's memory or in a buffer object. -/
def GLESArray.source (a : GLESArray) (g : Guest) (buffers : Nat → Region) : Mem :=
  match a.vbo with
  | some id => (buffers id).byte
  | none => g.byte

/-- A byte of an element of the guest's array, as the host is to see it: as it is, or of the float
the component is widened to. -/
def wanted (env : Env) (buffers : Nat → Region) (slot : Slot) (a : GLESArray) (n j : Nat) : UInt8 :=
  let m := a.source env.guest buffers
  let address := a.ptr + a.pitch * n
  if needsWiden slot a.type = true then
    byteOf (widened env.floats a.type m (address + a.type.size * (j / 4))) (j % 4)
  else
    m (address + j)

/-- The host's array holds the elements of the guest's array from `first` on. -/
structure Stages (env : Env) (buffers : Nat → Region) (slot : Slot) (a : GLESArray)
    (first nverts : Nat) (h : HostArray) : Prop where
  size : h.size = a.size
  inside : ∀ k < nverts, h.pitch * k + h.width ≤ h.data.size
  same : ∀ k < nverts, ∀ j < h.width,
    h.data.byte (h.pitch * k + j) = wanted env buffers slot a (first + k) j

theorem mul_add_le {step width k : Nat} (before : k < count) :
    step * k + width ≤ step * (count - 1) + width :=
  Nat.add_le_add_right (Nat.mul_le_mul_left step (by omega)) width

theorem arrayRange_some {ptr stride esz limit off need : Nat}
    (range : arrayRange ptr stride esz first count limit = some (off, need)) :
    off = ptr + stride * first ∧ need = stride * (count - 1) + esz ∧ off + need ≤ limit := by
  unfold arrayRange at range
  dsimp only at range
  split at range
  case isFalse => cases range
  case isTrue fits =>
    obtain ⟨rfl, rfl⟩ := Prod.mk.inj (Option.some.inj range)
    have inside := fits.2.2.2.2
    simp only [rangeOk, Bool.and_eq_true, decide_eq_true_eq] at inside
    exact ⟨rfl, rfl, by omega⟩

theorem Guest.read_some {g : Guest} {off len : Nat} {r : Region}
    (reads : g.read off len pending = (some r, pending')) : r = ⟨slice g.byte off, len⟩ := by
  unfold Guest.read at reads
  split at reads
  · cases reads
  split at reads
  · exact (Option.some.inj (Prod.mk.inj reads).1).symm
  · cases reads
  · cases reads

/-- What is fetched starts with the element `first` and reaches to the end of the last one. -/
theorem fetchArray_some {g : Guest} {stride esz : Nat}
    (fetched : fetchArray g buffers a stride esz first count pending = (some base, pending')) :
    base.byte = slice (a.source g buffers) (a.ptr + stride * first) ∧
      stride * (count - 1) + esz ≤ base.size := by
  unfold fetchArray at fetched
  unfold GLESArray.source
  cases vbo : a.vbo with
  | some id =>
    simp only [vbo] at fetched
    split at fetched
    case h_2 => cases fetched
    case h_1 off need range =>
      obtain ⟨rfl, rfl, inside⟩ := arrayRange_some range
      cases fetched
      exact ⟨rfl, by dsimp only; omega⟩
  | none =>
    simp only [vbo] at fetched
    split at fetched
    case h_2 => cases fetched
    case h_1 off need range =>
      obtain ⟨rfl, rfl, inside⟩ := arrayRange_some range
      split at fetched
      · rw [Guest.read_some fetched]
        exact ⟨rfl, le_refl _⟩
      · cases fetched

/-- The fetched bytes themselves serve as an array of the host. -/
theorem stages_fetched (plain : needsWiden slot a.type = false) (pitch : a.pitch ≠ 0)
    (bytes : base.byte = slice (a.source env.guest buffers) (a.ptr + a.pitch * first))
    (room : a.pitch * (count - 1) + a.width ≤ base.size) :
    Stages env buffers slot a first count ⟨a.size, a.type, a.pitch, base⟩ := by
  have host : HostArray.pitch ⟨a.size, a.type, a.pitch, base⟩ = a.pitch := by
    simp [HostArray.pitch, pitch]
  refine ⟨rfl, ?_, ?_⟩
  · intro k before
    rw [host]
    exact (mul_add_le before).trans room
  · intro k _ j _
    rw [host]
    simp only [wanted, plain, Bool.false_eq_true, if_false, bytes, slice]
    congr 1
    ring

theorem widened_slice (fl : Floats) (type : GlType) (m : Mem) (off address : Nat) :
    widened fl type (slice m off) address = widened fl type m (off + address) := by
  cases type with
  | fixed => simp only [widened, word, half, slice, add_assoc]
  | _ => rfl

theorem widenedCopy_byte (fl : Floats) (type : GlType) (base : Mem) {size : Nat}
    (stride count k : Nat) {j : Nat} (inside : j < 4 * size) :
    (widenedCopy fl type base size stride count).byte (4 * size * k + j) =
      byteOf (widened fl type base (stride * k + type.size * (j / 4))) (j % 4) := by
  have pos : 0 < size := by omega
  have float : (4 * size * k + j) / 4 = size * k + j / 4 := by
    rw [mul_assoc, mul_add_div (by omega)]
  have row : (size * k + j / 4) / size = k := by
    rw [mul_add_div pos, div_eq_of_lt (by omega), add_zero]
  have column : (size * k + j / 4) % size = j / 4 := by
    rw [mul_add_mod, mod_eq_of_lt (by omega)]
  have byte : (4 * size * k + j) % 4 = j % 4 := by
    rw [mul_assoc, mul_add_mod]
  simp only [widenedCopy, float, row, column, byte]

/-- The widened copy serves as an array of the host. -/
theorem stages_widened (widens : needsWiden slot a.type = true)
    (bytes : base.byte = slice (a.source env.guest buffers) (a.ptr + a.pitch * first)) :
    Stages env buffers slot a first count
      ⟨a.size, .float, 0, widenedCopy env.floats a.type base.byte a.size a.pitch count⟩ := by
  have pitch : HostArray.pitch
      ⟨a.size, .float, 0, widenedCopy env.floats a.type base.byte a.size a.pitch count⟩ =
        4 * a.size := rfl
  have width : HostArray.width
      ⟨a.size, .float, 0, widenedCopy env.floats a.type base.byte a.size a.pitch count⟩ =
        4 * a.size := rfl
  refine ⟨rfl, ?_, ?_⟩
  · intro k before
    rw [pitch, width]
    change 4 * a.size * k + 4 * a.size ≤ count * a.size * 4
    calc 4 * a.size * k + 4 * a.size = 4 * a.size * (k + 1) := by ring
      _ ≤ 4 * a.size * count := mul_le_mul_left _ before
      _ = count * a.size * 4 := by ring
  · intro k _ j inside
    rw [pitch, widenedCopy_byte _ _ _ _ _ _ (width ▸ inside), bytes, widened_slice]
    simp only [wanted, widens, if_true]
    congr 2
    ring

/-- What the bridge points the host at in a slot. The size of normals is fixed. -/
theorem bindArray_stages {h : HostArray} (size : a.size ≠ 0 → hostSize slot a = a.size)
    (binds : bindArray env buffers slot a first count pending = (.on h, pending')) :
    Stages env buffers slot a first count h ∧ count ≠ 0 := by
  unfold bindArray at binds
  dsimp only at binds
  split at binds
  case isTrue => cases binds
  case isFalse serves =>
    rw [size fun zero => serves (.inr (.inr (.inr (by simp [zero]))))] at binds
    have pitch : a.pitch ≠ 0 := a.pitch_ne_zero fun zero => serves (.inr (.inr (.inr zero)))
    refine ⟨?_, fun zero => serves (.inr (.inr (.inl zero)))⟩
    split at binds
    case h_1 => cases binds
    case h_2 base pending'' fetched =>
      obtain ⟨bytes, room⟩ := fetchArray_some fetched
      split at binds
      case isTrue widens =>
        split at binds
        case isFalse => cases binds
        split at binds
        case isFalse => cases binds
        cases binds
        exact stages_widened widens bytes
      case isFalse plain =>
        split at binds
        case isFalse => cases binds
        split at binds
        case isFalse => cases binds
        cases binds
        exact stages_fetched (by simpa using plain) pitch bytes room

theorem es2BindAttr_stages {i : Fin 16} {h : HostArray}
    (binds : es2BindAttr env buffers (.attrib i) a first count pending = (.on h, pending')) :
    Stages env buffers (.attrib i) a first count h ∧ count ≠ 0 := by
  unfold es2BindAttr at binds
  dsimp only at binds
  split at binds
  case isTrue => cases binds
  case isFalse serves =>
    have pitch : a.pitch ≠ 0 := a.pitch_ne_zero fun zero => serves (.inr (.inr (.inr zero)))
    refine ⟨?_, fun zero => serves (.inr (.inr (.inl zero)))⟩
    split at binds
    case h_1 => cases binds
    case h_2 base pending'' fetched =>
      obtain ⟨bytes, room⟩ := fetchArray_some fetched
      split at binds
      case isTrue widens =>
        split at binds
        case isFalse => cases binds
        cases binds
        exact stages_widened (by rw [widens]; rfl) bytes
      case isFalse plain =>
        split at binds
        case isFalse => cases binds
        cases binds
        refine stages_fetched ?_ pitch bytes room
        -- Only `GL_FIXED` is widened in a generic attribute.
        cases type : a.type <;> first | rfl | exact absurd type plain

end QemuIos.Gles

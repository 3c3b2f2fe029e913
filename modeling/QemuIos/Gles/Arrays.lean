import QemuIos.Lib.Mem

/-!
# Vertex arrays and draws of the GL bridge

How `hw/arm/gles-host.c` carries out `glDrawArrays` and `glDrawElements`. The guest's arrays are
only looked at when it draws: the elements a draw needs are copied out of guest memory, or pointed
to in a buffer object, and the host's GL gets a pointer to them, with the indices of the draw
counted from the lowest one. A page of guest memory that is not there makes the whole call fail; the
guest gets the fault and issues the call again.

Which arrays are on at the host, and where they point, is part of the state: the bridge switches
them on for a draw and off after it. The host's floats, its verdict on a pointer (`IT_GLES_STRICT`),
the guest's memory and the refresh of surface textures before a draw are parameters of each draw.
-/

namespace QemuIos.Gles

/-- The types of array elements and indices, as GL names them. -/
inductive GlType where
  | byte | unsignedByte | short | unsignedShort | int | unsignedInt | float | double | fixed
  | other (name : Nat)
deriving Repr, DecidableEq

/-- `gles_type_size`: 0 for what the bridge does not size. -/
def GlType.size : GlType → Nat
  | .byte | .unsignedByte => 1
  | .short | .unsignedShort => 2
  | .float | .fixed => 4
  | _ => 0

/-- The arrays the host has: those of ES 1.1, and the generic attributes of ES 2.0. -/
inductive Slot where
  | vertex | color | normal
  | texCoord (unit : Fin 8)
  | attrib (i : Fin 16)
deriving Repr, DecidableEq

/-- `GLES_MAX_SCRATCH`. -/
def maxScratch : Nat := 4096 * 4096 * 4

/-- `gles_array_layout_ok`: what `gl*Pointer` and `glVertexAttribPointer` accept. -/
def arrayLayoutOk (size : Nat) (type : GlType) (stride : Nat) : Bool :=
  1 ≤ size && size ≤ 4 && type.size != 0 && stride ≤ 2 ^ 31 - 1

/-- `GLESArray`: an array the guest has set up. `ptr` is an address of the guest, or an offset into
the buffer object that was bound then. One that was never set has no components. -/
structure GLESArray where
  enabled : Bool
  size : Nat
  type : GlType
  stride : Nat
  ptr : Nat
  vbo : Option Nat
  layout : size = 0 ∨ arrayLayoutOk size type stride = true

/-- An array as it is at first. -/
def GLESArray.unset : GLESArray := ⟨false, 0, .other 0, 0, 0, none, .inl rfl⟩

/-- Bytes that can be read from a pointer on. -/
structure Region where
  byte : Mem
  size : Nat

/-- What comes of an access to guest memory: a page that can be paged in makes it fault. -/
inductive Access where
  | mapped | refused | faults
deriving Repr, DecidableEq

/-- The guest's memory during one call. -/
structure Guest where
  byte : Mem
  access : Nat → Nat → Access

/-- `gles_guest_rw`, for reading. After a fault every access of the call fails. -/
def Guest.read (g : Guest) (off len : Nat) (pending : Bool) : Option Region × Bool :=
  if pending then
    (none, true)
  else
    match g.access off len with
    | .mapped => (some ⟨Mem.slice g.byte off, len⟩, false)
    | .refused => (none, false)
    | .faults => (none, true)

/-- What the host makes of numbers that its GL does not take: the bits of floats. -/
structure Floats where
  ofFixed : Nat → UInt32
  ofByte : UInt8 → UInt32

/-- An array that is on at the host. A stride of 0 says that the elements are packed. -/
structure HostArray where
  size : Nat
  type : GlType
  stride : Nat
  data : Region

/-- `gles_range_ok`. -/
def rangeOk (off len size : Nat) : Bool := off ≤ size && len ≤ size - off

/-- `gles_array_range`: the bytes the elements from `first` on occupy, if none of the sums wraps and
they lie below the limit. -/
def arrayRange (ptr stride esz first count limit : Nat) : Option (Nat × Nat) :=
  let off := ptr + stride * first
  let len := stride * (count - 1) + esz
  if stride * first < 2 ^ 64 ∧ off < 2 ^ 64 ∧ stride * (count - 1) < 2 ^ 64 ∧ len < 2 ^ 64 ∧
      rangeOk off len limit = true then
    some (off, len)
  else
    none

/-- The elements of an array from `first` on: in its buffer object, or copied from the guest. -/
def fetchArray (g : Guest) (buffers : Nat → Region) (a : GLESArray) (stride esz first count : Nat)
    (pending : Bool) : Option Region × Bool :=
  match a.vbo with
  | some id =>
    match arrayRange a.ptr stride esz first count (buffers id).size with
    | some (off, _) =>
      (some ⟨Mem.slice (buffers id).byte off, (buffers id).size - off⟩, pending)
    | none => (none, pending)
  | none =>
    match arrayRange a.ptr stride esz first count (2 ^ 32) with
    | some (off, need) => if need ≤ maxScratch then g.read off need pending else (none, pending)
    | none => (none, pending)

/-- The bits of the float a component is widened to. -/
def widened (fl : Floats) (type : GlType) (m : Mem) (address : Nat) : UInt32 :=
  match type with
  | .fixed => fl.ofFixed (Mem.word m address)
  | _ => fl.ofByte (m address)

/-- A byte of a word in memory. -/
def byteOf (word : UInt32) (i : Nat) : UInt8 := UInt8.ofNat (word.toNat / 2 ^ (8 * i))

/-- The packed floats the elements are widened to: component `c` of element `i` is float
`i * size + c`. -/
def widenedCopy (fl : Floats) (type : GlType) (base : Mem) (size stride count : Nat) : Region where
  byte := fun p =>
    let n := p / 4
    byteOf (widened fl type base (stride * (n / size) + type.size * (n % size))) (p % 4)
  size := count * size * 4

/-- `gles_needs_widen`. -/
def needsWiden (slot : Slot) (type : GlType) : Bool :=
  match type, slot with
  | .fixed, _ => true
  | .byte, .vertex => true
  | .byte, .texCoord _ => true
  | _, _ => false

/-- `gles_pointer_ok`: what desktop GL takes. -/
def pointerOk (slot : Slot) (size : Nat) (type : GlType) : Bool :=
  let floatLike := type == .float || type == .double
  let wideInt := type == .short || type == .int
  match slot with
  | .vertex => 2 ≤ size && size ≤ 4 && (floatLike || wideInt)
  | .texCoord _ => 1 ≤ size && size ≤ 4 && (floatLike || wideInt)
  | .color =>
    (size == 3 || size == 4) && (floatLike || wideInt || type == .byte || type == .unsignedByte ||
      type == .unsignedShort || type == .unsignedInt)
  | .normal => floatLike || wideInt || type == .byte
  | .attrib _ => false

/-- What the host may do in a draw. -/
structure Env where
  guest : Guest
  floats : Floats
  /-- Whether the host takes the pointer. -/
  accepts : Slot → Bool
  /-- `gles_refresh_surfaces`: failed, or done with or without a fault pending. -/
  refresh : Option Bool

/-- What comes of binding an array: it is left alone, switched off, or on with a pointer. -/
inductive Bound where
  | left
  | off
  | on (h : HostArray)

/-- The components the host reads of an array: `glNormalPointer` takes no size. -/
def hostSize (slot : Slot) (a : GLESArray) : Nat :=
  match slot with
  | .normal => 3
  | _ => a.size

variable (env : Env)

/-- `gles_bind_array`: points the host at elements `first` to `first + count` of an array of ES
1.1. -/
def bindArray (buffers : Nat → Region) (slot : Slot) (a : GLESArray) (first count : Nat)
    (pending : Bool) : Bound × Bool :=
  let esz := a.type.size * a.size
  let stride := if a.stride = 0 then esz else a.stride
  if a.enabled = false ∨ (a.ptr = 0 ∧ a.vbo = none) ∨ count = 0 ∨ esz = 0 then
    (.left, pending)
  else
    match fetchArray env.guest buffers a stride esz first count pending with
    | (none, pending) => (.left, pending)
    | (some base, pending) =>
      if needsWiden slot a.type = true then
        if count * a.size * 4 ≤ maxScratch ∧ pointerOk slot a.size .float = true then
          if env.accepts slot = true then
            (.on ⟨hostSize slot a, .float, 0,
              widenedCopy env.floats a.type base.byte a.size stride count⟩, pending)
          else
            (.off, pending)
        else
          (.left, pending)
      else if pointerOk slot a.size a.type = true then
        if env.accepts slot = true then
          (.on ⟨hostSize slot a, a.type, stride, base⟩, pending)
        else
          (.off, pending)
      else
        (.left, pending)

/-- `gles_es2_bind_attr`: the same for a generic attribute. It is switched on once the host has
taken the pointer. -/
def es2BindAttr (buffers : Nat → Region) (slot : Slot) (a : GLESArray)
    (first count : Nat) (pending : Bool) : Bound × Bool :=
  let esz := a.type.size * a.size
  let stride := if a.stride = 0 then esz else a.stride
  if a.enabled = false ∨ (a.ptr = 0 ∧ a.vbo = none) ∨ count = 0 ∨ esz = 0 then
    (.left, pending)
  else
    match fetchArray env.guest buffers a stride esz first count pending with
    | (none, pending) => (.left, pending)
    | (some base, pending) =>
      if a.type = .fixed then
        if count * a.size * 4 ≤ maxScratch ∧ env.accepts slot = true then
          (.on ⟨a.size, .float, 0,
            widenedCopy env.floats a.type base.byte a.size stride count⟩, pending)
        else
          (.left, pending)
      else if env.accepts slot = true then
        (.on ⟨a.size, a.type, stride, base⟩, pending)
      else
        (.left, pending)

/-- `GLESHost`: what the draws of one context use of it, and the arrays its host context has on. -/
structure Gh where
  array : Slot → GLESArray
  pointsize : GLESArray
  buffers : Nat → Region
  arrayBuffer : Option Nat
  elementBuffer : Option Nat
  program : Nat
  host : Slot → Option HostArray

/-- A context as it is made. -/
def Gh.new : Gh where
  array := fun _ => .unset
  pointsize := .unset
  buffers := fun _ => ⟨fun _ => 0, 0⟩
  arrayBuffer := none
  elementBuffer := none
  program := 0
  host := fun _ => none

/-- Binds arrays one after the other: those that are on afterwards, the host, and whether a fault is
pending. -/
def bindEach (bind : Slot → Bool → Bound × Bool) :
    List Slot → (Slot → Option HostArray) → Bool → List Slot × (Slot → Option HostArray) × Bool
  | [], host, pending => ([], host, pending)
  | slot :: slots, host, pending =>
    match bind slot pending with
    | (.left, pending) => bindEach bind slots host pending
    | (.off, pending) => bindEach bind slots (Function.update host slot none) pending
    | (.on h, pending) =>
      let (bound, host, pending) :=
        bindEach bind slots (Function.update host slot (some h)) pending
      (slot :: bound, host, pending)

/-- The arrays of ES 1.1, in the order they are bound in. -/
def clientSlots : List Slot :=
  [.vertex, .color, .normal] ++ (List.finRange 8).map .texCoord

/-- The generic attributes. -/
def attribSlots : List Slot := (List.finRange 16).map .attrib

/-- `gles_bind_all_arrays`. With a fault pending the vertices do not count as bound. -/
def bindAllArrays (s : Gh) (first count : Nat) (pending : Bool) :
    List Slot × (Slot → Option HostArray) × Bool :=
  let (bound, host, pending) :=
    bindEach (fun slot => bindArray env s.buffers slot (s.array slot) first count)
      clientSlots s.host pending
  (if pending then bound.filter (· != .vertex) else bound, host, pending)

/-- `gles_unbind_arrays`. -/
def unbindArrays (host : Slot → Option HostArray) (bound : List Slot) : Slot → Option HostArray :=
  fun slot => if slot ∈ bound then none else host slot

/-- A draw the host is given: the arrays that were bound for it and all those the host has on, the
indices, counted from the element `first` of the guest's arrays, the number of vertices that were
staged, and how much of the index list there is. -/
structure Issue where
  bound : List Slot
  host : Slot → Option HostArray
  indices : List Nat
  first : Nat
  nverts : Nat
  indexBytes : Nat
  indexRoom : Nat
  /-- The sizes of single points, which the bridge reads itself. -/
  points : Option HostArray

/-- A draw call of the guest. -/
inductive Draw where
  | arrays (mode first count : Nat)
  | elements (mode count : Nat) (type : GlType) (iptr : Nat)
deriving Repr, DecidableEq

/-- `GL_POINTS`. -/
def glPoints : Nat := 0

/-- The index list of a draw: in its buffer object, or copied from the guest. -/
def fetchIndices (s : Gh) (need iptr : Nat) : Option Region :=
  match s.elementBuffer with
  | some id =>
    if rangeOk iptr need (s.buffers id).size = true then
      some ⟨Mem.slice (s.buffers id).byte iptr, (s.buffers id).size - iptr⟩
    else
      none
  | none => if need ≤ maxScratch then (env.guest.read iptr need false).1 else none

/-- The indices a list of bytes holds. -/
def indexList (m : Mem) (isz count : Nat) : List Nat :=
  (List.range count).map fun i => if isz = 1 then (m i).toNat else Mem.half m (i * 2)

/-- `gles_rebase_indices`: the lowest index, the number of vertices from it on, and the indices
counted from it. The copy is made in the scratch for indices. -/
def rebaseIndices (idx : List Nat) (inScratch : Bool) (need : Nat) :
    Option (Nat × Nat × List Nat) :=
  let lo := if idx.length = 0 then 0 else idx.foldl min (2 ^ 32 - 1)
  let hi := idx.foldl max 0
  let nverts := (hi - lo + 1) % 2 ^ 32
  if lo = 0 then
    some (0, nverts, idx)
  else if inScratch = true ∨ need ≤ maxScratch then
    some (lo, nverts, idx.map (· - lo))
  else
    none

/-- The index list of a draw, rebased: the lowest index, the number of vertices, the indices, and
how many bytes there are at the pointer. -/
def stageIndices (s : Gh) (count : Nat) (type : GlType) (iptr : Nat) :
    Option (Nat × Nat × List Nat × Nat) :=
  let need := count * type.size
  match fetchIndices env s need iptr with
  | none => none
  | some region =>
    match rebaseIndices (indexList region.byte type.size count) s.elementBuffer.isNone need with
    | none => none
    | some (first, nverts, idx) =>
      some (first, nverts, idx, if first = 0 then region.size else need)

/-- `gles_draw_sized_points`: each point with its own size, or all of them with one; nothing if a
page with sizes is to be paged in. -/
def drawSizedPoints (s : Gh) (bound : List Slot) (host : Slot → Option HostArray)
    (first count : Nat) : Option Issue :=
  let a := s.pointsize
  let stride := if a.stride = 0 then 4 else a.stride
  let all : Issue := ⟨bound, host, List.range count, first, count, 0, 0, none⟩
  if (a.ptr = 0 ∧ a.vbo = none) ∨ (a.type ≠ .float ∧ a.type ≠ .fixed) then
    some all
  else
    match fetchArray env.guest s.buffers a stride 4 first count false with
    | (some base, _) => some { all with points := some ⟨1, a.type, stride, base⟩ }
    | (none, pending) => if pending then none else some all

/-- A draw of ES 1.1 once its indices are there: the arrays are bound, the host draws, and the
arrays are switched off again. Without vertices nothing is drawn. -/
def drawBound (s : Gh) (first nverts : Nat)
    (issue : List Slot → (Slot → Option HostArray) → Option Issue) : Option Issue × Gh :=
  match env.refresh with
  | none => (none, s)
  | some pending =>
    let (bound, host, _) := bindAllArrays env s first nverts pending
    let after := { s with host := unbindArrays host bound }
    if .vertex ∈ bound then (issue bound host, after) else (none, after)

/-- `gles_es2_draw`, once the indices are there. -/
def es2Draw (s : Gh) (first nverts : Nat)
    (issue : List Slot → (Slot → Option HostArray) → Option Issue) : Option Issue × Gh :=
  match env.refresh with
  | none => (none, s)
  | some pending =>
    let (bound, host, pending) :=
      bindEach (fun slot => es2BindAttr env s.buffers slot (s.array slot) first nverts)
        attribSlots s.host pending
    let after := { s with host := unbindArrays host bound }
    (if pending then none else issue bound host, after)

/-- Whether a type is one of indices. -/
def indexType (type : GlType) : Bool := type == .unsignedByte || type == .unsignedShort

/-- The slots `GLES_SLOT_DRAW_ARRAYS` and `GLES_SLOT_DRAW_ELEMENTS`. -/
def draw (s : Gh) : Draw → Option Issue × Gh
  | .arrays mode first count =>
    if s.program ≠ 0 then
      if count = 0 then
        (none, s)
      else
        es2Draw env s first count fun bound host =>
          some ⟨bound, host, List.range count, first, count, 0, 0, none⟩
    else if (s.array .vertex).enabled = false then
      (none, s)
    else
      drawBound env s first count fun bound host =>
        if mode = glPoints ∧ s.pointsize.enabled = true then
          drawSizedPoints env s bound host first count
        else
          some ⟨bound, host, List.range count, first, count, 0, 0, none⟩
  | .elements _ count type iptr =>
    if count = 0 ∨ (s.program = 0 ∧ (s.array .vertex).enabled = false) ∨
        (iptr = 0 ∧ s.elementBuffer = none) ∨ indexType type = false then
      (none, s)
    else
      match stageIndices env s count type iptr with
      | none => (none, s)
      | some (first, nverts, idx, room) =>
        let issue bound host :=
          some ⟨bound, host, idx, first, nverts, count * type.size, room, none⟩
        if s.program ≠ 0 then es2Draw env s first nverts issue
        else drawBound env s first nverts issue

/-- The calls that set up arrays. -/
inductive Event where
  | pointer (slot : Slot) (size : Nat) (type : GlType) (stride ptr : Nat)
  | pointSizePointer (type : GlType) (stride ptr : Nat)
  | enable (slot : Slot) (on : Bool)
  | enablePointSize (on : Bool)
  | bindBuffer (elements : Bool) (buffer : Option Nat)
  | store (buffer : Nat) (contents : Region)
  | useProgram (program : Nat)
  | draw (env : Env) (d : Draw)

/-- `gles_set_pointer`: a layout GL would refuse leaves the array as it was. -/
def setPointer (a : GLESArray) (size : Nat) (type : GlType) (stride ptr : Nat) (vbo : Option Nat) :
    GLESArray :=
  if ok : arrayLayoutOk size type stride = true then
    { a with
      size := size, type := type, stride := stride, ptr := ptr, vbo := vbo, layout := .inr ok }
  else
    a

/-- The size `gl*Pointer` sets: `glNormalPointer` takes none. -/
def pointerSize (slot : Slot) (size : Nat) : Nat :=
  match slot with
  | .normal => 3
  | _ => size

/-- One call. The texture unit `glTexCoordPointer` and `glEnableClientState` apply to is in the
slot. A buffer's contents may be changed from any context of its share group. -/
def step (s : Gh) : Event → Gh
  | .pointer slot size type stride ptr =>
    let a := setPointer (s.array slot) (pointerSize slot size) type stride ptr s.arrayBuffer
    { s with array := Function.update s.array slot a }
  | .pointSizePointer type stride ptr =>
    { s with pointsize := setPointer s.pointsize 1 type stride ptr s.arrayBuffer }
  | .enable slot on =>
    { s with array := Function.update s.array slot { s.array slot with enabled := on } }
  | .enablePointSize on => { s with pointsize := { s.pointsize with enabled := on } }
  | .bindBuffer elements buffer =>
    if elements then { s with elementBuffer := buffer } else { s with arrayBuffer := buffer }
  | .store buffer contents => { s with buffers := Function.update s.buffers buffer contents }
  | .useProgram program => { s with program := program }
  | .draw env d => (draw env s d).2

end QemuIos.Gles

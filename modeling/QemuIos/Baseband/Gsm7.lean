import QemuIos.Lib.Bits

/-!
# The GSM default alphabet

`hw/misc/ios_baseband_core.c:738-901`: text of an SMS as septets of the default alphabet, with
the escape table for the characters that take two, packed into octets least significant bit
first. Strings are the bytes of a C string, without its NUL.
-/

namespace QemuIos.Baseband
open CText Bits

/-- The default alphabet in septet order, as UTF-8. -/
def gsm7Main : List Bytes := [
  -- 0..15
  [64], [0xc2, 0xa3], [36], [0xc2, 0xa5], [0xc3, 0xa8], [0xc3, 0xa9], [0xc3, 0xb9],
  [0xc3, 0xac], [0xc3, 0xb2], [0xc3, 0x87], [10], [0xc3, 0x98], [0xc3, 0xb8], [13],
  [0xc3, 0x85], [0xc3, 0xa5],
  -- 16..31
  [0xce, 0x94], [95], [0xce, 0xa6], [0xce, 0x93], [0xce, 0x9b], [0xce, 0xa9],
  [0xce, 0xa0], [0xce, 0xa8], [0xce, 0xa3], [0xce, 0x98], [0xce, 0x9e], [0xc3, 0x86],
  [0xc3, 0xa6], [0xc3, 0x9f], [0xc3, 0x89], [32],
  -- 32..47
  [32], [33], [34], [35], [0xc2, 0xa4], [37], [38], [39], [40], [41], [42], [43], [44],
  [45], [46], [47],
  -- 48..63
  [48], [49], [50], [51], [52], [53], [54], [55], [56], [57], [58], [59], [60], [61],
  [62], [63],
  -- 64..95
  [0xc2, 0xa1],
  [65], [66], [67], [68], [69], [70], [71], [72], [73], [74], [75], [76], [77], [78],
  [79], [80], [81], [82], [83], [84], [85], [86], [87], [88], [89], [90],
  [0xc3, 0x84], [0xc3, 0x96], [0xc3, 0x91], [0xc2, 0xa7], [0xc2, 0xbf],
  -- 96..127
  [0xc2, 0xa0],
  [97], [98], [99], [100], [101], [102], [103], [104], [105], [106], [107], [108], [109], [110],
  [111], [112], [113], [114], [115], [116], [117], [118], [119], [120], [121], [122],
  [0xc3, 0xa4], [0xc3, 0xb6], [0xc3, 0xbc], [0xc3, 0xb1], [0xc3, 0xa0]]

/-- The characters behind an escape (0x1b), with the septet that follows it. -/
def gsm7Ext : List (Bytes × Nat) := [
  ([94], 0x14), ([123], 0x28), ([125], 0x29), ([92], 0x2f), ([91], 0x3c), ([93], 0x3d),
  ([124], 0x40), ([0xe2, 0x82, 0xac], 0x65)]

/-- The table entry at the head of a string: its septet, or 256 plus the septet behind an
escape, and its length. Position 31, the alphabet's second space, is passed over. -/
def gsm7Lookup (s : Bytes) : Option (Nat × Nat) :=
  match (List.range 128).find? fun i => i ≠ 31 && (gsm7Main.getD i []).isPrefixOf s with
  | some i => some (i, (gsm7Main.getD i []).length)
  | none => (gsm7Ext.find? fun e => e.1.isPrefixOf s).map fun e => (0x100 ||| e.2, e.1.length)

/-- The loop of `gsm7_encodable`; the fuel is the length of the string. -/
def gsm7EncodableFrom : Nat → Bytes → Bool
  | _, [] => true
  | 0, _ => false
  | fuel + 1, s =>
    match gsm7Lookup s with
    | some (_, n) => gsm7EncodableFrom fuel (s.drop n)
    | none => false

def gsm7Encodable (s : Bytes) : Bool := gsm7EncodableFrom s.length s

/-- The loop of `gsm7_pack` that fills `septets[512]`, of which `ns` are filled. -/
def gsm7SeptetsFrom : Nat → Nat → Bytes → List Nat
  | _, _, [] => []
  | 0, _, _ => []
  | fuel + 1, ns, s =>
    if ns + 2 < 512 then
      match gsm7Lookup s with
      | some (v, n) =>
        if v &&& 0x100 ≠ 0 then 0x1b :: (v &&& 0xff) :: gsm7SeptetsFrom fuel (ns + 2) (s.drop n)
        else v :: gsm7SeptetsFrom fuel (ns + 1) (s.drop n)
      | none => []
    else []

def gsm7Septets (s : Bytes) : List Nat := gsm7SeptetsFrom s.length 0 s

/-- One bit of a septet: the buffer and the position of the next bit. An error is the return
from a full buffer. -/
def packBit (max septet : Nat) (st : Bytes × Nat) (b : Nat) : Except Bytes (Bytes × Nat) :=
  let out := if septet.testBit b then setBit st.1 st.2 else st.1
  if max < (st.2 + 1) / 8 + 1 then .error out else .ok (out, st.2 + 1)

def packSeptet (max : Nat) (st : Bytes × Nat) (septet : Nat) : Except Bytes (Bytes × Nat) :=
  (List.range 7).foldlM (packBit max septet) st

/-- The octets written into a buffer of `max` and how many of them count. -/
def packSeptets (max : Nat) (septets : List Nat) : Bytes × Nat :=
  match septets.foldlM (packSeptet max) (List.replicate max 0, 0) with
  | .error out => (out, max)
  | .ok (out, bitpos) => (out, (bitpos + 7) / 8)

/-- The octets returned and the septet count reported. -/
def gsm7Pack (s : Bytes) (max : Nat) : Bytes × Nat :=
  let (out, no) := packSeptets max (gsm7Septets s)
  (out.take no, (gsm7Septets s).length)

/-- The text of a septet behind an escape. -/
def extText (v : Nat) : Bytes := ((gsm7Ext.find? (·.2 = v)).map (·.1)).getD []

/-- The loop of `gsm7_unpack`: so many septets left, the next one's number, whether the last
was an escape, and the text so far. -/
def gsm7UnpackFrom (input : Bytes) (max : Nat) : Nat → Nat → Bool → Bytes → Bytes
  | 0, _, _, out => out
  | left + 1, i, esc, out =>
    if out.length + 4 < max then
      let v := wordAt input (i * 7) 7
      if esc then gsm7UnpackFrom input max left (i + 1) false (out ++ extText v)
      else if v = 0x1b then gsm7UnpackFrom input max left (i + 1) true out
      else gsm7UnpackFrom input max left (i + 1) false (out ++ gsm7Main.getD v [])
    else out

def gsm7Unpack (input : Bytes) (nseptets max : Nat) : Bytes :=
  gsm7UnpackFrom input max nseptets 0 false []

end QemuIos.Baseband

import QemuIos.Lib.Bits
import QemuIos.Lib.Blocks

/-!
# The AES filter of the CDMA

A context holds a key choice, an IV and the running CBC chain. A feeding channel's segments go
through it as one stream: what a segment has past its last whole block is carried over to the next.
AES is a block permutation for every key; the fused GID key is known by a table of whole blobs.
-/

namespace QemuIos.Cdma

def gidBlobSize : Nat := 48

/-- The most bytes the engine holds for a draining channel, and the longest segment. -/
def maxSegment : Nat := 16 * 1024 * 1024

/-- A block cipher: for every key a permutation of the 16-byte blocks. -/
structure Cipher where
  encrypt : List UInt8 → List UInt8 → List UInt8
  decrypt : List UInt8 → List UInt8 → List UInt8
  encrypt_length : ∀ key block, block.length = 16 → (encrypt key block).length = 16
  decrypt_length : ∀ key block, block.length = 16 → (decrypt key block).length = 16
  decrypt_encrypt : ∀ key block, block.length = 16 → decrypt key (encrypt key block) = block
  encrypt_decrypt : ∀ key block, block.length = 16 → encrypt key (decrypt key block) = block

/-- A cipher that changes nothing. -/
def Cipher.plain : Cipher :=
  ⟨fun _ block => block, fun _ block => block, fun _ _ h => h, fun _ _ h => h, fun _ _ _ => rfl,
    fun _ _ _ => rfl⟩

/-- A record of the `gid-blobs` file: an encrypted KBAG and its plaintext. -/
structure GidBlob where
  kbag : List UInt8
  plain : List UInt8
  kbag_length : kbag.length = gidBlobSize
  plain_length : plain.length = gidBlobSize

/-- What the machine is built with: AES, and the records that stand in for the GID key. -/
structure Fuses where
  cipher : Cipher
  gid : List GidBlob

structure AesContext where
  setup : Nat
  iv : Nat → Nat
  key : Nat → Nat
  /-- The running CBC IV. -/
  chain : List UInt8
  /-- The bytes of a block that is split between two segments. -/
  carry : List UInt8

namespace AesContext

variable (c : AesContext)

def encrypts : Bool := c.setup.testBit 16
def enabled : Bool := c.setup.testBit 17
def customKey : Bool := c.setup.testBit 20
def gidKey : Bool := c.setup.testBit 21
def channel : Nat := c.setup / 2 ^ 8 % 2 ^ 8

/-- The bytes of little-endian words. -/
def wordBytes (words : Nat → Nat) (n : Nat) : List UInt8 :=
  (List.range (4 * n)).map fun i => UInt8.ofNat (words (i / 4) / 2 ^ (8 * (i % 4)))

def ivBytes : List UInt8 := wordBytes c.iv 4

/-- 128, 192 or 256 bits; the fourth code is 256 as well. -/
def keyLen : Nat :=
  match c.setup / 2 ^ 18 % 4 with
  | 0 => 16
  | 1 => 24
  | _ => 32

end AesContext

def cdmaUidKey : List UInt8 :=
  [0x4b, 0x34, 0x38, 0x41, 0x50, 0x2d, 0x55, 0x49, 0x44, 0x2d, 0x53, 0x35,
    0x4c, 0x38, 0x39, 0x33, 0x30, 0x2d, 0x69, 0x50, 0x61, 0x64, 0x31, 0x2d,
    0x37, 0x42, 0x35, 0x30, 0x30, 0x2d, 0x30, 0x31]

/-- `gid_lookup`: the plaintext of a blob, if the table has it. -/
def gidLookup (gid : List GidBlob) (buf : List UInt8) : Option (List UInt8) :=
  if buf.length ≠ gidBlobSize then none
  else (gid.find? fun record => record.kbag == buf).map GidBlob.plain

/-- The key a context works with. -/
def AesContext.keyBytes (c : AesContext) : List UInt8 :=
  if c.customKey then (AesContext.wordBytes c.key 8).take c.keyLen else cdmaUidKey

def xorBlock (a b : List UInt8) : List UInt8 := List.zipWith (· ^^^ ·) a b

/-- One block in CBC mode: its output and what the next block is chained to. -/
def AesContext.step (c : AesContext) (cipher : Cipher) (chain block : List UInt8) :
    List UInt8 × List UInt8 :=
  if c.encrypts then
    let out := cipher.encrypt c.keyBytes (xorBlock block chain)
    (out, out)
  else (xorBlock (cipher.decrypt c.keyBytes block) chain, block)

/-- `aes_apply`: CBC over one segment, chaining through the context. -/
def aesApply (f : Fuses) (c : AesContext) (buf : List UInt8) (restart : Bool) :
    Option (AesContext × List UInt8) :=
  if buf.length % 16 ≠ 0 then none
  else
    let c := if restart then { c with chain := c.ivBytes } else c
    let known := if ¬ c.customKey ∧ c.gidKey ∧ ¬ c.encrypts then gidLookup f.gid buf else none
    match known with
    | some plain => some (c, plain)
    | none =>
      let out := (Blocks.run 16 (c.step f.cipher) (buf.length / 16) c.chain buf).1
      let last := (if c.encrypts then out else buf).drop (buf.length - 16)
      some ({ c with chain := last }, out)

/-- `fifo_push`: the engine's output waits for a draining channel. -/
def fifoPush (fifo buf : List UInt8) : Option (List UInt8) :=
  if fifo.length ≤ maxSegment ∧ buf.length ≤ maxSegment - fifo.length then some (fifo ++ buf)
    else none

/-- `aes_feed`: a segment through the engine, whole blocks at a time. Returns the context, the
engine's queue and whether all went well. -/
def aesFeed (f : Fuses) (c : AesContext) (fifo buf : List UInt8) (restart : Bool) :
    AesContext × List UInt8 × Bool :=
  let c := if restart then { c with carry := [], chain := c.ivBytes } else c
  let work := c.carry ++ buf
  let whole := work.length / 16 * 16
  if whole = 0 then ({ c with carry := work }, fifo, true)
  else
    let applied := aesApply f c (work.take whole) false
    let c' := (applied.map Prod.fst).getD c
    let out := (applied.map Prod.snd).getD (work.take whole)
    let pushed := fifoPush fifo out
    ({ c' with carry := work.drop whole }, pushed.getD fifo, applied.isSome && pushed.isSome)

end QemuIos.Cdma

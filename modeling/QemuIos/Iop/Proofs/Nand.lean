import QemuIos.Iop.Nand
import QemuIos.Lib.Flash

/-!
# The page store as an array of flash pages

What the store is for: an array of pages, where a program clears bits and an erase sets those of a
whole block. The page lives in one of two files, inverted, and a bitmap says in which; none of this
shows. `held` reads the array off the store, and each operation acts on it as on the array.
-/

namespace QemuIos.Iop
open Block List Mem Nat

namespace Part

variable {p : Part} {g : Geometry}

/-- A page that is on the part. -/
def Holds (p : Part) (bus : Int) (ce page : Nat) : Prop :=
  (0 ≤ bus ∧ bus < nandBuses) ∧ ce < nandCes ∧ p.nandCeMask.testBit ce = true ∧ page < p.pagesPerCe

instance (p : Part) (bus : Int) (ce page : Nat) : Decidable (p.Holds bus ce page) :=
  inferInstanceAs (Decidable (_ ∧ _))

section

variable (store : p.store = some g)
include store

theorem nandDir_of_store : p.nandDir = true := by simp [nandDir, store]

theorem storePpb_pos : 0 < p.storePpb := by
  rw [storePpb, store]
  exact g.block_pos

theorem pageStride_pos : 0 < p.pageStride := by
  have pos := g.page_pos
  simp only [pageStride, store, Option.elim_some]
  omega

/-- The metadata has room in the spare. -/
theorem meta_fits : p.storePageBytes + fmiMetaBytes ≤ p.pageStride := by
  have fits := g.meta_fits
  simp only [storePageBytes, pageStride, store, Option.elim_some]
  omega
end

end Part

namespace Nand

variable {n : Nand} {g : Geometry}

variable {bus bus' : Int} {ce page len block first count i ce' : Nat} {die : Nat × Nat} {data : Mem}

theorem nandAddrBad_iff (store : n.part.store = some g) :
    n.nandAddrBad bus ce page = true ↔ ¬ n.part.Holds bus ce page := by
  simp only [nandAddrBad, Part.Holds, Part.nandDir_of_store store, Bool.true_and, Bool.or_eq_true,
    decide_eq_true_eq, Bool.not_eq_true']
  grind

theorem nandAddrBad_of_holds (store : n.part.store = some g) (on : n.part.Holds bus ce page) :
    n.nandAddrBad bus ce page = false := by
  rw [← Bool.not_eq_true, nandAddrBad_iff store, not_not]
  exact on

/-! ## Storing pages

A program reads the page and then stores it; an erase stores the pages of a block. -/

/-- The file that pages are written to. -/
def pagesFile (n : Nand) (die : Nat × Nat) : File :=
  if n.part.overlayDir then .ovl die else .chip die

/-- The file that a page is read from. -/
def homeFile (n : Nand) (die : Nat × Nat) (page : Nat) : File :=
  if n.nandDirty die page then .ovl die else .chip die

/-- A page has been asked for. -/
def peek (n : Nand) (die : Nat × Nat) (page : Nat) : Nand :=
  { n with disk := n.disk.log (.read (n.homeFile die page) (page * n.part.pageStride)
      n.part.pageStride) }

/-- Pages are stored, from `first` on; the overlay, if there is one, takes them. -/
def storePages (n : Nand) (die : Nat × Nat) (first count : Nat) (data : Mem) : Nand × Status :=
  let written := n.disk.pwrite (n.pagesFile die) (first * n.part.pageStride)
    (count * n.part.pageStride) data
  let done := nandIoError { n with disk := written.1 } written.2
  if done.2 = .ok ∧ n.part.overlayDir = true then
    ((List.range count).foldl (fun n i => n.nandSetDirty die (first + i)) done.1, done.2)
  else done

theorem nandBackend_write (store : n.part.store = some g) :
    n.nandBackend die page true = some (n.pagesFile die) := by
  simp [nandBackend, Part.nandDir_of_store store, pagesFile]

theorem nandBackend_read (store : n.part.store = some g) :
    n.nandBackend die page false = some (n.homeFile die page) := by
  simp [nandBackend, Part.nandDir_of_store store, homeFile, nandDirty]

/-- A program that is not refused: the page is read, and stored if it could be read. -/
theorem nandProgramPage_eq (store : n.part.store = some g) (data : Mem) (mark : Option Mem)
    (on : n.part.Holds bus ce page) (fits : n.part.nandXorFf = true → len ≤ n.part.pageStride) :
    n.nandProgramPage bus ce page data len mark =
      if n.disk.next = .ok then
        (n.peek (bus.toNat, ce) page).storePages (bus.toNat, ce) page 1
          (n.programmed (slice (n.disk.bytes (n.homeFile (bus.toNat, ce) page))
            (page * n.part.pageStride)) data len mark)
      else ({ n.peek (bus.toNat, ce) page with storageFailed := true }, .uecc) := by
  have short : (n.part.nandXorFf && decide (len > n.part.pageStride)) = false := by
    rw [Bool.and_eq_false_imp]
    intro xor
    simp [fits xor]
  rw [nandProgramPage, nandAddrBad_of_holds store on, short, nandBackend_write store,
    nandBackend_read store]
  by_cases read : n.disk.next = .ok
  · have fine : (n.disk.next == .ok) = true := beq_iff_eq.mpr read
    simp only [Layer.pread, fine, nandIoError, if_pos read, storePages, peek, one_mul,
      range_one, foldl_cons, foldl_nil, add_zero]
    rfl
  · have fails : (n.disk.next == .ok) = false := beq_eq_false_iff_ne.mpr read
    simp only [Layer.pread, fails, nandIoError, if_neg read]
    rfl

/-- The block is on the part. -/
def HoldsBlock (p : Part) (bus : Int) (ce block : Nat) : Prop :=
  (block + 1) * p.storePpb ≤ p.pagesPerCe ∧ p.Holds bus ce (block * p.storePpb)

theorem nandEraseBlock_eq (store : n.part.store = some g) (on : HoldsBlock n.part bus ce block) :
    n.nandEraseBlock bus ce block =
      n.storePages (bus.toNat, ce) (block * n.part.storePpb) n.part.storePpb fun _ => 0 := by
  obtain ⟨inside, held⟩ := on
  have small : n.part.pagesPerCe < 2 ^ 32 := by
    rw [Part.pagesPerCe, store]
    exact g.pages_max
  have ahead : ¬ (block * n.part.storePpb > 2 ^ 32 - 1 ∨ (n.part.nandDir = true ∧
      block * n.part.storePpb + n.part.storePpb > n.part.pagesPerCe)) := by
    rw [add_mul, one_mul] at inside
    omega
  rw [nandEraseBlock, if_neg ahead, nandAddrBad_of_holds store held, nandBackend_write store]
  rfl

/-! ## What storing pages does -/

/-- The overlay takes pages. -/
def own (n : Nand) (die : Nat × Nat) (first count : Nat) : Nand :=
  (List.range count).foldl (fun n i => n.nandSetDirty die (first + i)) n

theorem own_succ :
    n.own die first (count + 1) = (n.own die first count).nandSetDirty die (first + count) := by
  rw [own, range_succ, foldl_concat]
  rfl

/-- Nothing changes but the bitmaps. -/
theorem own_frame :
    (n.own die first count).part = n.part ∧ (n.own die first count).disk = n.disk ∧
      (n.own die first count).storageFailed = n.storageFailed := by
  induction count with
  | zero => exact ⟨rfl, rfl, rfl⟩
  | succ count ih =>
    rw [own_succ]
    exact ih

theorem bit_nandSetDirty (die die' : Nat × Nat) (page k : Nat) :
    bit ((n.nandSetDirty die page).dirty die') k =
      (bit (n.dirty die') k || (decide (die' = die) && decide (k = page))) := by
  unfold nandSetDirty
  by_cases same : die' = die
  · subst same
    simp [bit_setBit]
  · simp [same]

theorem pending_nandSetDirty (die die' : Nat × Nat) :
    (n.nandSetDirty die page).ownershipPending die' =
      (n.ownershipPending die' || (decide (die' = die) && !bit (n.dirty die) page)) := by
  unfold nandSetDirty
  by_cases same : die' = die
  · subst same
    simp
  · simp [same]

theorem bit_own (die die' : Nat × Nat) (first count k : Nat) :
    bit ((n.own die first count).dirty die') k =
      (bit (n.dirty die') k ||
        (decide (die' = die) && decide (first ≤ k ∧ k < first + count))) := by
  induction count with
  | zero => simp [own]
  | succ count ih =>
    rw [own_succ, bit_nandSetDirty, ih, Bool.or_assoc, ← Bool.and_or_distrib_left]
    congr 2
    rw [← Bool.decide_or, decide_eq_decide]
    omega

/-- A bitmap that is not left to be published has no new bits. -/
theorem settled_own {die' : Nat × Nat}
    (settled : (n.own die first count).ownershipPending die' = false) :
    n.ownershipPending die' = false ∧
      ∀ k, bit ((n.own die first count).dirty die') k = bit (n.dirty die') k := by
  induction count with
  | zero => exact ⟨settled, fun _ => rfl⟩
  | succ count ih =>
    rw [own_succ, pending_nandSetDirty, Bool.or_eq_false_iff] at settled
    obtain ⟨before, bits⟩ := ih settled.1
    refine ⟨before, fun k => ?_⟩
    rw [own_succ, bit_nandSetDirty, ← bits k]
    -- a bit that would be new is a bit that is set already
    by_cases this : die' = die ∧ k = first + count
    · obtain ⟨rfl, rfl⟩ := this
      simpa using settled.2
    · rw [← Bool.decide_and, decide_eq_false this, Bool.or_false]

/-- A request, however it ended. -/
structure Requested (n : Nand) (r : Request File) (n' : Nand) : Prop where
  part : n'.part = n.part
  fate : n'.disk.fate = n.disk.fate
  journal : n'.disk.journal = n.disk.journal ++ [(r, n.disk.next)]
  bytes : n'.disk.bytes = if n.disk.next.landed then Block.apply n.disk.bytes (r, n.disk.next)
    else n.disk.bytes

/-- The request that stores pages. -/
def storeRequest (n : Nand) (die : Nat × Nat) (first count : Nat) (data : Mem) : Request File :=
  .write (n.pagesFile die) (first * n.part.pageStride) (count * n.part.pageStride) data

/-- Pages have been stored. -/
structure Stored (n : Nand) (die : Nat × Nat) (first count : Nat) (data : Mem) (n' : Nand) :
    Prop extends Requested n (n.storeRequest die first count data) n' where
  fine : n.disk.next = .ok
  failed : n'.storageFailed = n.storageFailed
  bits : ∀ die' k, Mem.bit (n'.dirty die') k = (Mem.bit (n.dirty die') k ||
    (n.part.overlayDir && (decide (die' = die) && decide (first ≤ k ∧ k < first + count))))
  settled : ∀ die', n'.ownershipPending die' = false → n.ownershipPending die' = false ∧
    ∀ k, Mem.bit (n'.dirty die') k = Mem.bit (n.dirty die') k

/-- Storing pages has failed: the request may have reached the file, and the device knows. -/
structure Spoilt (n : Nand) (die : Nat × Nat) (first count : Nat) (data : Mem) (n' : Nand) :
    Prop extends Requested n (n.storeRequest die first count data) n' where
  fails : n.disk.next ≠ .ok
  failed : n'.storageFailed = true
  dirty : n'.dirty = n.dirty
  pending : n'.ownershipPending = n.ownershipPending

theorem storePages_cases (n : Nand) (die : Nat × Nat) (first count : Nat) (data : Mem) :
    Stored n die first count data (n.storePages die first count data).1 ∨
      Spoilt n die first count data (n.storePages die first count data).1 := by
  by_cases fine : n.disk.next = .ok
  · left
    have good : (n.disk.next == .ok) = true := beq_iff_eq.mpr fine
    have landed : n.disk.next.landed = true := by rw [fine]; rfl
    by_cases overlay : n.part.overlayDir = true
    · simp only [storePages, Layer.pwrite, good, landed, if_true, nandIoError, overlay, and_self]
      rw [← own]
      generalize before : ({ n with disk := _ } : Nand) = m
      obtain ⟨part, disk, failed⟩ := own_frame
      subst before
      refine ⟨⟨part, by rw [disk]; rfl, by rw [disk]; rfl, ?_⟩, fine, failed, ?_, ?_⟩
      · rw [disk, if_pos landed]
        rfl
      · intro die' k
        rw [bit_own, overlay, Bool.true_and]
      · intro die' settled
        exact settled_own settled
    · simp only [storePages, Layer.pwrite, good, landed, if_true, nandIoError, overlay, and_false,
        Bool.false_eq_true, if_false]
      refine ⟨⟨rfl, rfl, rfl, (if_pos landed).symm⟩, fine, rfl, ?_, ?_⟩
      · intro die' k
        simp [overlay]
      · intro die' settled
        exact ⟨settled, fun _ => rfl⟩
  · right
    have bad : (n.disk.next == .ok) = false := beq_eq_false_iff_ne.mpr fine
    simp only [storePages, Layer.pwrite, bad, nandIoError, Bool.false_eq_true, if_false]
    exact ⟨⟨rfl, rfl, rfl, rfl⟩, fine, rfl, rfl, rfl⟩

theorem stored_of_fine (fine : n.disk.next = .ok) (die : Nat × Nat) (first count : Nat)
    (data : Mem) : Stored n die first count data (n.storePages die first count data).1 := by
  obtain stored | spoilt := n.storePages_cases die first count data
  · exact stored
  · exact absurd fine spoilt.fails

/-! ## The array -/

/-- What a byte of a page reads as. -/
def held (n : Nand) (die : Nat × Nat) (page i : Nat) : UInt8 :=
  n.disk.bytes (n.homeFile die page) (page * n.part.pageStride + i) ^^^ 0xff

theorem held_stored {n' : Nand} (stored : Stored n die first count data n') (die' : Nat × Nat)
    (page : Nat) (inside : i < n.part.pageStride) :
    n'.held die' page i =
      if die' = die ∧ first ≤ page ∧ page < first + count
      then data ((page - first) * n.part.pageStride + i) ^^^ 0xff else n.held die' page i := by
  have dirty : n'.nandDirty die' page = (n.nandDirty die' page ||
      (n.part.overlayDir &&
        (decide (die' = die) && decide (first ≤ page ∧ page < first + count)))) := by
    rw [nandDirty, stored.part, stored.bits, nandDirty]
    cases n.part.overlayDir <;> simp
  unfold held
  rw [stored.part, stored.bytes, stored.fine, Outcome.landed, if_pos rfl, storeRequest, Block.apply]
  by_cases covered : die' = die ∧ first ≤ page ∧ page < first + count
  · -- the page is where pages are written to
    obtain ⟨rfl, low, high⟩ := covered
    have home : n'.homeFile die' page = n.pagesFile die' := by
      rw [homeFile, dirty, pagesFile, nandDirty]
      cases n.part.overlayDir <;> simp [low, high]
    rw [home, Function.update_self, blit_records _ _ inside, if_pos ⟨low, high⟩,
      if_pos ⟨rfl, low, high⟩]
  · have home : n'.homeFile die' page = n.homeFile die' page := by
      rw [homeFile, dirty, ← Bool.decide_and, decide_eq_false covered, Bool.and_false,
        Bool.or_false, ← homeFile]
    rw [home, if_neg covered]
    by_cases file : n.homeFile die' page = n.pagesFile die
    · -- another page of the same file
      have chip : die' = die := by
        revert file
        unfold homeFile pagesFile
        split <;> split <;> simp
      rw [file, Function.update_self, blit_records _ _ inside,
        if_neg fun range => covered ⟨chip, range⟩]
    · rw [Function.update_of_ne file]

/-! ## Bytes, inverted -/

/-- Inverted bytes that are put on top of each other read as the AND of the bytes. -/
theorem or_inverted (x d : UInt8) : (x ||| (d ^^^ 0xff)) ^^^ 0xff = (x ^^^ 0xff) &&& d := by
  have ones : (0xff : UInt8) = -1 := rfl
  rw [ones, UInt8.xor_neg_one, UInt8.xor_neg_one, UInt8.xor_neg_one]
  apply UInt8.eq_of_toBitVec_eq
  simp [BitVec.not_or]

theorem orInverted_eq (p src : Mem) (a len i : Nat) :
    orInverted p a len src i ^^^ 0xff =
      (p i ^^^ 0xff) &&& if a ≤ i ∧ i < a + len then src (i - a) else 0xff := by
  unfold orInverted
  split
  · exact or_inverted _ _
  · exact UInt8.and_neg_one.symm

/-- The bits that programming a page leaves alone: those that are ones in the data and, at the start
of the spare, in the metadata. -/
def mask (p : Part) (data : Mem) (len : Nat) (mark : Option Mem) (i : Nat) : UInt8 :=
  (if i < len then data i else 0xff) &&&
    mark.elim 0xff fun mark =>
      if p.storePageBytes ≤ i ∧ i < p.storePageBytes + fmiMetaBytes
      then mark (i - p.storePageBytes) else 0xff

theorem programmed_eq (xor : n.part.nandXorFf = true) (p data : Mem) (mark : Option Mem) :
    n.programmed p data len mark i ^^^ 0xff = (p i ^^^ 0xff) &&& mask n.part data len mark i := by
  have first : orInverted p 0 len data i ^^^ 0xff =
      (p i ^^^ 0xff) &&& if i < len then data i else 0xff := by
    rw [orInverted_eq]
    simp
  rw [programmed, if_pos xor, mask]
  cases mark with
  | none =>
    rw [Option.elim_none, Option.elim_none, first]
    exact congrArg _ UInt8.and_neg_one.symm
  | some mark => rw [Option.elim_some, Option.elim_some, orInverted_eq, first, UInt8.and_assoc]

/-! ## Runs -/

/-- A call of the store. -/
inductive Op where
  | program (bus : Int) (ce page : Nat) (data : Mem) (len : Nat) (mark : Option Mem)
  | erase (bus : Int) (ce block : Nat)
  | read (bus : Int) (ce page : Nat)

def apply (n : Nand) : Op → Nand
  | .program bus ce page data len mark => (n.nandProgramPage bus ce page data len mark).1
  | .erase bus ce block => (n.nandEraseBlock bus ce block).1
  | .read bus ce page => (n.nandReadPage bus ce page (fun _ => 0) fun _ => 0).1

def run (n : Nand) (ops : List Op) : Nand := ops.foldl apply n

/-- What a call is to the array, if it is accepted; an erase off the part reaches no page of it. -/
def Op.flash (p : Part) : Op → List (Flash.Op (Int × Nat × Nat))
  | .program bus ce page data len mark =>
    if p.Holds bus ce page ∧ len ≤ p.pageStride
    then [.program (bus, ce, page) (mask p data len mark)] else []
  | .erase bus ce block => [.erase fun a => a.1 = bus ∧ a.2.1 = ce ∧ a.2.2 / p.storePpb = block]
  | .read .. => []

/-! ## One call -/

section

variable (store : n.part.store = some g)
include store

theorem nandProgramPage_refused (data : Mem) (mark : Option Mem)
    (refused : ¬ (n.part.Holds bus ce page ∧ (n.part.nandXorFf = true → len ≤ n.part.pageStride))) :
    n.nandProgramPage bus ce page data len mark = (n, .param) := by
  have stops : (n.nandAddrBad bus ce page ||
      (n.part.nandXorFf && decide (len > n.part.pageStride))) = true := by
    rw [Bool.or_eq_true, nandAddrBad_iff store, Bool.and_eq_true, decide_eq_true_eq]
    by_cases on : n.part.Holds bus ce page
    · right
      by_contra fits
      exact refused ⟨on, fun xor => Nat.le_of_not_lt fun long => fits ⟨xor, long⟩⟩
    · exact .inl on
  rw [nandProgramPage, if_pos stops]

theorem nandEraseBlock_refused (refused : ¬ HoldsBlock n.part bus ce block) :
    n.nandEraseBlock bus ce block = (n, .param) := by
  rw [nandEraseBlock]
  dsimp only
  split
  · rfl
  · next inside =>
    have off : n.nandAddrBad bus ce (block * n.part.storePpb) = true := by
      rw [nandAddrBad_iff store]
      intro on
      apply refused
      refine ⟨?_, on⟩
      simp only [Part.nandDir_of_store store, true_and] at inside
      rw [add_mul, one_mul]
      omega
    rw [if_pos off]

theorem holdsBlock_iff :
    HoldsBlock n.part bus ce (page / n.part.storePpb) ↔ n.part.Holds bus ce page := by
  have pages : n.part.pagesPerCe = g.blocksPerCe * g.pagesPerBlock := by
    simp [Part.pagesPerCe, store]
  have block : n.part.storePpb = g.pagesPerBlock := by simp [Part.storePpb, store]
  have whole : (page / g.pagesPerBlock + 1) * g.pagesPerBlock ≤ g.blocksPerCe * g.pagesPerBlock ↔
      page < g.blocksPerCe * g.pagesPerBlock := by
    rw [Nat.mul_le_mul_right_iff g.block_pos, Nat.succ_le_iff, Nat.div_lt_iff_lt_mul g.block_pos]
  rw [HoldsBlock, Part.Holds, Part.Holds, pages, block, whole]
  constructor
  · rintro ⟨inside, bus, ce, there, -⟩
    exact ⟨bus, ce, there, inside⟩
  · rintro ⟨bus, ce, there, inside⟩
    exact ⟨inside, bus, ce, there, (div_mul_le_self _ _).trans_lt inside⟩

omit store in
theorem chip_eq_iff (low : 0 ≤ bus) (low' : 0 ≤ bus') :
    (bus.toNat, ce) = (bus'.toNat, ce') ↔ bus = bus' ∧ ce = ce' := by
  rw [Prod.mk.injEq]
  omega

/-- A program, with every request succeeding: the page is the AND of what it was with what has been
programmed, if the program is accepted, and no other page changes. -/
theorem held_program (xor : n.part.nandXorFf = true) (fine : ∀ k, n.disk.fate k = .ok) {page' : Nat}
    {mark : Option Mem} (on : n.part.Holds bus ce page) (inside : i < n.part.pageStride) :
    (n.nandProgramPage bus' ce' page' data len mark).1.held (bus.toNat, ce) page i =
      if (bus' = bus ∧ ce' = ce ∧ page' = page) ∧ n.part.Holds bus ce page ∧ len ≤ n.part.pageStride
      then n.held (bus.toNat, ce) page i &&& mask n.part data len mark i
      else n.held (bus.toNat, ce) page i := by
  by_cases accepted : n.part.Holds bus' ce' page' ∧ len ≤ n.part.pageStride
  · obtain ⟨on', fits⟩ := accepted
    have next : n.disk.next = .ok := fine _
    have stored := stored_of_fine (n := n.peek (bus'.toNat, ce') page') (fine _)
    rw [nandProgramPage_eq store data mark on' fun _ => fits, if_pos next,
      held_stored (stored ..) (bus.toNat, ce) page inside]
    by_cases this : bus' = bus ∧ ce' = ce ∧ page' = page
    · obtain ⟨rfl, rfl, rfl⟩ := this
      rw [if_pos ⟨rfl, by omega⟩, if_pos ⟨⟨rfl, rfl, rfl⟩, on, fits⟩, Nat.sub_self, Nat.zero_mul,
        Nat.zero_add, programmed_eq xor]
      rfl
    · rw [if_neg, if_neg fun held => this held.1]
      · rfl
      · rintro ⟨chip, low, high⟩
        obtain ⟨rfl, rfl⟩ := (chip_eq_iff on.1.1 on'.1.1).mp chip
        exact this ⟨rfl, rfl, by omega⟩
  · rw [nandProgramPage_refused store data mark fun held => accepted ⟨held.1, held.2 xor⟩, if_neg]
    rintro ⟨⟨rfl, rfl, rfl⟩, held⟩
    exact accepted held

/-- An erase, with every request succeeding: the pages of the block are all ones, if the erase is
accepted, and no other page changes. -/
theorem held_erase (fine : ∀ k, n.disk.fate k = .ok) (on : n.part.Holds bus ce page)
    (inside : i < n.part.pageStride) :
    (n.nandEraseBlock bus' ce' block).1.held (bus.toNat, ce) page i =
      if (bus' = bus ∧ ce' = ce ∧ block = page / n.part.storePpb) ∧ n.part.Holds bus ce page
      then 0xff else n.held (bus.toNat, ce) page i := by
  have pos := Part.storePpb_pos store
  by_cases accepted : HoldsBlock n.part bus' ce' block
  · rw [nandEraseBlock_eq store accepted,
      held_stored (stored_of_fine (fine _) ..) (bus.toNat, ce) page inside]
    -- the pages of the block are those whose quotient is the block
    have within : (block * n.part.storePpb ≤ page ∧
        page < block * n.part.storePpb + n.part.storePpb) ↔ block = page / n.part.storePpb := by
      rw [← le_div_iff_mul_le pos, ← succ_mul, ← div_lt_iff_lt_mul pos]
      omega
    have same : ((bus.toNat, ce) = (bus'.toNat, ce') ∧ block * n.part.storePpb ≤ page ∧
          page < block * n.part.storePpb + n.part.storePpb) ↔
        (bus' = bus ∧ ce' = ce ∧ block = page / n.part.storePpb) ∧ n.part.Holds bus ce page := by
      rw [within, chip_eq_iff on.1.1 accepted.2.1.1, eq_comm (a := bus), eq_comm (a := ce)]
      simp only [and_assoc, on, and_true]
    by_cases this : (bus' = bus ∧ ce' = ce ∧ block = page / n.part.storePpb) ∧
        n.part.Holds bus ce page
    · rw [if_pos this, if_pos (same.mpr this)]
      rfl
    · rw [if_neg this, if_neg fun covered => this (same.mp covered)]
  · rw [nandEraseBlock_refused store accepted, if_neg]
    rintro ⟨⟨rfl, rfl, rfl⟩, held⟩
    exact accepted ((holdsBlock_iff store).mpr held)

/-- A read changes nothing that a later read sees, or latches that it has failed. -/
theorem nandReadPage_fst (bus : Int) (ce page : Nat) (data mark : Mem) :
    (n.nandReadPage bus ce page data mark).1 =
      if n.part.Holds bus ce page then
        if n.disk.next = .ok then n.peek (bus.toNat, ce) page
        else { n.peek (bus.toNat, ce) page with storageFailed := true }
      else n := by
  rw [nandReadPage]
  by_cases on : n.part.Holds bus ce page
  · rw [nandAddrBad_of_holds store on, nandBackend_read store, if_pos on]
    by_cases fine : n.disk.next = .ok
    · have good : (n.disk.next == .ok) = true := beq_iff_eq.mpr fine
      simp only [Layer.pread, good, nandIoError, if_pos fine]
      rfl
    · have bad : (n.disk.next == .ok) = false := beq_eq_false_iff_ne.mpr fine
      simp only [Layer.pread, bad, nandIoError, if_neg fine]
      rfl
  · rw [(nandAddrBad_iff store).mpr on, if_neg on]
    rfl

/-- What a read returns: the page as the array has it, the metadata at the start of its spare, and
whether it is blank. -/
theorem nandReadPage_snd (xor : n.part.nandXorFf = true) (fine : n.disk.next = .ok)
    (data mark : Mem) (on : n.part.Holds bus ce page) :
    (n.nandReadPage bus ce page data mark).2.1 =
        (if ∀ i < n.part.pageStride, n.held (bus.toNat, ce) page i = 0xff then .blank else .ok) ∧
      (∀ i < n.part.pageStride,
        (n.nandReadPage bus ce page data mark).2.2.1 i = n.held (bus.toNat, ce) page i) ∧
      (∀ i < fmiMetaBytes, (n.nandReadPage bus ce page data mark).2.2.2 i =
        n.held (bus.toNat, ce) page (n.part.storePageBytes + i)) := by
  have good : (n.disk.next == .ok) = true := beq_iff_eq.mpr fine
  have spare := Part.meta_fits store
  rw [nandReadPage, nandAddrBad_of_holds store on, nandBackend_read store]
  simp only [Layer.pread, good, nandIoError, decodePage, xor, Bool.not_true, Bool.false_and,
    Bool.false_eq_true, if_true, if_false, ne_eq, not_true_eq_false]
  generalize blit data 0 _ _ = data
  generalize blit mark 0 _ _ = mark
  have read : ∀ i < n.part.pageStride, blit data 0 n.part.pageStride (fun i =>
      slice (n.disk.bytes (n.homeFile (bus.toNat, ce) page)) (page * n.part.pageStride) i ^^^ 0xff)
        i = n.held (bus.toNat, ce) page i := by
    intro i inside
    rw [blit_of_inside _ _ _ _ (zero_le i) (by omega)]
    rfl
  refine ⟨?_, read, ?_⟩
  · congr 1
    rw [allOnes, all_eq_true, eq_iff_iff]
    simp only [mem_range, beq_iff_eq]
    exact forall₂_congr fun i inside => by rw [read i inside]
  · intro i inside
    rw [blit_of_inside _ _ _ _ (Nat.zero_le i) (by omega), Nat.sub_zero, slice,
      read _ (by omega)]
end

/-! ## Every run -/

/-- What a call leaves alone: the part, how requests end and, under an overlay, the files of the
store. -/
structure Spares (n n' : Nand) : Prop where
  part : n'.part = n.part
  fate : n'.disk.fate = n.disk.fate
  base : n.part.overlayDir = true → ∀ die, n'.disk.bytes (.chip die) = n.disk.bytes (.chip die)
  spared : n.part.overlayDir = true → Grown (fun r => ∀ die off len data,
    r ≠ .write (.chip die) off len data) n.disk.journal n'.disk.journal

theorem Spares.refl (n : Nand) : Spares n n := ⟨rfl, rfl, fun _ _ => rfl, fun _ => .refl _⟩

theorem Spares.trans {n₁ n₂ n₃ : Nand} (first : Spares n₁ n₂) (second : Spares n₂ n₃) :
    Spares n₁ n₃ := by
  refine ⟨second.part.trans first.part, second.fate.trans first.fate, ?_, ?_⟩
  · intro overlay die
    rw [second.base (first.part ▸ overlay) die, first.base overlay die]
  · exact fun overlay => (first.spared overlay).trans (second.spared (first.part ▸ overlay))

theorem Requested.spares {r : Request File} {n' : Nand} (requested : Requested n r n')
    (other : n.part.overlayDir = true → ∀ die off len data, r ≠ .write (.chip die) off len data) :
    Spares n n' := by
  refine ⟨requested.part, requested.fate, fun overlay die => ?_,
    fun overlay => .snoc requested.journal (other overlay)⟩
  rw [requested.bytes]
  split
  · exact apply_of_other (other overlay die) _ _
  · rfl

theorem spares_peek : Spares n (n.peek die page) :=
  Requested.spares ⟨rfl, rfl, rfl, (ite_self _).symm⟩ fun _ => nofun

theorem spares_stored {n' : Nand} (stored : Stored n die first count data n') : Spares n n' := by
  refine stored.toRequested.spares fun overlay => ?_
  rw [storeRequest, pagesFile, if_pos overlay]
  nofun

section Fine

variable (store : n.part.store = some g) (xor : n.part.nandXorFf = true)
  (fine : ∀ k, n.disk.fate k = .ok)
include store xor fine

theorem spares_apply (op : Op) : Spares n (n.apply op) := by
  have next : n.disk.next = .ok := fine _
  cases op with
  | program bus ce page data len mark =>
    by_cases accepted : n.part.Holds bus ce page ∧ len ≤ n.part.pageStride
    · rw [apply, nandProgramPage_eq store data mark accepted.1 fun _ => accepted.2, if_pos next]
      apply spares_peek.trans
      exact spares_stored (stored_of_fine (n := n.peek (bus.toNat, ce) page) (fine _) ..)
    · rw [apply, nandProgramPage_refused store data mark
        fun held => accepted ⟨held.1, held.2 xor⟩]
      exact .refl n
  | erase bus ce block =>
    by_cases accepted : HoldsBlock n.part bus ce block
    · rw [apply, nandEraseBlock_eq store accepted]
      exact spares_stored (stored_of_fine next ..)
    · rw [apply, nandEraseBlock_refused store accepted]
      exact .refl n
  | read bus ce page =>
    rw [apply, nandReadPage_fst store, if_pos next]
    split
    · exact spares_peek
    · exact .refl n

/-- One call acts on the pages as it does on the array. -/
theorem held_apply (op : Op) (on : n.part.Holds bus ce page) (inside : i < n.part.pageStride)
    {past : Flash.Past} {first : Nat → UInt8}
    (held : n.held (bus.toNat, ce) page i = past.byte first i) :
    (n.apply op).held (bus.toNat, ce) page i =
      ((op.flash n.part).foldl (Flash.Past.after (bus, ce, page)) past).byte first i := by
  cases op with
  | program bus' ce' page' data len mark =>
    rw [apply, held_program store xor fine on inside, Op.flash]
    by_cases this : bus' = bus ∧ ce' = ce ∧ page' = page
    · obtain ⟨rfl, rfl, rfl⟩ := this
      simp only [true_and, and_self]
      split
      · rw [foldl_cons, foldl_nil, Flash.Past.after, if_pos rfl, held, Flash.Past.byte,
          Flash.Past.byte, foldl_concat]
      · exact held
    · rw [if_neg fun both => this both.1]
      split
      · rw [foldl_cons, foldl_nil, Flash.Past.after, if_neg, held]
        rintro same
        obtain ⟨rfl, rfl, rfl⟩ : bus = bus' ∧ ce = ce' ∧ page = page' := by simpa using same
        exact this ⟨rfl, rfl, rfl⟩
      · exact held
  | erase bus' ce' block =>
    rw [apply, held_erase store fine on inside, Op.flash, foldl_cons, foldl_nil, Flash.Past.after]
    simp only [on, and_true, eq_comm (a := bus'), eq_comm (a := ce'), eq_comm (a := block),
      decide_eq_true_eq]
    split
    · rfl
    · exact held
  | read bus' ce' page' =>
    have next : n.disk.next = .ok := fine _
    rw [apply, nandReadPage_fst store, if_pos next]
    split
    · exact held
    · exact held

/-- The store keeps to an array of pages: what was done since `n₀` shows in the pages as it does in
the array. -/
structure Follows (n₀ : Nand) (ops : List Op) (n : Nand) : Prop where
  spares : Spares n₀ n
  pages : ∀ bus ce page i, n₀.part.Holds bus ce page → i < n₀.part.pageStride →
    n.held (bus.toNat, ce) page i =
      (Flash.past (ops.flatMap (Op.flash n₀.part)) (bus, ce, page)).byte
        (n₀.held (bus.toNat, ce) page) i

theorem follows_run (ops : List Op) : Follows n ops (n.run ops) := by
  induction ops using reverseRecOn with
  | nil => exact ⟨.refl n, fun _ _ _ _ _ _ => rfl⟩
  | append_singleton ops op ih =>
    obtain ⟨spares, pages⟩ := ih
    have store' : (n.run ops).part.store = some g := by rw [spares.part, store]
    have xor' : (n.run ops).part.nandXorFf = true := by rw [spares.part, xor]
    have fine' : ∀ k, (n.run ops).disk.fate k = .ok := by rw [spares.fate]; exact fine
    rw [run, foldl_concat]
    refine ⟨spares.trans (spares_apply store' xor' fine' op), ?_⟩
    intro bus ce page i on inside
    rw [Flash.past, flatMap_append, flatMap_singleton, foldl_append, ← spares.part]
    refine held_apply store' xor' fine' op (spares.part ▸ on) (spares.part ▸ inside) ?_
    rw [spares.part]
    exact pages bus ce page i on inside

end Fine

/-- The store refines an array of flash pages. After every run of programs, erases and reads whose
requests all succeed, a read of a page of the part returns what the array has there, with the
metadata at the start of the spare, and says blank exactly if all of it is ones; a read off the part
is refused; and with an overlay the files of the store are never written. -/
theorem store_refines_pages (n : Nand) (g : Geometry) (store : n.part.store = some g)
    (xor : n.part.nandXorFf = true) (fine : ∀ k, n.disk.fate k = .ok) (ops : List Op) :
    (∀ (bus : Int) (ce page : Nat) (data mark : Mem),
      let now := (Flash.past (ops.flatMap (Op.flash n.part)) (bus, ce, page)).byte
        (n.held (bus.toNat, ce) page)
      let got := (n.run ops).nandReadPage bus ce page data mark
      if n.part.Holds bus ce page then
        (∀ i < n.part.pageStride, got.2.2.1 i = now i) ∧
        (∀ i < fmiMetaBytes, got.2.2.2 i = now (n.part.storePageBytes + i)) ∧
        got.2.1 = (if ∀ i < n.part.pageStride, now i = 0xff then .blank else .ok)
      else got.2.1 = .param) ∧
    (n.part.overlayDir = true →
      (∀ die, (n.run ops).disk.bytes (.chip die) = n.disk.bytes (.chip die)) ∧
      ∃ new, (n.run ops).disk.journal = n.disk.journal ++ new ∧
        ∀ e ∈ new, ∀ die off len data, e.1 ≠ .write (.chip die) off len data) := by
  obtain ⟨spares, pages⟩ := follows_run store xor fine ops
  generalize n.run ops = n' at spares pages
  have store' : n'.part.store = some g := by rw [spares.part, store]
  have xor' : n'.part.nandXorFf = true := by rw [spares.part, xor]
  have next : n'.disk.next = .ok := by rw [Layer.next, spares.fate]; exact fine _
  refine ⟨?_, fun overlay => ⟨spares.base overlay, spares.spared overlay⟩⟩
  intro bus ce page data mark now got
  split
  · next on =>
    obtain ⟨status, bytes, spareRead⟩ :=
      nandReadPage_snd store' xor' next data mark (spares.part ▸ on : n'.part.Holds bus ce page)
    rw [spares.part] at status bytes spareRead
    have spare := Part.meta_fits store
    refine ⟨?_, ?_, ?_⟩
    · intro i inside
      rw [bytes i inside, pages bus ce page i on inside]
    · intro i inside
      rw [spareRead i inside, pages bus ce page _ on (by omega)]
    · rw [status]
      congr 1
      rw [eq_iff_iff]
      exact forall₂_congr fun i inside => by rw [pages bus ce page i on inside]
  · next off =>
    have bad : n'.nandAddrBad bus ce page = true := (nandAddrBad_iff store').mpr (spares.part ▸ off)
    show (n'.nandReadPage bus ce page data mark).2.1 = .param
    rw [nandReadPage, bad]
    rfl

/-- Two blocks of two pages on one chip, under an overlay that owns nothing yet. -/
def smallStore : Nand where
  part :=
    { nandId := 0
      nandCeMask := 1
      store := some ⟨2, 10, 2, 2, by decide, by decide, by decide, by decide, by decide, by decide⟩
      overlayDir := true
      nandXorFf := true
      overlay_store := fun _ => rfl }
  disk := ⟨fun _ _ => 0, fun _ => .ok, []⟩
  dirty := fun _ _ => 0
  ownershipPending := fun _ => false
  storageFailed := false
  bytesPerPage := fun _ => 2
  bytesPerSpare := fun _ => 10
  pagesPerBlock := fun _ => 2

theorem small_store_programs_twice :
    ((smallStore.run [.program 0 0 1 (fun _ => 0x0f) 1 none, .program 0 0 1 (fun _ => 0x3c) 1 none,
      .erase 0 0 1]).nandReadPage 0 0 1 (fun _ => 0) fun _ => 0).2.2.1 0 = 0x0c := by
  have read := (store_refines_pages smallStore _ rfl rfl (fun _ => rfl)
    [.program 0 0 1 (fun _ => 0x0f) 1 none, .program 0 0 1 (fun _ => 0x3c) 1 none,
      .erase 0 0 1]).1 0 0 1 (fun _ => 0) fun _ => 0
  rw [if_pos (by decide)] at read
  exact (read.1 0 (by decide)).trans (by decide)

end Nand

end QemuIos.Iop

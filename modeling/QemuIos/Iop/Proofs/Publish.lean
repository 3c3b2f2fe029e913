import QemuIos.Iop.Publish
import QemuIos.Iop.Proofs.Nand

/-!
# Ownership is never published ahead of the pages

A page that the bitmap on the disk gives to the overlay has been stored there, and flushed, before
the bitmap was written: this holds of every journal the device can leave behind, whatever fails and
wherever it is cut. `Kept` says what of the journal carries it.
-/

namespace QemuIos.Iop.Nand
open Block List Nat Bool

/-! ## Runs -/

/-- What happens to the storage: a call, the machine stops or goes on, a snapshot. -/
inductive Event where
  | op (op : Op)
  | vmState (running : Bool)
  | preSave

def step (n : Nand) : Event → Nand
  | .op op => n.apply op
  | .vmState running => n.iopVmState running
  | .preSave => n.iopPreSave.1

/-- The bytes of a bitmap. -/
def bitmapBytes (p : Part) : Nat := (p.pagesPerCe + 7) / 8

/-- As `s5l8930_iop_realize` leaves the device: nothing requested yet, and the bitmaps in memory are
those of the files. -/
structure Fresh (n : Nand) : Prop where
  journal : n.disk.journal = []
  settled : ∀ die, n.ownershipPending die = false
  loaded : ∀ die, ∀ k < bitmapBytes n.part, n.dirty die k = n.disk.bytes (.ownership die) k

/-- A request that programs a page, or erases its block. -/
inductive WrittenFor (p : Part) (die : Nat × Nat) (page : Nat) : Request File → Prop where
  | program (data : Mem) :
      WrittenFor p die page (.write (.ovl die) (page * p.pageStride) p.pageStride data)
  | erase : WrittenFor p die page (.write (.ovl die) (page / p.storePpb * p.storePpb * p.pageStride)
      (p.storePpb * p.pageStride) fun _ => 0)

/-- The journal entry stored a page of the overlay, and succeeded. -/
def Wrote (p : Part) (journal : Journal File) (die : Nat × Nat) (page i : Nat) :
    Prop :=
  ∃ r, journal[i]? = some (r, .ok) ∧ WrittenFor p die page r

/-- The page was stored and then flushed, before the entry `j`. -/
def Secured (p : Part) (journal : Journal File) (die : Nat × Nat) (page j : Nat) :
    Prop :=
  ∃ i k, i < k ∧ k < j ∧ Wrote p journal die page i ∧ journal[k]? = some (.flush (.ovl die), .ok)

/-- A page was stored and flushed before a bitmap was written that has it, and the disk has what was
stored for it then or later. -/
def Backed (p : Part) (first : File → Mem) (keep : Nat → Bool)
    (journal : Journal File) (die : Nat × Nat) (page : Nat) : Prop :=
  ∃ i k j, i < k ∧ k < j ∧ keep i = true ∧ Wrote p journal die page i ∧
    journal[k]? = some (.flush (.ovl die), .ok) ∧
    (∃ off len data o, journal[j]? = some (.write (.ownership die) off len data, o) ∧
      keep j = true ∧ Mem.bit data page = true) ∧
    ∃ w off len data o, i ≤ w ∧ journal[w]? = some (.write (.ovl die) off len data, o) ∧
      keep w = true ∧ WrittenFor p die page (.write (.ovl die) off len data) ∧
      ∀ b < p.pageStride, Block.disk first keep journal (.ovl die) (page * p.pageStride + b) =
        data (page * p.pageStride + b - off)

/-- What a bitmap may say that is written as the entry `j`: it gives the overlay only pages that
were flushed before. -/
def MayPublish (first : File → Mem) (n : Nand) (j : Nat) (die : Nat × Nat) (off len : Nat)
    (data : Mem) : Prop :=
  (off = 0 ∧ len = bitmapBytes n.part) ∧ ∀ page < n.part.pagesPerCe, Mem.bit data page = true →
    Mem.bit (first (.ownership die)) page = true ∨ Secured n.part n.disk.journal die page j

/-- What the journal says of the state, whatever has failed. -/
structure Kept (first : File → Mem) (n : Nand) : Prop where
  view : n.disk.bytes = view first n.disk.journal
  /-- Pages of the overlay are only stored by programs and erases. -/
  pages : ∀ e ∈ n.disk.journal, ∀ die off len data, e.1 = .write (.ovl die) off len data →
    n.part.Populated die ∧ ∃ page, WrittenFor n.part die page e.1
  /-- A page that the overlay owns has been stored there. -/
  owned : ∀ die page, page < n.part.pagesPerCe → Mem.bit (n.dirty die) page = true →
    Mem.bit (first (.ownership die)) page = true ∨ ∃ i, Wrote n.part n.disk.journal die page i
  published : ∀ (j : Nat) o die off len data,
    n.disk.journal[j]? = some (.write (.ownership die) off len data, o) →
    MayPublish first n j die off len data

/-- What holds as long as nothing has failed. -/
structure Calm (n : Nand) : Prop where
  fine : ∀ e ∈ n.disk.journal, e.2 = .ok
  /-- A bitmap that is not left to be published was flushed whenever it was written. -/
  flushed : ∀ die, n.ownershipPending die = false → ∀ (i : Nat) o off len data,
    n.disk.journal[i]? = some (.write (.ownership die) off len data, o) →
    ∃ k, i < k ∧ n.disk.journal[k]? = some (.flush (.ownership die), .ok)
  /-- And it is in its file. -/
  settled : ∀ die, n.ownershipPending die = false → ∀ page < n.part.pagesPerCe,
    Mem.bit (n.disk.bytes (.ownership die)) page = Mem.bit (n.dirty die) page
  /-- The overlay owns every page that was stored there. -/
  taken : ∀ e ∈ n.disk.journal, ∀ die page, WrittenFor n.part die page e.1 →
    Mem.bit (n.dirty die) page = true

variable {first : File → Mem} {n n' : Nand} {die : Nat × Nat} {start : Nat}
  {done : List (Nat × Nat)}

section Journals

variable {p : Part} {journal : Journal File} {page i j : Nat}

theorem WrittenFor.write {r : Request File} (meant : WrittenFor p die page r) :
    ∃ off len data, r = .write (.ovl die) off len data := by
  cases meant <;> exact ⟨_, _, _, rfl⟩

theorem Wrote.append (new : Journal File) (wrote : Wrote p journal die page i) :
    Wrote p (journal ++ new) die page i := by
  obtain ⟨r, entry, meant⟩ := wrote
  exact ⟨r, entry_append new entry, meant⟩

theorem Secured.append (new : Journal File) (secured : Secured p journal die page j) :
    Secured p (journal ++ new) die page j := by
  obtain ⟨i, k, before, after, wrote, flush⟩ := secured
  exact ⟨i, k, before, after, wrote.append new, entry_append new flush⟩

end Journals

/-! ## One request more -/

/-- A request that the bitmaps in memory do not follow. -/
structure Asked (n : Nand) (r : Request File) (n' : Nand) : Prop extends Requested n r n' where
  dirty : n'.dirty = n.dirty
  pending : n'.ownershipPending = n.ownershipPending

/-- Pages are stored by requests made for them, and a bitmap is written once its pages are
secured. -/
theorem Kept.requested {r : Request File} (kept : Kept first n) (requested : Requested n r n')
    (pages : ∀ die off len data, r = .write (.ovl die) off len data →
      n.part.Populated die ∧ ∃ page, WrittenFor n.part die page r)
    (owned : ∀ die page, Mem.bit (n'.dirty die) page = true → Mem.bit (n.dirty die) page = true ∨
      n.disk.next = .ok ∧ WrittenFor n.part die page r)
    (published : ∀ die off len data, r = .write (.ownership die) off len data →
      MayPublish first n n.disk.journal.length die off len data) : Kept first n' := by
  obtain ⟨part, -, journal, bytes⟩ := requested
  refine ⟨?_, ?_, ?_, ?_⟩
  · rw [bytes, journal, view_append, kept.view]
  · rw [journal, part]
    intro e member
    rcases mem_append.mp member with old | new
    · exact kept.pages e old
    · rw [mem_singleton.mp new]
      exact pages
  · rw [part, journal]
    intro die page inside bit
    rcases owned die page bit with old | ⟨fine, meant⟩
    · exact (kept.owned die page inside old).imp_right fun ⟨i, wrote⟩ => ⟨i, wrote.append _⟩
    · exact .inr ⟨n.disk.journal.length, r, fine ▸ getElem?_concat_length, meant⟩
  · unfold MayPublish
    rw [part, journal]
    intro j o die off len data entry
    have earlier : MayPublish first n j die off len data := by
      rcases entry_snoc entry with old | ⟨rfl, new⟩
      · exact kept.published j o die off len data old
      · exact published die off len data (congrArg Prod.fst new).symm
    exact ⟨earlier.1, fun page inside bit => (earlier.2 page inside bit).imp_right (·.append _)⟩

/-- A request that succeeds writes no bitmap that counts as published, and gives the overlay the
pages it stores. -/
theorem Calm.requested {r : Request File} (calm : Calm n) (requested : Requested n r n')
    (fine : n.disk.next = .ok)
    (settled : ∀ die, n'.ownershipPending die = false → n.ownershipPending die = false ∧
      (∀ off len data, r ≠ .write (.ownership die) off len data) ∧
      ∀ page, Mem.bit (n'.dirty die) page = Mem.bit (n.dirty die) page)
    (taken : ∀ die page, Mem.bit (n.dirty die) page = true ∨ WrittenFor n.part die page r →
      Mem.bit (n'.dirty die) page = true) : Calm n' := by
  obtain ⟨part, -, journal, bytes⟩ := requested
  refine ⟨?_, ?_, ?_, ?_⟩
  · rw [journal]
    intro e member
    rcases mem_append.mp member with old | new
    · exact calm.fine e old
    · rw [mem_singleton.mp new]
      exact fine
  · rw [journal]
    intro die idle i o off len data entry
    obtain ⟨before, other, -⟩ := settled die idle
    rcases entry_snoc entry with old | ⟨-, new⟩
    · obtain ⟨k, after, flush⟩ := calm.flushed die before i o off len data old
      exact ⟨k, after, entry_append _ flush⟩
    · exact absurd (congrArg Prod.fst new).symm (other off len data)
  · intro die idle page inside
    obtain ⟨before, other, bits⟩ := settled die idle
    have same : n'.disk.bytes (.ownership die) = n.disk.bytes (.ownership die) := by
      rw [bytes]
      split
      · exact apply_of_other other _ _
      · rfl
    rw [same, bits, calm.settled die before page (part ▸ inside)]
  · rw [journal, part]
    intro e member die page meant
    rcases mem_append.mp member with old | new
    · exact taken die page (.inl (calm.taken e old die page meant))
    · rw [mem_singleton.mp new] at meant
      exact taken die page (.inr meant)

section Asked

variable {r : Request File}

theorem asked_log (n : Nand) (quiet : ∀ d o, Block.apply d (r, o) = d) :
    Asked n r { n with disk := n.disk.log r } :=
  ⟨⟨rfl, rfl, rfl, by rw [quiet]; exact (ite_self _).symm⟩, rfl, rfl⟩

/-- Reads and flushes. -/
theorem Kept.asked (kept : Kept first n) (asked : Asked n r n')
    (quiet : ∀ f off len data, r ≠ .write f off len data) : Kept first n' := by
  refine kept.requested asked.toRequested ?_ (fun die page bit => .inl (asked.dirty ▸ bit)) ?_
  · exact fun die off len data same => absurd same (quiet _ off len data)
  · exact fun die off len data same => absurd same (quiet _ off len data)

/-- The bitmaps that are settled stay so if none of them is written. -/
theorem Calm.asked (calm : Calm n) (asked : Asked n r n') (fine : n.disk.next = .ok)
    (other : ∀ die, n.ownershipPending die = false →
      ∀ off len data, r ≠ .write (.ownership die) off len data)
    (noPages : ∀ die off len data, r ≠ .write (.ovl die) off len data) : Calm n' := by
  refine calm.requested asked.toRequested fine ?_ ?_
  · intro die idle
    rw [asked.pending] at idle
    exact ⟨idle, other die idle, fun page => by rw [asked.dirty]⟩
  · rw [asked.dirty]
    rintro die page (old | meant)
    · exact old
    · obtain ⟨off, len, data, write⟩ := meant.write
      exact absurd write (noPages die off len data)

end Asked

/-! ## Storing pages -/

/-- The request that stores pages of the overlay, from `a` on. -/
def pagesRequest (p : Part) (die : Nat × Nat) (a c : Nat) (data : Mem) : Request File :=
  .write (.ovl die) (a * p.pageStride) (c * p.pageStride) data

/-- Pages that a program or an erase stores. -/
structure Made (p : Part) (die : Nat × Nat) (a c : Nat) (data : Mem) : Prop where
  there : p.Populated die
  pos : 0 < c
  meant : ∀ page, a ≤ page → page < a + c → WrittenFor p die page (pagesRequest p die a c data)

/-- What was done for a page was done to a run of pages that has it. -/
theorem WrittenFor.stores {p : Part} {g : Geometry} (store : p.store = some g)
    {page : Nat} {r : Request File} (meant : WrittenFor p die page r) :
    ∃ contents, Stores (.ovl die) p.pageStride page contents r := by
  have pos := Part.storePpb_pos store
  cases meant with
  | program data =>
    have stores : Stores (File.ovl die) p.pageStride page _
        (.write (File.ovl die) (page * p.pageStride) (1 * p.pageStride) data) :=
      .mk page 1 data le_rfl (lt_succ_self page)
    rw [one_mul] at stores
    exact ⟨_, stores⟩
  | erase =>
    have high := lt_div_mul_add pos (a := page)
    exact ⟨_, .mk (page / p.storePpb * p.storePpb) p.storePpb _ (div_mul_le_self _ _) high⟩

section Store

variable {a c : Nat} {data : Mem}

theorem WrittenFor.covered {g : Geometry} (store : n.part.store = some g) {die' : Nat × Nat}
    {page : Nat} (meant : WrittenFor n.part die' page (pagesRequest n.part die a c data)) :
    die' = die ∧ a ≤ page ∧ page < a + c := by
  obtain ⟨contents, stores⟩ := meant.stores store
  have chip : die' = die := by
    generalize eq : pagesRequest n.part die a c data = r at stores
    cases stores
    injection eq with file
    injection file with chip
    exact chip.symm
  subst chip
  exact ⟨rfl, stores.covers (Part.pageStride_pos store)⟩

/-- However a write to the pages ended, the overlay may own no more than it did or than was
written. -/
theorem Kept.wrote (kept : Kept first n) (made : Made n.part die a c data)
    (requested : Requested n (pagesRequest n.part die a c data) n')
    (bits : ∀ die' page, Mem.bit (n'.dirty die') page = true → Mem.bit (n.dirty die') page = true ∨
      (n.disk.next = .ok ∧ die' = die ∧ a ≤ page ∧ page < a + c)) : Kept first n' := by
  refine kept.requested requested ?_ ?_ nofun
  · intro die' off len data' write
    injection write with file
    injection file with chip
    subst chip
    exact ⟨made.there, a, made.meant a le_rfl (by have := made.pos; omega)⟩
  · intro die' page bit
    rcases bits die' page bit with old | ⟨fine, rfl, low, high⟩
    · exact .inl old
    · exact .inr ⟨fine, made.meant page low high⟩

end Store

/-! ## Publishing -/

theorem mem_places {p : Part} (there : p.Populated die) : die ∈ places := by
  obtain ⟨-, bus, ce, -⟩ := there
  simp only [places, mem_flatMap, mem_map, mem_range]
  exact ⟨die.1, bus, die.2, ce, rfl⟩

/-- From the entry `start` on, the pages of the chips `done` have been flushed and none has been
stored. -/
structure Drained (start : Nat) (done : List (Nat × Nat)) (n : Nand) : Prop where
  flush : ∀ die ∈ done, n.part.Populated die →
    ∃ k, start ≤ k ∧ n.disk.journal[k]? = some (.flush (.ovl die), .ok)
  still : ∀ (i : Nat), start ≤ i → ∀ die off len data o,
    n.disk.journal[i]? ≠ some (.write (.ovl die) off len data, o)

theorem Drained.requested {r : Request File}
    (drained : Drained start done n) (requested : Requested n r n')
    (other : ∀ die off len data, r ≠ .write (.ovl die) off len data) : Drained start done n' := by
  obtain ⟨part, -, journal, -⟩ := requested
  refine ⟨?_, ?_⟩
  · rw [part, journal]
    intro die member there
    obtain ⟨k, after, entry⟩ := drained.flush die member there
    exact ⟨k, after, entry_append _ entry⟩
  · intro i after die off len data o entry
    rw [journal] at entry
    rcases entry_snoc entry with old | ⟨-, new⟩
    · exact drained.still i after die off len data o old
    · exact other die off len data (congrArg Prod.fst new).symm

/-- A chip's pages are flushed too. -/
theorem Drained.flushed
    (drained : Drained start done n) (requested : Requested n (.flush (.ovl die)) n')
    (fine : n.disk.next = .ok) (late : start ≤ n.disk.journal.length) :
    Drained start (done ++ [die]) n' := by
  have old := drained.requested requested nofun
  refine ⟨?_, old.still⟩
  intro die' member there
  rcases mem_append.mp member with before | new
  · exact old.flush die' before there
  · rw [mem_singleton.mp new, requested.journal, fine]
    exact ⟨n.disk.journal.length, late, getElem?_concat_length⟩

theorem Drained.secured {page i : Nat}
    (drained : Drained start places n) (there : n.part.Populated die)
    (wrote : Wrote n.part n.disk.journal die page i) :
    Secured n.part n.disk.journal die page n.disk.journal.length := by
  obtain ⟨k, after, flush⟩ := drained.flush die (mem_places there) there
  have before : i < start := by
    by_contra late
    obtain ⟨r, entry, meant⟩ := wrote
    obtain ⟨off, len, data, rfl⟩ := meant.write
    exact drained.still i (by omega) _ _ _ _ _ entry
  exact ⟨i, k, by omega, (List.getElem?_eq_some_iff.mp flush).1, wrote, flush⟩

/-- The bitmap of a chip. -/
def bitmapRequest (n : Nand) (die : Nat × Nat) : Request File :=
  .write (.ownership die) 0 (bitmapBytes n.part) (n.dirty die)

theorem Kept.posted (kept : Kept first n)
    (drained : Drained start places n) (there : n.part.Populated die)
    (posted : Asked n (n.bitmapRequest die) n') : Kept first n' := by
  refine kept.requested posted.toRequested nofun (fun _ _ bit => .inl (posted.dirty ▸ bit)) ?_
  intro die' off len data write
  injection write with file offs lens datas
  injection file with chip
  subst chip offs lens datas
  refine ⟨⟨rfl, rfl⟩, fun page inside bit => ?_⟩
  exact (kept.owned die page inside bit).imp_right fun ⟨i, wrote⟩ => drained.secured there wrote

theorem Calm.posted (calm : Calm n) (posted : Asked n (n.bitmapRequest die) n')
    (fine : n.disk.next = .ok) (pending : n.ownershipPending die = true) : Calm n' := by
  refine calm.asked posted fine ?_ nofun
  intro die' idle off len data write
  injection write with file
  injection file with chip
  rw [← chip, pending] at idle
  cases idle

/-- A bitmap that was just flushed and is in its file is settled. -/
theorem Calm.cleared {journal : Journal File} (calm : Calm n)
    (last : n.disk.journal = journal ++ [(.flush (.ownership die), .ok)])
    (bits : ∀ page < n.part.pagesPerCe,
      Mem.bit (n.disk.bytes (.ownership die)) page = Mem.bit (n.dirty die) page) :
    Calm { n with ownershipPending := Function.update n.ownershipPending die false } := by
  refine ⟨calm.fine, ?_, ?_, calm.taken⟩
  · intro die' idle i o off len data entry
    by_cases same : die' = die
    · subst same
      rw [last] at entry ⊢
      refine ⟨journal.length, ?_, List.getElem?_concat_length⟩
      rcases entry_snoc entry with old | ⟨-, new⟩
      · exact (List.getElem?_eq_some_iff.mp old).1
      · cases new
    · exact calm.flushed die' ((Function.update_of_ne same _ _).symm.trans idle) i o off len
        data entry
  · intro die' idle page inside
    by_cases same : die' = die
    · subst same
      exact bits page inside
    · exact calm.settled die' ((Function.update_of_ne same _ _).symm.trans idle) page inside

/-- What was written of a bitmap is in its file. -/
theorem bit_posted (posted : Asked n (n.bitmapRequest die) n')
    (fine : n.disk.next = .ok) {page : Nat} (inside : page < n.part.pagesPerCe) :
    Mem.bit (n'.disk.bytes (.ownership die)) page = Mem.bit (n'.dirty die) page := by
  have within : page / 8 < bitmapBytes n.part := by
    unfold bitmapBytes
    omega
  have bytes : n'.disk.bytes = Function.update n.disk.bytes (.ownership die)
      (Mem.blit (n.disk.bytes (.ownership die)) 0 (bitmapBytes n.part) (n.dirty die)) := by
    rw [posted.bytes, fine]
    rfl
  rw [posted.dirty, bytes, Function.update_self, Mem.bit,
    Mem.blit_of_inside _ _ _ _ (zero_le _) (by omega)]
  rfl

/-! ## The two loops -/

/-- What holds of the state and the loop's flag, whichever loop it is. -/
structure Sound (first : File → Mem) (s : Nand × Bool) : Prop where
  kept : Kept first s.1
  calm : s.2 = false → Calm s.1
  latch : s.2 = false → s.1.storageFailed = false

/-- The failure is latched. -/
theorem Kept.failed (kept : Kept first n) : Sound first ({ n with storageFailed := true }, true) :=
  ⟨⟨kept.view, kept.pages, kept.owned, kept.published⟩, nofun, nofun⟩

/-- The files of pages in `done` have been flushed, since the state `n`. -/
structure Swept (first : File → Mem) (n : Nand) (done : List (Nat × Nat)) (s : Nand × Bool) :
    Prop where
  sound : Sound first s
  part : s.1.part = n.part
  long : n.disk.journal.length ≤ s.1.disk.journal.length
  drained : s.2 = false → Drained n.disk.journal.length done s.1

theorem swept_flushPages (overlay : n.part.overlayDir = true) {failed : Bool}
    (sound : Sound first (n, failed)) (l : List (Nat × Nat)) :
    Swept first n l (l.foldl flushPages (n, failed)) := by
  induction l using reverseRecOn with
  | nil =>
    refine ⟨sound, rfl, le_rfl, fun _ => ⟨nofun, ?_⟩⟩
    intro i late die off len data o entry
    rw [foldl_nil, getElem?_eq_none late] at entry
    cases entry
  | append_singleton l die ih =>
    rw [foldl_concat]
    generalize l.foldl flushPages (n, failed) = s at ih
    rw [flushPages]
    by_cases there : s.1.part.Populated die
    · rw [if_pos there, ih.part, if_pos overlay]
      have asked := asked_log s.1 (r := .flush (.ovl die)) fun _ _ => rfl
      have quiet : (s.2 || !(s.1.disk.flush (File.ovl die)).2) = false →
          s.2 = false ∧ s.1.disk.next = .ok := by
        rw [or_eq_false_iff, not_eq_false']
        exact fun both => ⟨both.1, beq_iff_eq.mp both.2⟩
      refine ⟨⟨ih.sound.kept.asked asked nofun, fun well => ?_, fun well => ?_⟩, ih.part, ?_,
        fun well => ?_⟩
      · exact (ih.sound.calm (quiet well).1).asked asked (quiet well).2 nofun nofun
      · exact ih.sound.latch (quiet well).1
      · exact ih.long.trans (prefix_append s.1.disk.journal _).length_le
      · exact (ih.drained (quiet well).1).flushed asked.toRequested (quiet well).2 ih.long
    · rw [if_neg there]
      refine ⟨ih.sound, ih.part, ih.long, fun well => ⟨?_, (ih.drained well).still⟩⟩
      intro die' member populated
      rcases mem_append.mp member with old | new
      · exact (ih.drained well).flush die' old populated
      · rw [mem_singleton.mp new] at populated
        exact absurd populated there

/-- The bitmaps in `done` have been published. -/
structure Told (first : File → Mem) (start : Nat) (p : Part) (done : List (Nat × Nat))
    (s : Nand × Bool) : Prop where
  sound : Sound first s
  part : s.1.part = p
  drained : Drained start places s.1
  settled : s.2 = false → ∀ die ∈ done, p.Populated die → s.1.ownershipPending die = false

theorem told_publish {failed : Bool} (overlay : n.part.overlayDir = true)
    (sound : Sound first (n, failed)) (drained : Drained start places n) (l : List (Nat × Nat)) :
    Told first start n.part l (l.foldl publish (n, failed)) := by
  induction l using reverseRecOn with
  | nil => exact ⟨sound, rfl, drained, nofun⟩
  | append_singleton l die ih =>
    rw [foldl_concat]
    generalize l.foldl publish (n, failed) = s at ih
    rw [publish]
    by_cases due : s.1.part.overlayDir = true ∧ s.1.part.Populated die ∧
        s.1.ownershipPending die = true
    · rw [if_pos due]
      have posted : Asked s.1 (s.1.bitmapRequest die) { s.1 with disk := (s.1.disk.pwrite
          (.ownership die) 0 ((s.1.part.pagesPerCe + 7) / 8) (s.1.dirty die)).1 } :=
        ⟨⟨rfl, rfl, rfl, rfl⟩, rfl, rfl⟩
      have answer : (s.1.disk.pwrite (File.ownership die) 0 ((s.1.part.pagesPerCe + 7) / 8)
          (s.1.dirty die)).2 = (s.1.disk.next == .ok) := rfl
      generalize s.1.disk.pwrite (File.ownership die) 0 ((s.1.part.pagesPerCe + 7) / 8)
        (s.1.dirty die) = written at posted answer
      have drained₂ := ih.drained.requested posted.toRequested nofun
      have kept₂ := ih.sound.kept.posted ih.drained due.2.1 posted
      by_cases write : written.2 = true
      · have fine : s.1.disk.next = .ok := beq_iff_eq.mp (answer ▸ write)
        have asked := asked_log { s.1 with disk := written.1 } (r := .flush (.ownership die))
          fun _ _ => rfl
        have drained₃ := drained₂.requested asked.toRequested nofun
        have kept₃ := kept₂.asked asked nofun
        simp only [if_pos write]
        by_cases flush : (written.1.flush (File.ownership die)).2 = true
        · have fine' : written.1.next = .ok := beq_iff_eq.mp flush
          simp only [if_pos flush]
          refine ⟨⟨⟨kept₃.view, kept₃.pages, kept₃.owned, kept₃.published⟩, ?_, ih.sound.latch⟩,
            ih.part, ⟨drained₃.flush, drained₃.still⟩, ?_⟩
          · intro well
            have calm₃ := ((ih.sound.calm well).posted posted fine due.2.2).asked asked fine' nofun
              nofun
            exact calm₃.cleared (by rw [asked.journal, fine']) fun page inside =>
              bit_posted posted fine inside
          · intro well die' member populated
            by_cases same : die' = die
            · subst same
              exact Function.update_self ..
            · refine (Function.update_of_ne same ..).trans ?_
              apply ih.settled well die' _ populated
              simpa [same] using member
        · simp only [if_neg flush]
          exact ⟨⟨kept₃, nofun, nofun⟩, ih.part, drained₃, nofun⟩
      · simp only [if_neg write]
        exact ⟨⟨kept₂, nofun, nofun⟩, ih.part, drained₂, nofun⟩
    · rw [if_neg due]
      refine ⟨ih.sound, ih.part, ih.drained, ?_⟩
      intro well die' member populated
      rcases mem_append.mp member with old | new
      · exact ih.settled well die' old populated
      rw [mem_singleton.mp new] at populated ⊢
      rw [ih.part] at due
      by_contra pending
      exact due ⟨overlay, populated, not_eq_false _ ▸ pending⟩

/-- The machine stops. If nothing has failed when it has stopped, all pages are drained and every
bitmap is settled. -/
theorem sound_iopVmState (overlay : n.part.overlayDir = true)
    (sound : Sound first (n, n.storageFailed)) :
    Sound first (n.iopVmState false, (n.iopVmState false).storageFailed) ∧
      (n.iopVmState false).part = n.part ∧
      ((n.iopVmState false).storageFailed = false →
        Drained n.disk.journal.length places (n.iopVmState false) ∧
        ∀ die, n.part.Populated die → (n.iopVmState false).ownershipPending die = false) := by
  have swept := swept_flushPages overlay sound places
  rw [iopVmState, if_neg Bool.false_ne_true]
  generalize places.foldl flushPages (n, n.storageFailed) = s at swept
  by_cases failed : s.2 = true
  · simp only [if_pos failed]
    exact ⟨swept.sound.kept.failed, swept.part, nofun⟩
  · -- every file of pages has been flushed: the bitmaps may be published
    have well : s.2 = false := eq_false_iff.mpr failed
    have told := told_publish (swept.part ▸ overlay) swept.sound (swept.drained well) places
    rw [swept.part] at told
    simp only [well, false_eq_true, if_false]
    generalize places.foldl publish (s.1, s.2) = t at told
    by_cases failed' : t.2 = true
    · simp only [if_pos failed']
      exact ⟨told.sound.kept.failed, told.part, nofun⟩
    · have well' : t.2 = false := eq_false_iff.mpr failed'
      simp only [if_neg failed']
      refine ⟨⟨told.sound.kept, fun _ => told.sound.calm well', id⟩, told.part, fun _ => ?_⟩
      exact ⟨told.drained, fun die there => told.settled well' die (mem_places there) there⟩

/-! ## Every run -/

section Run

variable {g : Geometry}

theorem populated_of_holds (store : n.part.store = some g) {bus : Int} {ce page : Nat}
    (on : n.part.Holds bus ce page) : n.part.Populated (bus.toNat, ce) := by
  obtain ⟨⟨low, high⟩, lane, there, -⟩ := on
  refine ⟨Part.nandDir_of_store store, ?_, lane, there⟩
  show bus.toNat < nandBuses
  omega

/-! What a call does, whatever fails: no bitmap is written, and a failure latches. -/

/-- No bitmap has been written since. -/
def Unpublished (n n' : Nand) : Prop :=
  Grown (fun r => ∀ die off len data, r ≠ .write (.ownership die) off len data) n.disk.journal
    n'.disk.journal

/-- Where steps lead, and that they publish nothing after a failure. -/
structure Steps (first : File → Mem) (n n' : Nand) : Prop where
  sound : Sound first (n', n'.storageFailed)
  part : n'.part = n.part
  latch : n.storageFailed = true → Unpublished n n' ∧ n'.storageFailed = true

theorem Steps.refl (sound : Sound first (n, n.storageFailed)) : Steps first n n :=
  ⟨sound, rfl, (⟨.refl _, ·⟩)⟩

theorem Steps.trans {n₁ n₂ n₃ : Nand} (one : Steps first n₁ n₂) (two : Steps first n₂ n₃) :
    Steps first n₁ n₃ := by
  refine ⟨two.sound, two.part.trans one.part, fun failed => ?_⟩
  obtain ⟨quiet, stays⟩ := one.latch failed
  obtain ⟨quiet', stays'⟩ := two.latch stays
  exact ⟨quiet.trans quiet', stays'⟩

theorem steps_peek (sound : Sound first (n, n.storageFailed)) (die : Nat × Nat) (page : Nat) :
    (n.disk.next = .ok → Steps first n (n.peek die page)) ∧
      Steps first n { n.peek die page with storageFailed := true } := by
  have asked := asked_log n (r := .read (n.homeFile die page) (page * n.part.pageStride)
    n.part.pageStride) fun _ _ => rfl
  have quiet : Unpublished n (n.peek die page) := .snoc rfl nofun
  have kept := sound.kept.asked asked nofun
  refine ⟨fun fine => ⟨⟨kept, ?_, id⟩, rfl, (⟨quiet, ·⟩)⟩, kept.failed, rfl, fun _ => ⟨quiet, rfl⟩⟩
  exact fun well => (sound.calm well).asked asked fine nofun nofun

theorem unpublished_flushPages (s : Nand × Bool) (l : List (Nat × Nat)) :
    Unpublished s.1 (l.foldl flushPages s).1 ∧ (s.2 = true → (l.foldl flushPages s).2 = true) := by
  induction l using reverseRecOn with
  | nil => exact ⟨.refl _, id⟩
  | append_singleton l die ih =>
    rw [foldl_concat]
    generalize l.foldl flushPages s = t at ih
    rw [flushPages]
    split
    · refine ⟨ih.1.trans (.snoc rfl nofun), fun failed => ?_⟩
      rw [ih.2 failed]
      rfl
    · exact ih

theorem unpublished_iopVmState (failed : n.storageFailed = true) :
    Unpublished n (n.iopVmState false) ∧ (n.iopVmState false).storageFailed = true := by
  obtain ⟨quiet, stays⟩ := unpublished_flushPages (n, n.storageFailed) places
  rw [iopVmState, if_neg Bool.false_ne_true]
  simp only [stays failed, if_true]
  exact ⟨quiet, trivial⟩

theorem iopPreSave_fst : n.iopPreSave.1 = n.iopVmState false := by
  show (if (n.iopVmState false).storageFailed then (n.iopVmState false, (-5 : Int))
    else (n.iopVmState false, 0)).1 = n.iopVmState false
  split <;> rfl

/-- A step is a call, stops the machine, or does nothing. -/
theorem step_cases (n : Nand) (e : Event) :
    (∃ op, n.step e = n.apply op) ∨ n.step e = n.iopVmState false ∨ n.step e = n := by
  rcases e with op | running | _
  · exact .inl ⟨op, rfl⟩
  · cases running
    · exact .inr (.inl rfl)
    · exact .inr (.inr rfl)
  · exact .inr (.inl iopPreSave_fst)

theorem sound_fresh (fresh : Fresh n) : Sound n.disk.bytes (n, n.storageFailed) := by
  have bits : ∀ die, ∀ page < n.part.pagesPerCe,
      Mem.bit (n.disk.bytes (.ownership die)) page = Mem.bit (n.dirty die) page := by
    intro die page inside
    rw [Mem.bit, Mem.bit, fresh.loaded die (page / 8) (by unfold bitmapBytes; omega)]
  have empty := fresh.journal
  refine ⟨⟨by rw [empty]; rfl, ?_, ?_, ?_⟩, fun _ => ⟨?_, ?_, ?_, ?_⟩, id⟩
  case refine_2 => exact fun die page inside bit => .inl ((bits die page inside).trans bit)
  case refine_6 => exact fun die _ page inside => bits die page inside
  all_goals rw [empty]; nofun

section

variable (store : n.part.store = some g)
include store

theorem made_program {bus : Int} {ce page : Nat} (on : n.part.Holds bus ce page) (data : Mem) :
    Made n.part (bus.toNat, ce) page 1 data := by
  refine ⟨populated_of_holds store on, one_pos, ?_⟩
  intro page' low high
  obtain rfl : page' = page := by omega
  rw [pagesRequest, one_mul]
  exact .program data

theorem made_erase {bus : Int} {ce block : Nat} (on : HoldsBlock n.part bus ce block) :
    Made n.part (bus.toNat, ce) (block * n.part.storePpb) n.part.storePpb fun _ => 0 := by
  have pos := Part.storePpb_pos store
  refine ⟨populated_of_holds store on.2, pos, ?_⟩
  intro page low high
  have same : page / n.part.storePpb = block := by
    rw [Nat.div_eq_iff pos]
    omega
  rw [pagesRequest, ← same]
  exact .erase

section

variable (overlay : n.part.overlayDir = true) (sound : Sound first (n, n.storageFailed))
include overlay sound

theorem steps_storePages {a c : Nat} {data : Mem} (made : Made n.part die a c data) :
    Steps first n (n.storePages die a c data).1 := by
  have file : n.pagesFile die = .ovl die := if_pos overlay
  have request : n.storeRequest die a c data = pagesRequest n.part die a c data := by
    rw [storeRequest, file, pagesRequest]
  have quiet : ∀ die' off len data',
      pagesRequest n.part die a c data ≠ .write (.ownership die') off len data' :=
    fun _ _ _ _ same => File.noConfusion (Request.write.inj same).1
  obtain stored | spoilt := n.storePages_cases die a c data
  · have requested := request ▸ stored.toRequested
    have bits : ∀ die' page, Mem.bit ((n.storePages die a c data).1.dirty die') page = true ↔
        Mem.bit (n.dirty die') page = true ∨ die' = die ∧ a ≤ page ∧ page < a + c := by
      intro die' page
      rw [stored.bits, overlay]
      simp
    refine ⟨⟨?_, fun well => ?_, id⟩, stored.part,
      fun failed => ⟨.snoc requested.journal quiet, stored.failed.trans failed⟩⟩
    · refine sound.kept.wrote made requested fun die' page bit => ?_
      exact ((bits die' page).mp bit).imp_right fun covered => ⟨stored.fine, covered⟩
    · refine (sound.calm (stored.failed ▸ well)).requested requested stored.fine ?_ ?_
      · intro die' settled
        exact ⟨(stored.settled die' settled).1, quiet die', (stored.settled die' settled).2⟩
      · exact fun die' page covered =>
          (bits die' page).mpr (covered.imp_right fun meant => meant.covered store)
  · have requested := request ▸ spoilt.toRequested
    refine ⟨⟨sound.kept.wrote made requested ?_, fun well => ?_, id⟩, spoilt.part,
      fun _ => ⟨.snoc requested.journal quiet, spoilt.failed⟩⟩
    · exact fun die' page bit => .inl (spoilt.dirty ▸ bit)
    · exact absurd (well.symm.trans spoilt.failed) Bool.false_ne_true

theorem steps_apply (op : Op) : Steps first n (n.apply op) := by
  cases op with
  | program bus ce page data len mark =>
    by_cases accepted : n.part.Holds bus ce page ∧
        (n.part.nandXorFf = true → len ≤ n.part.pageStride)
    · rw [apply, nandProgramPage_eq store data mark accepted.1 accepted.2]
      obtain ⟨fine, failed⟩ := steps_peek sound (bus.toNat, ce) page
      split
      · next next =>
        exact (fine next).trans (steps_storePages (n := n.peek (bus.toNat, ce) page) store overlay
          (fine next).sound (made_program store accepted.1 _))
      · exact failed
    · rw [apply, nandProgramPage_refused store data mark accepted]
      exact .refl sound
  | erase bus ce block =>
    by_cases accepted : HoldsBlock n.part bus ce block
    · rw [apply, nandEraseBlock_eq store accepted]
      exact steps_storePages store overlay sound (made_erase store accepted)
    · rw [apply, nandEraseBlock_refused store accepted]
      exact .refl sound
  | read bus ce page =>
    obtain ⟨fine, failed⟩ := steps_peek sound (bus.toNat, ce) page
    rw [apply, nandReadPage_fst store]
    split
    · split
      · next next => exact fine next
      · exact failed
    · exact .refl sound

theorem steps_step (e : Event) : Steps first n (n.step e) := by
  obtain ⟨op, same⟩ | same | same := n.step_cases e <;> rw [same]
  · exact steps_apply store overlay sound op
  · obtain ⟨after, part, -⟩ := sound_iopVmState overlay sound
    exact ⟨after, part, unpublished_iopVmState⟩
  · exact .refl sound

theorem steps_run (events : List Event) : Steps first n (events.foldl step n) := by
  induction events using reverseRecOn with
  | nil => exact .refl sound
  | append_singleton events e ih =>
    rw [foldl_concat]
    exact ih.trans (steps_step (ih.part ▸ store) (ih.part ▸ overlay) ih.sound e)

end

/-! ## After a crash -/

theorem WrittenFor.of_stores {page page' : Nat}
    {r : Request File} {contents : Mem} (meant : WrittenFor n.part die page' r)
    (stores : Stores (.ovl die) n.part.pageStride page contents r) :
    WrittenFor n.part die page r := by
  have stride := Part.pageStride_pos store
  have pos := Part.storePpb_pos store
  cases meant with
  | program data =>
    have one : Request.write (File.ovl die) (page' * n.part.pageStride) n.part.pageStride data =
        .write (File.ovl die) (page' * n.part.pageStride) (1 * n.part.pageStride) data := by
      rw [one_mul]
    have covers := (one ▸ stores).covers stride
    obtain rfl : page = page' := by omega
    exact .program data
  | erase =>
    have covers := stores.covers stride
    have same : page / n.part.storePpb = page' / n.part.storePpb := by
      rw [Nat.div_eq_iff pos]
      omega
    rw [← same]
    exact .erase

theorem Kept.whole (kept : Kept first n) (die : Nat × Nat) :
    ∀ e ∈ n.disk.journal, Whole (.ovl die) n.part.pageStride e.1 := by
  rintro ⟨r, o⟩ member
  cases r with
  | read => trivial
  | flush => trivial
  | write f off len data =>
    rintro rfl
    obtain ⟨-, page, meant⟩ := kept.pages _ member die off len data rfl
    obtain ⟨contents, stores⟩ := meant.stores store
    dsimp only at stores
    generalize eq : Request.write (File.ovl die) off len data = r at stores
    obtain ⟨a, c, data', low, high⟩ := stores
    injection eq with _ offs lens
    exact ⟨a, c, offs, lens⟩

/-- A page that a crash leaves to the overlay, and that was not the overlay's at first: it was
stored and flushed before the bitmap was written, and the disk has what was stored for it then or
later. -/
theorem Kept.crash (kept : Kept first n)
    {journal : Journal File} (cut : journal <+: n.disk.journal) {keep : Nat → Bool}
    (survives : Survives journal keep) {page : Nat}
    (inside : page < n.part.pagesPerCe)
    (bit : Mem.bit (Block.disk first keep journal (.ownership die)) page = true) :
    Mem.bit (first (.ownership die)) page = true ∨
      Backed n.part first keep journal die page := by
  obtain ⟨rest, whole⟩ := cut
  have full : ∀ {i : Nat} {e}, journal[i]? = some e → n.disk.journal[i]? = some e := by
    intro i e entry
    rw [← whole]
    exact entry_append rest entry
  have back : ∀ {i : Nat} {e}, i < journal.length → n.disk.journal[i]? = some e →
      journal[i]? = some e := by
    intro i e short entry
    rwa [← whole, getElem?_append_left short] at entry
  have member : ∀ e ∈ journal, e ∈ n.disk.journal := by
    intro e old
    rw [← whole]
    exact mem_append_left rest old
  -- the bitmap on the disk is one that was written, unless the bit was there at first
  have bitmaps : ∀ e ∈ journal, Whole (.ownership die) (bitmapBytes n.part) e.1 := by
    rintro ⟨r, o⟩ old
    cases r with
    | read => trivial
    | flush => trivial
    | write f off len data =>
      rintro rfl
      obtain ⟨j, entry⟩ := mem_iff_getElem?.mp (member _ old)
      obtain ⟨⟨rfl, rfl⟩, -⟩ := kept.published j o die off len data entry
      exact ⟨0, 1, (zero_mul _).symm, (one_mul _).symm⟩
  have bytes : page / 8 < bitmapBytes n.part := by
    unfold bitmapBytes
    omega
  rw [Mem.bit] at bit
  obtain ⟨same, -⟩ | ⟨j, ⟨r, o⟩, contents, entry, keptJ, stores, written, -⟩ :=
    disk_record first keep (zero_lt_of_lt bytes) bitmaps 0
  · left
    have byte := same (page / 8) bytes
    rw [zero_mul, zero_add] at byte
    rwa [byte] at bit
  · obtain ⟨a, c, data, low, high⟩ := stores
    obtain rfl : a = 0 := by omega
    have isSet : Mem.bit data page = true := by
      have byte := written (page / 8) bytes
      simp only [Nat.zero_mul, Nat.zero_add, Nat.sub_self] at byte
      rw [Mem.bit, ← byte]
      exact bit
    obtain ⟨-, bits⟩ := kept.published j o die _ _ data (full entry)
    refine (bits page inside isSet).imp_right ?_
    rintro ⟨i, k, before, after, ⟨r, wrote, meant⟩, flush⟩
    -- the page was stored and flushed, so this write of it is on the disk
    have short : j < journal.length := (List.getElem?_eq_some_iff.mp entry).1
    have wrote' := back (by omega) wrote
    have flush' := back (by omega) flush
    obtain ⟨contents, stored⟩ := meant.stores store
    have keptI : keep i = true := by
      obtain ⟨off, len, data, rfl⟩ := meant.write
      exact survives i k _ off len data before wrote' flush'
    refine ⟨i, k, j, before, after, keptI, ⟨r, wrote', meant⟩, flush',
      ⟨_, _, data, o, entry, keptJ, isSet⟩, ?_⟩
    obtain ⟨-, never⟩ | ⟨w, ⟨r', o'⟩, contents', entry', keptW, stores', written', last⟩ :=
      disk_record first keep (Part.pageStride_pos store)
        (fun e old => kept.whole store die e (member e old)) page
    · exact absurd stored (never i _ contents wrote' keptI)
    have late := last i _ contents wrote' keptI stored
    obtain ⟨a, c, data', low, high⟩ := stores'
    obtain ⟨-, page', meant'⟩ := kept.pages _ (member _ (mem_of_getElem? entry')) die _ _ _ rfl
    refine ⟨w, _, _, data', o', late, entry', keptW,
      meant'.of_stores store (.mk a c data' low high), fun b small => ?_⟩
    have byte := written' b small
    obtain ⟨d, rfl⟩ := Nat.exists_eq_add_of_le low
    rw [byte, Nat.add_sub_cancel_left, Nat.add_mul, Nat.add_assoc, Nat.add_sub_cancel_left]

end

/-! ## A snapshot -/

/-- After a snapshot that was not refused, what is on the disk of the pages is what a reader sees,
and every page that was stored is the overlay's. -/
theorem saved_durable (overlay : n.part.overlayDir = true)
    (sound : Sound first (n, n.storageFailed)) (saved : n.iopPreSave.2 = 0) {keep : Nat → Bool}
    (survives : Survives n.iopPreSave.1.disk.journal keep) {page : Nat}
    (inside : page < n.part.pagesPerCe)
    (stored : ∃ e ∈ n.iopPreSave.1.disk.journal, WrittenFor n.part die page e.1) :
    Block.disk first keep n.iopPreSave.1.disk.journal (.ovl die) =
        n.iopPreSave.1.disk.bytes (.ovl die) ∧
      Mem.bit (Block.disk first keep n.iopPreSave.1.disk.journal (.ownership die)) page = true := by
  have well : (n.iopVmState false).storageFailed = false := by
    by_contra failed
    have refused : n.iopPreSave.2 = -5 := by
      rw [iopPreSave]
      simp only [not_eq_false] at failed
      simp [failed]
    rw [refused] at saved
    cases saved
  obtain ⟨after, part, drained⟩ := sound_iopVmState overlay sound
  obtain ⟨drained, settled⟩ := drained well
  rw [iopPreSave_fst] at survives stored ⊢
  generalize n.iopVmState false = m at *
  have calm := after.calm well
  rw [after.kept.view]
  obtain ⟨⟨r, o⟩, member, meant⟩ := stored
  have there : n.part.Populated die := by
    obtain ⟨off, len, data, write⟩ := meant.write
    exact part ▸ (after.kept.pages _ member die off len data write).1
  -- what is flushed later survives
  have durable (f : File) (flushed : ∀ (i : Nat) o off len data,
      m.disk.journal[i]? = some (.write f off len data, o) →
        ∃ k, i < k ∧ m.disk.journal[k]? = some (.flush f, .ok)) :
      Block.disk first keep m.disk.journal f = Block.view first m.disk.journal f := by
    apply disk_eq_view
    intro i off len data o entry
    obtain rfl : o = .ok := calm.fine _ (mem_of_getElem? entry)
    obtain ⟨k, late, flush⟩ := flushed i _ off len data entry
    exact ⟨survives i k _ off len data late entry flush, rfl⟩
  constructor
  · refine durable _ fun i o off len data entry => ?_
    obtain ⟨k, late, flush⟩ := drained.flush die (mem_places there) (part ▸ there)
    -- the pages were all stored before the last flush
    have before : i < n.disk.journal.length := by
      by_contra stays
      exact drained.still i (by omega) die off len data _ entry
    exact ⟨k, by omega, flush⟩
  · rw [durable _ (calm.flushed die (settled die there)), ← after.kept.view, calm.settled die
      (settled die there) page (part ▸ inside)]
    exact calm.taken _ member die page (part ▸ meant)

/-- The overlay's ownership is never published ahead of its pages. In every run that starts as the
device is realized, whatever fails: wherever the run is cut and whichever writes have reached the
disk, a page that the bitmap on the disk gives to the overlay was given to it from the start, or was
stored by a program or an erase and flushed before that bitmap was written, and the disk has what
was stored for it then or later; once anything has failed no bitmap is written any more; and a
snapshot that is not refused finds every page that was stored on the disk, with its bit. -/
theorem ownership_behind_pages (n : Nand) (overlay : n.part.overlayDir = true) (fresh : Fresh n)
    (events : List Event) :
    (∀ journal, journal <+: (events.foldl step n).disk.journal → ∀ keep, Survives journal keep →
      ∀ die page, page < n.part.pagesPerCe →
      Mem.bit (Block.disk n.disk.bytes keep journal (.ownership die)) page = true →
      Mem.bit (n.disk.bytes (.ownership die)) page = true ∨
        Backed n.part n.disk.bytes keep journal die page) ∧
    ((∃ e ∈ (events.foldl step n).disk.journal, e.2 ≠ .ok) →
      ∀ later : List Event,
        Unpublished (events.foldl step n) (later.foldl step (events.foldl step n))) ∧
    ((events.foldl step n).iopPreSave.2 = 0 →
      ∀ keep, Survives (events.foldl step n).iopPreSave.1.disk.journal keep →
      ∀ die page, page < n.part.pagesPerCe →
      (∃ e ∈ (events.foldl step n).iopPreSave.1.disk.journal, WrittenFor n.part die page e.1) →
      Block.disk n.disk.bytes keep (events.foldl step n).iopPreSave.1.disk.journal (.ovl die) =
          (events.foldl step n).iopPreSave.1.disk.bytes (.ovl die) ∧
        Mem.bit (Block.disk n.disk.bytes keep (events.foldl step n).iopPreSave.1.disk.journal
          (.ownership die)) page = true) := by
  obtain ⟨g, store⟩ := Option.isSome_iff_exists.mp (n.part.overlay_store overlay)
  obtain ⟨sound, part, -⟩ := steps_run store overlay (sound_fresh fresh) events
  refine ⟨?_, ?_, ?_⟩
  · intro journal cut keep survives die page inside bit
    have crash := sound.kept.crash (part ▸ store) cut survives (part ▸ inside) bit
    rw [part] at crash
    exact crash
  · rintro ⟨e, member, bad⟩ later
    have failed : (events.foldl step n).storageFailed = true := by
      by_contra unfailed
      exact bad ((sound.calm (eq_false_iff.mpr unfailed)).fine e member)
    exact ((steps_run (part ▸ store) (part ▸ overlay) sound later).latch failed).1
  · intro saved keep survives die page inside stored
    exact saved_durable (part ▸ overlay) sound saved survives (part ▸ inside)
      (part ▸ stored)

theorem small_store_saved :
    Mem.bit (Block.disk smallStore.disk.bytes (fun _ => true)
      (smallStore.step (.op (.program 0 0 1 (fun _ => 0x0f) 1 none))).iopPreSave.1.disk.journal
      (.ownership (0, 0))) 1 = true := by
  have fresh : Fresh smallStore := ⟨rfl, fun _ => rfl, fun _ _ _ => rfl⟩
  have saved := (ownership_behind_pages smallStore rfl fresh
    [.op (.program 0 0 1 (fun _ => 0x0f) 1 none)]).2.2 (by decide +kernel) (fun _ => true)
    (fun _ _ _ _ _ _ _ _ _ => rfl) (0, 0) 1 (by decide)
    ⟨_, mem_of_getElem? (i := 1) rfl, .program _⟩
  exact saved.2

end Run

end QemuIos.Iop.Nand

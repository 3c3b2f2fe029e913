import QemuIos.Guest.Copy

/-!
# An unprivileged caller reaches its own memory only

Whatever the address, the length and the direction, a copy made for a caller in User mode moves only
bytes of pages the probe grants for that access, reports success only with every byte moved, and
shows the caller nothing of any other page (`user_copies_confined`). The fast path may have stopped
half way; the pages are then all probed before the debug access redoes the whole range.
-/

namespace QemuIos.Guest

open Pages Nat

variable {cpu : Cpu} {write : Bool} {va len : Nat} {v v' v'' : View} {ok : Bool}

variable {n : Length} {last : Nat} {w : View}

theorem Cpu.size_pos (cpu : Cpu) : 0 < cpu.size := Nat.two_pow_pos _

/-- The probe grants the caller an access to a page. -/
def Cpu.Grants (cpu : Cpu) (write : Bool) (page : Nat) : Prop :=
  (cpu.probe page write).invalid = false

/-- A frame a page is reached at, through the TLB or through the page tables. -/
def Cpu.Backs (cpu : Cpu) (write : Bool) (page base : Nat) : Prop :=
  (cpu.probe page write).host = some base ∨ cpu.walk page = some base

/-- A byte of a page the caller may access. -/
def Cpu.Reaches (cpu : Cpu) (write : Bool) (k : Nat) : Prop :=
  ∃ page base, cpu.Grants write page ∧ cpu.Backs write page base ∧ base ≤ k ∧ k < base + cpu.size

/-- What a copy made for a caller may have done when it returns. -/
structure Confined (cpu : Cpu) (write : Bool) (va len : Nat) (v : View) (ok : Bool) (v' : View) :
    Prop where
  /-- Each run it has touched lies in one page the probe grants, in the range, and below 2^32. -/
  runs : ∀ run ∈ v'.runs, run ∈ v.runs ∨
    cpu.Grants write (run.1 / cpu.size) ∧ run.1 % cpu.size + run.2 ≤ cpu.size ∧
      va ≤ run.1 ∧ run.1 + run.2 ≤ va + len ∧ run.1 + run.2 ≤ 2 ^ 32
  /-- Memory the caller may not access stays as it is. -/
  memory : ∀ k, ¬ cpu.Reaches write k → v'.mem k = v.mem k
  /-- A load changes no memory, and nothing of the buffer past the range. -/
  load : write = false → v'.mem = v.mem ∧ ∀ j, len ≤ j → v'.buf j = v.buf j
  /-- A store changes nothing of the buffer. -/
  store : write = true → v'.buf = v.buf
  /-- Success means that each page of the range was found, and each byte moved. -/
  complete : ok = true → ∃ frame : Nat → Option Nat,
    (∀ j < len, ∃ base, frame ((va + j) / cpu.size) = some base ∧
      cpu.Grants write ((va + j) / cpu.size) ∧ cpu.Backs write ((va + j) / cpu.size) base) ∧
    (write = false → ∀ j < len, v'.buf j = v.mem (place cpu.size frame (va + j))) ∧
    (write = true → ∃ m, v'.mem = storedBytes cpu.size frame va v.buf len m)

/-- Nothing done is confined, as long as it does not report success. -/
theorem confined_refl : Confined cpu write va len v false v where
  runs _ := .inl
  memory _ _ := rfl
  load _ := ⟨rfl, fun _ _ => rfl⟩
  store _ := rfl
  complete no := Bool.noConfusion no

/-- With no bytes to move there is nothing to do. -/
theorem confined_zero : Confined cpu write va 0 v true v where
  runs _ := .inl
  memory _ _ := rfl
  load _ := ⟨rfl, fun _ _ => rfl⟩
  store _ := rfl
  complete _ :=
    ⟨fun _ => none, fun _ less => absurd less (not_lt_zero _),
      fun _ _ less => absurd less (not_lt_zero _), fun _ => ⟨v.mem, rfl⟩⟩

/-- A second pass over the range, after one that stopped half way. -/
theorem Confined.trans (first : Confined cpu write va len v false v')
    (second : Confined cpu write va len v' ok v'') : Confined cpu write va len v ok v'' where
  runs run member := by
    rcases second.runs run member with before | here
    · exact first.runs run before
    · exact .inr here
  memory k outside := (second.memory k outside).trans (first.memory k outside)
  load loads := by
    obtain ⟨mem, rest⟩ := first.load loads
    obtain ⟨mem', rest'⟩ := second.load loads
    exact ⟨mem'.trans mem, fun j past => (rest' j past).trans (rest j past)⟩
  store stores := (second.store stores).trans (first.store stores)
  complete yes := by
    obtain ⟨frame, found, loaded, stored⟩ := second.complete yes
    refine ⟨frame, found, fun loads j inside => ?_, fun stores => ?_⟩
    · rw [loaded loads j inside, (first.load loads).1]
    · rw [← first.store stores]
      exact stored stores

/-- A lookup that finds only pages the probe grants, at frames that back them. -/
def Lawful (cpu : Cpu) (write : Bool) (frame : Nat → Option Nat) : Prop :=
  ∀ page base, frame page = some base → cpu.Grants write page ∧ cpu.Backs write page base

theorem lawful_ram : Lawful cpu write (cpu.ram write) := by
  intro page base found
  unfold Cpu.ram at found
  split at found
  · cases found
  · next flags =>
    simp only [Bool.or_eq_true, not_or, Bool.not_eq_true] at flags
    exact ⟨flags.1, .inl found⟩

/-- The page-table walk, of pages the probe grants. -/
def Cpu.walkGranted (cpu : Cpu) (write : Bool) (page : Nat) : Option Nat :=
  if (cpu.probe page write).invalid then none else cpu.walk page

theorem lawful_walkGranted : Lawful cpu write (cpu.walkGranted write) := by
  intro page base found
  unfold Cpu.walkGranted at found
  split at found
  · cases found
  · next granted => exact ⟨by simpa [Cpu.Grants] using granted, .inr found⟩

theorem confined_ran {frame : Nat → Option Nat} (lawful : Lawful cpu write frame)
    (low : va + len ≤ 2 ^ 32) (ran : Ran cpu.size frame va len write 0 v ok v') :
    Confined cpu write va len v ok v' where
  runs run member := by
    refine (ran.runs cpu.size_pos run member).imp_right fun within => ?_
    obtain ⟨base, found⟩ := Option.ne_none_iff_exists'.mp within.found
    have high := within.high
    exact ⟨(lawful _ base found).1, within.page, within.low, high, by omega⟩
  memory k outside := by
    refine ran.outside cpu.size_pos fun page base found => ?_
    obtain ⟨grants, backs⟩ := lawful page base found
    by_contra inside
    exact outside ⟨page, base, grants, backs, by omega, by omega⟩
  load loads := by
    subst loads
    exact ⟨ran.load_mem, fun j past => ran.load_rest past⟩
  store stores := by
    subst stores
    exact ran.store_buf
  complete yes := by
    refine ⟨frame, fun j inside => ?_, fun loads j inside => ?_, fun stores => ⟨v.mem, ?_⟩⟩
    · obtain ⟨base, found⟩ :=
        Option.ne_none_iff_exists'.mp (ran.found cpu.size_pos yes (zero_le j) inside)
      exact ⟨base, found, lawful _ base found⟩
    · subst loads
      rw [ran.loaded cpu.size_pos yes (zero_le len), if_pos ⟨zero_le j, inside⟩]
    · subst stores
      exact ran.stored cpu.size_pos yes (zero_le len) rfl

/-! ## The range -/

/-- A range that does not wrap ends at its last byte. -/
theorem lastOf_eq (nonzero : n.bytes ≠ 0) (small : va < 2 ^ 64) (ordered : va ≤ lastOf va n.bytes) :
    lastOf va n.bytes = va + n.bytes - 1 := by
  have object := n.object
  unfold lastOf at ordered ⊢
  omega

/-- The loop that probes goes over every page up to the last. -/
theorem grants_of_probeRange {fuel p : Nat} (ordered : p / cpu.size ≤ last / cpu.size)
    (enough : last / cpu.size - p / cpu.size < fuel)
    (clear : probeRange cpu write last fuel p = none) {page : Nat} (low : p / cpu.size ≤ page)
    (high : page ≤ last / cpu.size) : cpu.Grants write page := by
  induction fuel generalizing p with
  | zero => omega
  | succ fuel ih =>
    unfold probeRange at clear
    split at clear
    · cases clear
    · next granted =>
      have here : cpu.Grants write (p / cpu.size) := by simpa [Cpu.Grants] using granted
      split at clear
      · next only =>
        have same : page = p / cpu.size := by omega
        exact same ▸ here
      · next other =>
        have next' : (p / cpu.size + 1) * cpu.size / cpu.size = p / cpu.size + 1 :=
          Nat.mul_div_cancel _ cpu.size_pos
        by_cases first : page = p / cpu.size
        · exact first ▸ here
        · exact ih (by omega) (by omega) clear (by omega)

theorem rwDebug_eq (ends : last + 1 = va + n.bytes)
    (clear : probeRange cpu write last (pageCount cpu va last) va = none) :
    cpuMemoryRwDebug cpu va n write v =
      copy cpu.size (cpu.walkGranted write) (fun pa n => cpu.bus pa n write) va n.bytes write
        n.bytes 0 v := by
  unfold cpuMemoryRwDebug
  refine copy_congr _ (fun j inside => ?_) 0 v
  have low : va / cpu.size ≤ (va + j) / cpu.size := Nat.div_le_div_right (Nat.le_add_right va j)
  have high : (va + j) / cpu.size ≤ last / cpu.size := Nat.div_le_div_right (by omega)
  have granted := grants_of_probeRange (low.trans high) (Nat.lt_succ_self _) clear low high
  unfold Cpu.walkGranted
  rw [granted]
  rfl

theorem confined_rwDebug (ends : last + 1 = va + n.bytes) (below : last ≤ uint32Max)
    (clear : probeRange cpu write last (pageCount cpu va last) va = none) :
    Confined cpu write va n.bytes v (cpuMemoryRwDebug cpu va n write v).1
      (cpuMemoryRwDebug cpu va n write v).2 := by
  rw [rwDebug_eq ends clear]
  refine confined_ran lawful_walkGranted ?_ (ran_copy cpu.size_pos (by omega))
  unfold uint32Max at below
  omega

theorem guestRwRam_wraps (wraps : lastOf va n.bytes < va ∨ uint32Max < lastOf va n.bytes) :
    guestRwRam cpu va n write v = (false, v) := by
  unfold guestRwRam
  rw [if_pos wraps]

theorem guestRwRam_copies (fits : ¬ (lastOf va n.bytes < va ∨ uint32Max < lastOf va n.bytes)) :
    guestRwRam cpu va n write v =
      copy cpu.size (cpu.ram write) (fun _ n => n) va n.bytes write n.bytes 0 v := by
  unfold guestRwRam
  rw [if_neg fits]

theorem confined_ram (nonzero : n.bytes ≠ 0) (small : va < 2 ^ 64) :
    Confined cpu write va n.bytes v (guestRwRam cpu va n write v).1
      (guestRwRam cpu va n write v).2 := by
  by_cases wraps : lastOf va n.bytes < va ∨ uint32Max < lastOf va n.bytes
  · rw [guestRwRam_wraps wraps]
    exact confined_refl
  rw [guestRwRam_copies wraps]
  have last := lastOf_eq nonzero small (by omega)
  refine confined_ran lawful_ram ?_ (ran_copy cpu.size_pos (by omega))
  unfold uint32Max at wraps
  omega

/-! ## What the caller learns -/

/-- Two views a caller cannot tell apart: the same buffer, and for a load the same bytes in every
page it may read. -/
structure Alike (cpu : Cpu) (write : Bool) (v w : View) : Prop where
  buf : v.buf = w.buf
  mem : write = false → ∀ k, cpu.Reaches false k → v.mem k = w.mem k

/-- Two calls that return the same, to callers that still cannot tell them apart. -/
def SameReturn (cpu : Cpu) (write : Bool) (out out' : Bool × View) : Prop :=
  out.1 = out'.1 ∧ Alike cpu write out.2 out'.2

/-- One pass with a lawful lookup shows the caller nothing but its own pages. -/
theorem sameReturn_copy {frame : Nat → Option Nat} {moved : Nat → Nat → Nat}
    (lawful : Lawful cpu write frame) (alike : Alike cpu write v w) (n : Nat) :
    SameReturn cpu write (copy cpu.size frame moved va n write n 0 v)
      (copy cpu.size frame moved va n write n 0 w) := by
  refine ⟨copy_fst n 0 v w, ?_⟩
  have ran : ∀ u, Ran cpu.size frame va n write 0 u (copy cpu.size frame moved va n write n 0 u).1
      (copy cpu.size frame moved va n write n 0 u).2 := fun u => ran_copy cpu.size_pos (by omega)
  cases write with
  | true =>
    refine ⟨?_, fun no => Bool.noConfusion no⟩
    rw [(ran v).store_buf, (ran w).store_buf, alike.buf]
  | false =>
    refine ⟨copy_buf cpu.size_pos n 0 ?_ alike.buf, fun loads k reach => ?_⟩
    · intro page base found k small
      obtain ⟨grants, backs⟩ := lawful page base found
      exact alike.mem rfl _ ⟨page, base, grants, backs, by omega, by omega⟩
    · rw [(ran v).load_mem, (ran w).load_mem]
      exact alike.mem loads k reach

theorem sameReturn_ram (alike : Alike cpu write v w) :
    SameReturn cpu write (guestRwRam cpu va n write v) (guestRwRam cpu va n write w) := by
  by_cases wraps : lastOf va n.bytes < va ∨ uint32Max < lastOf va n.bytes
  · rw [guestRwRam_wraps wraps, guestRwRam_wraps wraps]
    exact ⟨rfl, alike⟩
  · rw [guestRwRam_copies wraps, guestRwRam_copies wraps]
    exact sameReturn_copy lawful_ram alike n.bytes

theorem sameReturn_rwDebug (ends : last + 1 = va + n.bytes)
    (clear : probeRange cpu write last (pageCount cpu va last) va = none)
    (alike : Alike cpu write v w) :
    SameReturn cpu write (cpuMemoryRwDebug cpu va n write v)
      (cpuMemoryRwDebug cpu va n write w) := by
  rw [rwDebug_eq ends clear, rwDebug_eq ends clear]
  exact sameReturn_copy lawful_walkGranted alike n.bytes

/-! ## The two functions -/

/-- The range of a call whose length is not zero and that does not wrap. -/
theorem lastOf_succ (nonzero : n.bytes ≠ 0) (small : va < 2 ^ 64)
    (ordered : va ≤ lastOf va n.bytes) : lastOf va n.bytes + 1 = va + n.bytes := by
  rw [lastOf_eq nonzero small ordered]
  omega

/-- Below 2^32 nothing wraps. -/
theorem ordered_lastOf (address : UInt32) (nonzero : n.bytes ≠ 0) :
    address.toNat ≤ lastOf address.toNat n.bytes := by
  have small := address.toNat_lt
  have object := n.object
  unfold lastOf
  omega

theorem confined_glesSlow {gf : GuestFault} (nonzero : n.bytes ≠ 0) (small : va < 2 ^ 64) :
    Confined cpu write va n.bytes v (glesGuestSlow cpu gf va n write (lastOf va n.bytes) v).1.1
      (glesGuestSlow cpu gf va n write (lastOf va n.bytes) v).1.2 := by
  unfold glesGuestSlow
  by_cases refused : gf.pending = true ∨ lastOf va n.bytes < va ∨ uint32Max < lastOf va n.bytes
  · rw [if_pos refused]
    exact confined_refl
  rw [if_neg refused]
  rw [not_or, not_or, not_lt, not_lt] at refused
  have last := lastOf_succ nonzero small refused.2.1
  cases probed : probeRange cpu write (lastOf va n.bytes) (pageCount cpu va (lastOf va n.bytes))
    va with
  | some p => exact confined_refl
  | none => exact confined_rwDebug last refused.2.2 probed

theorem confined_glesGuestRw (gf : GuestFault) (address : UInt64) :
    Confined cpu write address.toNat n.bytes v (glesGuestRw cpu gf address n write v).1.1
      (glesGuestRw cpu gf address n write v).1.2 := by
  have small := address.toNat_lt
  unfold glesGuestRw
  by_cases zero : n.bytes = 0
  · rw [if_pos zero]
    unfold cpuMemoryRwDebug
    rw [zero]
    exact confined_zero
  rw [if_neg zero]
  by_cases pending : gf.pending = true
  · rw [if_pos pending]
    exact confined_glesSlow zero small
  rw [if_neg pending]
  have first : Confined cpu write address.toNat n.bytes v
    (guestRwRam cpu address.toNat n write v).1 (guestRwRam cpu address.toNat n write v).2 :=
    confined_ram zero small
  generalize guestRwRam cpu address.toNat n write v = fast at first ⊢
  obtain ⟨done, u⟩ := fast
  cases done with
  | true => exact first
  | false => exact first.trans (confined_glesSlow zero small)

/-- The same for a GL call: what it returns, and the fault it leaves. -/
def SameGles (cpu : Cpu) (write : Bool) (out out' : (Bool × View) × GuestFault) : Prop :=
  SameReturn cpu write out.1 out'.1 ∧ out.2 = out'.2

theorem sameGles_slow {gf : GuestFault} (nonzero : n.bytes ≠ 0) (small : va < 2 ^ 64)
    (alike : Alike cpu write v w) :
    SameGles cpu write (glesGuestSlow cpu gf va n write (lastOf va n.bytes) v)
      (glesGuestSlow cpu gf va n write (lastOf va n.bytes) w) := by
  unfold glesGuestSlow
  by_cases refused : gf.pending = true ∨ lastOf va n.bytes < va ∨ uint32Max < lastOf va n.bytes
  · rw [if_pos refused, if_pos refused]
    exact ⟨⟨rfl, alike⟩, rfl⟩
  rw [if_neg refused, if_neg refused]
  rw [not_or, not_or, not_lt, not_lt] at refused
  have last := lastOf_succ nonzero small refused.2.1
  cases probed : probeRange cpu write (lastOf va n.bytes) (pageCount cpu va (lastOf va n.bytes))
    va with
  | some p => exact ⟨⟨rfl, alike⟩, rfl⟩
  | none => exact ⟨sameReturn_rwDebug last probed alike, rfl⟩

theorem sameGles_glesGuestRw (gf : GuestFault) (address : UInt64) (alike : Alike cpu write v w) :
    SameGles cpu write (glesGuestRw cpu gf address n write v)
      (glesGuestRw cpu gf address n write w) := by
  have small := address.toNat_lt
  unfold glesGuestRw
  by_cases zero : n.bytes = 0
  · rw [if_pos zero, if_pos zero]
    unfold cpuMemoryRwDebug
    rw [zero]
    exact ⟨⟨rfl, alike⟩, rfl⟩
  rw [if_neg zero, if_neg zero]
  by_cases pending : gf.pending = true
  · rw [if_pos pending, if_pos pending]
    exact sameGles_slow zero small alike
  rw [if_neg pending, if_neg pending]
  obtain ⟨same, after⟩ : SameReturn cpu write (guestRwRam cpu address.toNat n write v)
    (guestRwRam cpu address.toNat n write w) := sameReturn_ram alike
  generalize guestRwRam cpu address.toNat n write v = fast at same after ⊢
  generalize guestRwRam cpu address.toNat n write w = fast' at same after ⊢
  obtain ⟨done, u⟩ := fast
  obtain ⟨done', u'⟩ := fast'
  cases same
  cases done with
  | true => exact ⟨⟨rfl, after⟩, rfl⟩
  | false => exact sameGles_slow zero small after

/-- For a caller in User mode the first function is the second, with no fault to raise. -/
theorem guestCopy_eq (user : cpu.user = true) (address : UInt32) :
    guestCopy cpu address n write v =
      (glesGuestRw cpu ⟨false, false, 0, false⟩ address.toUInt64 n write v).1 := by
  unfold guestCopy glesGuestRw
  rw [UInt32.toNat_toUInt64]
  by_cases zero : n.bytes = 0
  · rw [if_pos zero, if_pos zero]
    unfold cpuMemoryRwDebug
    rw [zero]
    rfl
  rw [if_neg zero, if_neg zero, if_neg Bool.false_ne_true]
  by_cases far : uint32Max < lastOf address.toNat n.bytes
  · rw [if_pos far, guestRwRam_wraps (.inr far)]
    show (false, v) = (glesGuestSlow _ _ _ _ _ _ _).1
    unfold glesGuestSlow
    rw [if_pos (.inr (.inr far))]
  rw [if_neg far]
  generalize guestRwRam cpu address.toNat n write v = fast
  obtain ⟨done, u⟩ := fast
  cases done with
  | true => rfl
  | false =>
    have ordered := ordered_lastOf address zero
    show guestCopySlow _ _ _ _ _ _ = (glesGuestSlow _ _ _ _ _ _ _).1
    unfold guestCopySlow glesGuestSlow
    rw [user, Bool.and_true]
    rw [if_neg (show ¬((⟨false, false, 0, false⟩ : GuestFault).pending = true ∨
      lastOf address.toNat n.bytes < address.toNat ∨ uint32Max < lastOf address.toNat n.bytes) by
        rintro (pending | wraps | far')
        · cases pending
        · exact absurd wraps (not_lt.mpr ordered)
        · exact far far')]
    cases probeRange _ _ _ _ _ <;> rfl

/-- Called from User mode, both functions stay within the pages the probe grants for the access,
report success only with every byte moved, and return the same whatever lies in the pages the
caller may not read. -/
theorem user_copies_confined (cpu : Cpu) (user : cpu.user = true) (write : Bool) (n : Length)
    (v : View) :
    (∀ address : UInt32,
      Confined cpu write address.toNat n.bytes v (guestCopy cpu address n write v).1
        (guestCopy cpu address n write v).2 ∧
      ∀ w, Alike cpu write v w →
        SameReturn cpu write (guestCopy cpu address n write v) (guestCopy cpu address n write w)) ∧
    ∀ (gf : GuestFault) (address : UInt64),
      Confined cpu write address.toNat n.bytes v (glesGuestRw cpu gf address n write v).1.1
        (glesGuestRw cpu gf address n write v).1.2 ∧
      ∀ w, Alike cpu write v w →
        SameGles cpu write (glesGuestRw cpu gf address n write v)
          (glesGuestRw cpu gf address n write w) := by
  refine ⟨fun address => ?_, fun gf address =>
    ⟨confined_glesGuestRw gf address, fun _ alike => sameGles_glesGuestRw gf address alike⟩⟩
  have confined : Confined cpu write address.toUInt64.toNat n.bytes v _ _ :=
    confined_glesGuestRw ⟨false, false, 0, false⟩ address.toUInt64
  simp only [guestCopy_eq user]
  exact ⟨address.toNat_toUInt64 ▸ confined, fun _ alike => (sameGles_glesGuestRw _ _ alike).1⟩

/-- A User-mode CPU with two pages: the first is plain RAM, the second device memory. -/
def twoPages : Cpu where
  bits := 12
  user := true
  probe page _ :=
    if page = 1 then ⟨false, false, some 0x8000⟩
    else if page = 2 then ⟨false, true, none⟩
    else ⟨true, false, none⟩
  walk page := if page = 1 then some 0x8000 else if page = 2 then some 0xa000 else none
  bus _ n _ := n

/-- A load of four bytes that starts in the first page and ends in the second takes both paths. -/
theorem twoPages_load :
    let v : View := ⟨fun k => UInt8.ofNat k, fun _ => 0, []⟩
    let load := guestCopy twoPages 0x1ffe ⟨4, by decide⟩ false v
    load.1 = true ∧ Confined twoPages false 0x1ffe 4 v load.1 load.2 :=
  ⟨by decide +kernel, ((user_copies_confined twoPages rfl false ⟨4, by decide⟩ _).1 0x1ffe).1⟩

end QemuIos.Guest

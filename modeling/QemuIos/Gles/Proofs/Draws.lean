import QemuIos.Gles.Proofs.Arrays

/-!
# Draws stay inside what was staged

For every draw the host is given, each array it has on was bound for this draw, holds the guest's
elements from the lowest index on, and is not read past its end; the indices are the guest's,
counted from the lowest (`Safe`). There is one exception. When a page with array data is to be paged
in, a draw of ES 1.1 clears the mark of the vertices to keep the draw from being issued, and so does
not switch the vertices off again. They are still on when the next draw is one of a program, which
does not bind them (`draw_safe_iff`).
-/

namespace QemuIos.Gles

open List

variable {env : Env} {s : Gh} {count first nverts : Nat} {d : Draw}

/-- Where the index list of a draw is. -/
def indexSource (env : Env) (s : Gh) : Mem :=
  match s.elementBuffer with
  | some id => (s.buffers id).byte
  | none => env.guest.byte

/-- The elements the guest asks for. -/
def asked (env : Env) (s : Gh) : Draw → List Nat
  | .arrays _ first count => (List.range count).map (first + ·)
  | .elements _ count type iptr => indexList (Mem.slice (indexSource env s) iptr) type.size count

/-- A draw is given only what was staged for it. -/
structure Safe (env : Env) (s : Gh) (d : Draw) (issue : Issue) : Prop where
  bound : ∀ slot h, issue.host slot = some h → slot ∈ issue.bound
  staged : ∀ slot h, issue.host slot = some h →
    Stages env s.buffers slot (s.array slot) issue.first issue.nverts h
  inside : ∀ slot h, issue.host slot = some h →
    ∀ i ∈ issue.indices, h.pitch * i + h.width ≤ h.data.size
  below : ∀ i ∈ issue.indices, i < issue.nverts
  same : issue.indices.map (issue.first + ·) = asked env s d
  lowest : issue.first ∈ asked env s d
  list : issue.indexBytes ≤ issue.indexRoom
  points : ∀ h, issue.points = some h → ∀ i ∈ issue.indices, h.pitch * i + h.width ≤ h.data.size

/-- What binding arrays one after the other comes to: those that are bound are on with a pointer of
this draw, and no others are switched on. -/
structure Binds (bind : Slot → Bool → Bound × Bool) (slots : List Slot)
    (host : Slot → Option HostArray) (bound : List Slot) (host' : Slot → Option HostArray) :
    Prop where
  on : ∀ slot ∈ bound, slot ∈ slots ∧ ∃ h p p', bind slot p = (.on h, p') ∧ host' slot = some h
  off : ∀ slot ∉ bound, host' slot = host slot ∨ host' slot = none
  others : ∀ slot ∉ slots, host' slot = host slot

theorem bindEach_binds {bind : Slot → Bool → Bound × Bool} {slots : List Slot}
    (distinct : slots.Nodup) (host : Slot → Option HostArray) (pending : Bool) :
    Binds bind slots host (bindEach bind slots host pending).1
      (bindEach bind slots host pending).2.1 := by
  induction slots generalizing host pending with
  | nil => exact ⟨by simp [bindEach], fun slot _ => .inl rfl, fun slot _ => rfl⟩
  | cons first slots ih =>
    obtain ⟨new, distinct⟩ := nodup_cons.mp distinct
    unfold bindEach
    cases binds : bind first pending with
    | mk result pending' =>
      cases result with
      | left =>
        obtain ⟨on, off, others⟩ := ih distinct host pending'
        refine ⟨?_, off, fun slot outside => others slot (by simp_all)⟩
        intro slot inside
        exact (on slot inside).imp_left (mem_cons_of_mem _)
      | off =>
        obtain ⟨on, off, others⟩ := ih distinct (Function.update host first none) pending'
        refine ⟨fun slot inside => (on slot inside).imp_left (mem_cons_of_mem _), ?_, ?_⟩
        · intro slot outside
          by_cases own : slot = first
          · subst own
            have same := others slot new
            rw [Function.update_self] at same
            exact .inr same
          · have same := off slot outside
            rwa [Function.update_of_ne own] at same
        · intro slot outside
          rw [mem_cons, not_or] at outside
          have same := others slot outside.2
          rwa [Function.update_of_ne outside.1] at same
      | on h =>
        obtain ⟨on, off, others⟩ := ih distinct (Function.update host first (some h)) pending'
        refine ⟨?_, ?_, ?_⟩
        · intro slot inside
          rcases mem_cons.mp inside with rfl | inside
          · have same := others slot new
            rw [Function.update_self] at same
            exact ⟨mem_cons_self, h, pending, pending', binds, same⟩
          · exact (on slot inside).imp_left (mem_cons_of_mem _)
        · intro slot outside
          rw [mem_cons, not_or] at outside
          have same := off slot outside.2
          rwa [Function.update_of_ne outside.1] at same
        · intro slot outside
          rw [mem_cons, not_or] at outside
          have same := others slot outside.2
          rwa [Function.update_of_ne outside.1] at same

theorem clientSlots_nodup : clientSlots.Nodup := by decide

theorem attribSlots_nodup : attribSlots.Nodup := by decide

/-- Between calls no array is on at the host but, it may be, the vertices. -/
structure Clean (s : Gh) : Prop where
  host : ∀ slot, slot ≠ .vertex → s.host slot = none
  normal : (s.array .normal).size = 0 ∨ (s.array .normal).size = 3

theorem unbindArrays_clean {bind : Slot → Bool → Bound × Bool} {slots bound : List Slot}
    {host host' : Slot → Option HostArray} (binds : Binds bind slots host bound host')
    (off : ∀ slot, slot ≠ .vertex → host slot = none) {keep : List Slot}
    (kept : ∀ slot, slot ≠ .vertex → slot ∈ bound → slot ∈ keep) :
    ∀ slot, slot ≠ .vertex → unbindArrays host' keep slot = none := by
  intro slot other
  unfold unbindArrays
  split
  · rfl
  · next free =>
    have outside : slot ∉ bound := fun inside => free (kept slot other inside)
    rcases binds.off slot outside with same | absent
    · exact same.trans (off slot other)
    · exact absent

/-- All arrays of ES 1.1: of those that are bound, only the vertices may lose their mark. -/
theorem bindAllArrays_binds (pending : Bool) :
    ∃ on, Binds (fun slot => bindArray env s.buffers slot (s.array slot) first nverts) clientSlots
        s.host on (bindAllArrays env s first nverts pending).2.1 ∧
      (∀ slot ∈ (bindAllArrays env s first nverts pending).1, slot ∈ on) ∧
      ∀ slot, slot ≠ .vertex → slot ∈ on → slot ∈ (bindAllArrays env s first nverts pending).1 := by
  refine ⟨_, bindEach_binds clientSlots_nodup s.host pending, ?_, ?_⟩
  · intro slot inside
    simp only [bindAllArrays] at inside
    split at inside
    · exact (mem_filter.mp inside).1
    · exact inside
  · intro slot other inside
    simp only [bindAllArrays]
    split
    · exact mem_filter.mpr ⟨inside, by simpa using other⟩
    · exact inside

theorem drawBound_clean (clean : Clean s)
    (issue : List Slot → (Slot → Option HostArray) → Option Issue) :
    Clean (drawBound env s first nverts issue).2 := by
  unfold drawBound
  split
  case h_1 => exact clean
  case h_2 pending _ =>
    obtain ⟨on, binds, -, kept⟩ := bindAllArrays_binds pending
    have off := unbindArrays_clean binds clean.host kept
    dsimp only
    split <;> exact ⟨off, clean.normal⟩

theorem es2Draw_clean (clean : Clean s)
    (issue : List Slot → (Slot → Option HostArray) → Option Issue) :
    Clean (es2Draw env s first nverts issue).2 := by
  unfold es2Draw
  split
  case h_1 => exact clean
  case h_2 pending _ =>
    refine ⟨?_, clean.normal⟩
    exact unbindArrays_clean (bindEach_binds attribSlots_nodup s.host pending) clean.host
      fun _ _ inside => inside

/-- What a draw is given besides its arrays. -/
structure Given (env : Env) (s : Gh) (d : Draw) (first nverts : Nat) (bound : List Slot)
    (host : Slot → Option HostArray) (issue : Issue) : Prop where
  boundEq : issue.bound = bound
  hostEq : issue.host = host
  firstEq : issue.first = first
  nvertsEq : issue.nverts = nverts
  below : ∀ i ∈ issue.indices, i < nverts
  same : issue.indices.map (first + ·) = asked env s d
  lowest : first ∈ asked env s d
  list : issue.indexBytes ≤ issue.indexRoom
  points : ∀ h, issue.points = some h → ∀ i ∈ issue.indices, h.pitch * i + h.width ≤ h.data.size

/-- All vertices from `first` on are drawn. -/
theorem given_range (mode first : Nat) (nonzero : count ≠ 0) (bound : List Slot)
    (host : Slot → Option HostArray) {points : Option HostArray}
    (inside : ∀ h, points = some h → ∀ i < count, h.pitch * i + h.width ≤ h.data.size) :
    Given env s (.arrays mode first count) first count bound host
      ⟨bound, host, range count, first, count, 0, 0, points⟩ := by
  refine ⟨rfl, rfl, rfl, rfl, by simp, rfl, ?_, le_refl 0, by simpa using inside⟩
  exact mem_map.mpr ⟨0, by simp; omega, rfl⟩

/-- The sizes of the points are read inside what was fetched. -/
theorem drawSizedPoints_given (mode first : Nat) (nonzero : count ≠ 0) (bound : List Slot)
    (host : Slot → Option HostArray) {issue : Issue}
    (draws : drawSizedPoints env s bound host first count = some issue) :
    Given env s (.arrays mode first count) first count bound host issue := by
  have all : Given env s (.arrays mode first count) first count bound host
      ⟨bound, host, range count, first, count, 0, 0, none⟩ :=
    given_range mode first nonzero bound host (by simp)
  unfold drawSizedPoints at draws
  dsimp only at draws
  split at draws
  case isTrue =>
    cases draws
    exact all
  case isFalse serves =>
    split at draws
    case h_2 =>
      split at draws
      · cases draws
      · cases draws
        exact all
    case h_1 base pending fetched =>
      cases draws
      obtain ⟨-, room⟩ := fetchArray_some fetched
      have four : s.pointsize.type.size = 4 := by
        rcases not_and_or.mp (not_or.mp serves).2 with float | fixed
        · rw [not_not.mp float]
          rfl
        · rw [not_not.mp fixed]
          rfl
      refine given_range mode first nonzero bound host ?_
      intro h same i before
      cases same
      have pitch : HostArray.pitch ⟨1, s.pointsize.type,
          if s.pointsize.stride = 0 then 4 else s.pointsize.stride, base⟩ =
            if s.pointsize.stride = 0 then 4 else s.pointsize.stride := by
        refine if_neg ?_
        change ¬ (if s.pointsize.stride = 0 then 4 else s.pointsize.stride) = 0
        split
        · decide
        · assumption
      rw [pitch, HostArray.width, four]
      exact (mul_add_le before).trans room

/-- The least of some numbers, with a bound none of them reaches. -/
theorem foldl_min_spec (l : List Nat) (top : Nat) :
    (∀ x ∈ l, l.foldl min top ≤ x) ∧ l.foldl min top ≤ top ∧
      (l.foldl min top = top ∨ l.foldl min top ∈ l) := by
  induction l generalizing top with
  | nil => simp
  | cons x l ih =>
    obtain ⟨least, below, among⟩ := ih (min top x)
    refine ⟨?_, below.trans (min_le_left ..), ?_⟩
    · intro y inside
      rcases mem_cons.mp inside with rfl | inside
      · exact below.trans (min_le_right ..)
      · exact least y inside
    · rw [foldl_cons]
      rcases among with same | inside
      · rcases min_choice top x with first | second
        · exact .inl (same.trans first)
        · exact .inr (mem_cons.mpr (.inl (same.trans second)))
      · exact .inr (mem_cons_of_mem _ inside)

/-- The greatest of some numbers. -/
theorem foldl_max_spec (l : List Nat) (first : Nat) :
    first ≤ l.foldl max first ∧ (∀ x ∈ l, x ≤ l.foldl max first) ∧
      ∀ top, first < top → (∀ x ∈ l, x < top) → l.foldl max first < top := by
  induction l generalizing first with
  | nil => simp
  | cons x l ih =>
    obtain ⟨above, greatest, below⟩ := ih (max first x)
    refine ⟨(le_max_left ..).trans above, ?_, ?_⟩
    · intro y inside
      rcases mem_cons.mp inside with rfl | inside
      · exact (le_max_right ..).trans above
      · exact greatest y inside
    · intro top start all
      refine below top (max_lt start (all x mem_cons_self)) ?_
      exact fun y inside => all y (mem_cons_of_mem _ inside)

/-- The rebased indices are the guest's, counted from the lowest. -/
theorem rebaseIndices_some {idx out : List Nat} {inScratch : Bool} {need : Nat}
    (nonempty : idx ≠ []) (small : ∀ v ∈ idx, v < 2 ^ 16)
    (rebases : rebaseIndices idx inScratch need = some (first, nverts, out)) :
    out.map (first + ·) = idx ∧ first ∈ idx ∧ (∀ i ∈ out, i < nverts) ∧ nverts ≠ 0 := by
  have long : ¬ idx.length = 0 := by simpa using nonempty
  obtain ⟨least, -, among⟩ := foldl_min_spec idx (2 ^ 32 - 1)
  obtain ⟨-, greatest, below⟩ := foldl_max_spec idx 0
  have hi := below (2 ^ 16) (by decide) small
  have inside : idx.foldl min (2 ^ 32 - 1) ∈ idx := by
    refine among.resolve_left fun top => ?_
    obtain ⟨v, inside⟩ := exists_mem_of_ne_nil idx nonempty
    have low := least v inside
    have high := small v inside
    omega
  have order := greatest _ inside
  unfold rebaseIndices at rebases
  simp only [if_neg long] at rebases
  have count : (idx.foldl max 0 - idx.foldl min (2 ^ 32 - 1) + 1) % 2 ^ 32 =
      idx.foldl max 0 - idx.foldl min (2 ^ 32 - 1) + 1 := Nat.mod_eq_of_lt (by omega)
  rw [count] at rebases
  split at rebases
  case isTrue zero =>
    cases rebases
    refine ⟨by simp, zero ▸ inside, ?_, by omega⟩
    intro v inside
    have high := greatest v inside
    omega
  case isFalse =>
    split at rebases
    case isFalse => cases rebases
    cases rebases
    refine ⟨?_, inside, ?_, by omega⟩
    · rw [map_map]
      refine (map_congr_left fun v among => ?_).trans (map_id idx)
      have low := least v among
      simp only [Function.comp_apply, id_eq]
      omega
    · intro i rebased
      obtain ⟨v, among, rfl⟩ := mem_map.mp rebased
      have high := greatest v among
      omega

theorem indexList_small (m : Mem) (isz count : Nat) : ∀ v ∈ indexList m isz count, v < 2 ^ 16 := by
  intro v inside
  obtain ⟨i, -, rfl⟩ := mem_map.mp inside
  split
  · exact (UInt8.toNat_lt _).trans (by decide)
  · exact Mem.half_lt ..

theorem fetchIndices_some {need iptr : Nat} {region : Region}
    (fetched : fetchIndices env s need iptr = some region) :
    region.byte = Mem.slice (indexSource env s) iptr ∧ need ≤ region.size := by
  unfold fetchIndices at fetched
  unfold indexSource
  cases buffer : s.elementBuffer with
  | some id =>
    simp only [buffer] at fetched
    split at fetched
    case isFalse => cases fetched
    case isTrue inside =>
      cases fetched
      simp only [rangeOk, Bool.and_eq_true, decide_eq_true_eq] at inside
      exact ⟨rfl, inside.2⟩
  | none =>
    simp only [buffer] at fetched
    split at fetched
    case isFalse => cases fetched
    case isTrue =>
      have read : env.guest.read iptr need false =
          (some region, (env.guest.read iptr need false).2) := Prod.ext fetched rfl
      rw [Guest.read_some read]
      exact ⟨rfl, le_refl need⟩

/-- The index list of a draw. -/
theorem stageIndices_some {iptr : Nat} {type : GlType} {room : Nat} {idx : List Nat}
    (nonzero : count ≠ 0) (mode : Nat)
    (staged : stageIndices env s count type iptr = some (first, nverts, idx, room))
    (bound : List Slot) (host : Slot → Option HostArray) :
    Given env s (.elements mode count type iptr) first nverts bound host
      ⟨bound, host, idx, first, nverts, count * type.size, room, none⟩ ∧ nverts ≠ 0 := by
  unfold stageIndices at staged
  dsimp only at staged
  split at staged
  case h_1 => cases staged
  case h_2 region fetched =>
    obtain ⟨bytes, enough⟩ := fetchIndices_some fetched
    split at staged
    case h_1 => cases staged
    case h_2 rebased =>
      cases staged
      have long : indexList region.byte type.size count ≠ [] := by
        simpa [indexList] using nonzero
      obtain ⟨same, lowest, below, vertices⟩ :=
        rebaseIndices_some long (indexList_small _ _ _) rebased
      rw [bytes] at same lowest
      refine ⟨⟨rfl, rfl, rfl, rfl, below, same, lowest, ?_, by simp⟩, vertices⟩
      dsimp only
      split
      · exact enough
      · exact le_refl _

/-- What a draw call comes to: nothing, or the binding of arrays of one of the two kinds. -/
inductive Drawn (env : Env) (s : Gh) (d : Draw) : Option Issue × Gh → Prop where
  | nothing : Drawn env s d (none, s)
  | client {first nverts : Nat} {issue : List Slot → (Slot → Option HostArray) → Option Issue}
      (program : s.program = 0) (given : nverts ≠ 0 → ∀ bound host i, issue bound host = some i →
        Given env s d first nverts bound host i) :
      Drawn env s d (drawBound env s first nverts issue)
  | generic {first nverts : Nat} {issue : List Slot → (Slot → Option HostArray) → Option Issue}
      (program : s.program ≠ 0) (given : ∀ bound host i, issue bound host = some i →
        Given env s d first nverts bound host i) :
      Drawn env s d (es2Draw env s first nverts issue)

theorem drawn (env : Env) (s : Gh) (d : Draw) : Drawn env s d (draw env s d) := by
  cases d with
  | arrays mode first count =>
    dsimp only [draw]
    by_cases program : s.program = 0
    · rw [if_neg (not_not.mpr program)]
      by_cases enabled : (s.array .vertex).enabled = false
      · rw [if_pos enabled]
        exact .nothing
      rw [if_neg enabled]
      refine .client program ?_
      intro nonzero bound host i issued
      split at issued
      · exact drawSizedPoints_given mode first nonzero bound host issued
      · cases issued
        exact given_range mode first nonzero bound host (by simp)
    · rw [if_pos program]
      by_cases zero : count = 0
      · rw [if_pos zero]
        exact .nothing
      rw [if_neg zero]
      refine .generic program ?_
      intro bound host i issued
      cases issued
      exact given_range mode first zero bound host (by simp)
  | elements mode count type iptr =>
    dsimp only [draw]
    split
    case isTrue => exact .nothing
    case isFalse serves =>
      have nonzero : count ≠ 0 := fun zero => serves (.inl zero)
      split
      case h_1 => exact .nothing
      case h_2 first nverts idx room staged =>
        by_cases program : s.program = 0
        · rw [if_neg (not_not.mpr program)]
          refine .client program ?_
          intro _ bound host i issued
          cases issued
          exact (stageIndices_some nonzero mode staged bound host).1
        · rw [if_pos program]
          refine .generic program ?_
          intro bound host i issued
          cases issued
          exact (stageIndices_some nonzero mode staged bound host).1

theorem draw_clean (clean : Clean s) : Clean (draw env s d).2 := by
  have comes := drawn env s d
  generalize draw env s d = result at comes ⊢
  cases comes with
  | nothing => exact clean
  | client program given => exact drawBound_clean clean _
  | generic program given => exact es2Draw_clean clean _

theorem Given.safe {bound : List Slot} {host : Slot → Option HostArray} {issue : Issue}
    (given : Given env s d first nverts bound host issue) (own : ∀ slot h, host slot = some h →
      slot ∈ bound ∧ Stages env s.buffers slot (s.array slot) first nverts h) :
    Safe env s d issue := by
  obtain ⟨boundEq, hostEq, firstEq, nvertsEq, below, same, lowest, list, points⟩ := given
  refine ⟨?_, ?_, ?_, ?_, ?_, ?_, list, points⟩
  · rw [hostEq, boundEq]
    exact fun slot h on => (own slot h on).1
  · rw [hostEq, firstEq, nvertsEq]
    exact fun slot h on => (own slot h on).2
  · rw [hostEq]
    exact fun slot h on i inside => (own slot h on).2.inside i (below i inside)
  · rw [nvertsEq]
    exact below
  · rw [firstEq]
    exact same
  · rw [firstEq]
    exact lowest

theorem clientSlots_hostSize (clean : Clean s) {slot : Slot} (sized : (s.array slot).size ≠ 0) :
    hostSize slot (s.array slot) = (s.array slot).size := by
  cases slot with
  | normal => exact (clean.normal.resolve_left sized).symm
  | _ => rfl

variable {issue : List Slot → (Slot → Option HostArray) → Option Issue}

/-- Without a program the vertices are bound anew for every draw that is issued. -/
theorem drawBound_safe {i : Issue}
    (clean : Clean s) (given : nverts ≠ 0 → ∀ bound host i, issue bound host = some i →
      Given env s d first nverts bound host i)
    (issued : (drawBound env s first nverts issue).1 = some i) : Safe env s d i := by
  unfold drawBound at issued
  split at issued
  case h_1 => cases issued
  case h_2 pending _ =>
    obtain ⟨on, binds, among, kept⟩ := bindAllArrays_binds pending
    dsimp only at issued
    split at issued
    case isFalse => cases issued
    case isTrue vertices =>
      have staged : ∀ slot ∈ on, ∃ h, (bindAllArrays env s first nverts pending).2.1 slot = some h ∧
          Stages env s.buffers slot (s.array slot) first nverts h ∧ nverts ≠ 0 := by
        intro slot inside
        obtain ⟨-, h, p, p', bound, same⟩ := binds.on slot inside
        exact ⟨h, same, bindArray_stages (clientSlots_hostSize clean) bound⟩
      obtain ⟨-, -, -, nonzero⟩ := staged .vertex (among .vertex vertices)
      refine (given nonzero _ _ i issued).safe ?_
      intro slot h bound
      by_cases inside : slot ∈ on
      · obtain ⟨h', same, stages, -⟩ := staged slot inside
        rw [bound] at same
        cases same
        refine ⟨?_, stages⟩
        by_cases own : slot = .vertex
        · rw [own]
          exact vertices
        · exact kept slot own inside
      · have other : slot ≠ .vertex := fun same => inside (same ▸ among .vertex vertices)
        rcases binds.off slot inside with same | absent
        · rw [bound, clean.host slot other] at same
          cases same
        · rw [bound] at absent
          cases absent

/-- With a program the vertices are not bound: they must be off. -/
theorem es2Draw_safe_iff {i : Issue} (clean : Clean s)
    (given : ∀ bound host i, issue bound host = some i → Given env s d first nverts bound host i)
    (issued : (es2Draw env s first nverts issue).1 = some i) :
    Safe env s d i ↔ s.host .vertex = none := by
  unfold es2Draw at issued
  split at issued
  case h_1 => cases issued
  case h_2 pending _ =>
    have binds := @bindEach_binds (fun slot => es2BindAttr env s.buffers slot (s.array slot)
      first nverts) _ attribSlots_nodup s.host pending
    generalize bindEach _ attribSlots s.host pending = result at binds issued
    obtain ⟨bound, host, pending'⟩ := result
    dsimp only at binds issued
    split at issued
    case isTrue => cases issued
    case isFalse =>
      have vertex : Slot.vertex ∉ attribSlots := by decide
      have shows := given bound host i issued
      constructor
      · intro safe
        rw [← binds.others .vertex vertex]
        by_contra on
        obtain ⟨h, on⟩ := Option.ne_none_iff_exists'.mp on
        have inside := safe.bound .vertex h (shows.hostEq ▸ on)
        rw [shows.boundEq] at inside
        exact vertex (binds.on .vertex inside).1
      · intro off
        refine shows.safe ?_
        intro slot h on
        by_cases inside : slot ∈ bound
        · obtain ⟨among, h', p, p', bound', same⟩ := binds.on slot inside
          rw [on] at same
          cases same
          obtain ⟨n, -, rfl⟩ := mem_map.mp among
          exact ⟨inside, (es2BindAttr_stages bound').1⟩
        · have absent : s.host slot = none := by
            by_cases own : slot = .vertex
            · rw [own]
              exact off
            · exact clean.host slot own
          rcases binds.off slot inside with same | same
          · rw [on, absent] at same
            cases same
          · rw [on] at same
            cases same

theorem setPointer_size (a : GLESArray) (size : Nat) (type : GlType) (stride ptr : Nat)
    (vbo : Option Nat) :
    (setPointer a size type stride ptr vbo).size = size ∨
      setPointer a size type stride ptr vbo = a := by
  unfold setPointer
  split
  · exact .inl rfl
  · exact .inr rfl

theorem step_clean (clean : Clean s) (e : Event) : Clean (step s e) := by
  cases e with
  | pointer slot size type stride ptr =>
    refine ⟨clean.host, ?_⟩
    dsimp only [step]
    by_cases own : slot = .normal
    · subst own
      rw [Function.update_self]
      rcases setPointer_size (s.array .normal) (pointerSize .normal size) type stride ptr
        s.arrayBuffer with three | same
      · exact .inr three
      · rw [same]
        exact clean.normal
    · rw [Function.update_of_ne (Ne.symm own)]
      exact clean.normal
  | enable slot on =>
    refine ⟨clean.host, ?_⟩
    dsimp only [step]
    by_cases own : slot = .normal
    · subst own
      rw [Function.update_self]
      exact clean.normal
    · rw [Function.update_of_ne (Ne.symm own)]
      exact clean.normal
  | bindBuffer elements buffer =>
    dsimp only [step]
    split <;> exact ⟨clean.host, clean.normal⟩
  | draw env d => exact draw_clean clean
  | pointSizePointer | enablePointSize | store | useProgram => exact ⟨clean.host, clean.normal⟩

theorem run_clean (clean : Clean s) (events : List Event) : Clean (events.foldl step s) := by
  induction events generalizing s with
  | nil => exact clean
  | cons e events ih => exact ih (step_clean clean e)

theorem new_clean : Clean Gh.new := ⟨fun _ _ => rfl, .inl rfl⟩

/-- Whatever calls came before: a draw the host is given stays inside what was staged for it exactly
if no program is used or no draw before has left the vertices on. -/
theorem draw_safe_iff (events : List Event) (env : Env) (d : Draw) (issue : Issue)
    (issued : (draw env (events.foldl step Gh.new) d).1 = some issue) :
    Safe env (events.foldl step Gh.new) d issue ↔
      (events.foldl step Gh.new).program = 0 ∨ (events.foldl step Gh.new).host .vertex = none := by
  have clean := run_clean new_clean events
  generalize events.foldl step Gh.new = s at clean issued ⊢
  have comes := drawn env s d
  generalize draw env s d = result at comes issued
  cases comes with
  | nothing => cases issued
  | client program given =>
    exact iff_of_true (drawBound_safe clean given issued) (.inl program)
  | generic program given =>
    rw [es2Draw_safe_iff clean given issued, or_iff_right program]

/-- Guest memory of which the pages from 8192 on are to be paged in. -/
def pagedOut : Env where
  guest := ⟨fun _ => 0, fun off _ => if off < 8192 then .mapped else .faults⟩
  floats := ⟨fun _ => 0, fun _ => 0⟩
  accepts := fun _ => true
  refresh := some false

/-- Vertices at 4096. -/
def vertexArray : List Event := [.enable .vertex true, .pointer .vertex 2 .float 0 4096]

theorem draw_safe_iff_vertices :
    ∃ issue, (draw pagedOut (vertexArray.foldl step Gh.new) (.arrays 4 0 3)).1 = some issue ∧
      Safe pagedOut (vertexArray.foldl step Gh.new) (.arrays 4 0 3) issue :=
  ⟨_, rfl, (draw_safe_iff vertexArray pagedOut (.arrays 4 0 3) _ rfl).mpr (.inl rfl)⟩

/-- One vertex is bound, the colours are on a page that is to be paged in. -/
def cutOff : List Event :=
  vertexArray ++ [.enable .color true, .pointer .color 4 .unsignedByte 0 8192,
    .draw pagedOut (.arrays 4 0 1), .useProgram 1]

/-- The draw that was cut off leaves the vertices on: a draw of two vertices with a program reads
past the one that was copied. -/
theorem vertices_left_on :
    ∃ issue h, (draw pagedOut (cutOff.foldl step Gh.new) (.arrays 4 0 2)).1 = some issue ∧
      issue.host .vertex = some h ∧ 1 ∈ issue.indices ∧ h.data.size < h.pitch * 1 + h.width :=
  ⟨_, _, rfl, rfl, by decide, by decide⟩

end QemuIos.Gles

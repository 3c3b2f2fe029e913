import QemuIos.ItBoot.Run

/-!
# What the operations of a run leave alone

Only `flip` touches `current` and only `saveState` the state file: everything else a run does
keeps both (`Boot.Keeps`), and what comes after the offer also keeps the packages
(`Boot.KeepsPkgs`). A device whose power is gone stays so.
-/

namespace QemuIos.ItBoot
open CText FileTree Option

/-- Later in a run, before the state is saved and the run reports. -/
structure Boot.Later (b b' : Boot) : Prop where
  state : b'.disk.state = b.disk.state
  dirSize : b'.disk.dirSize = b.disk.dirSize
  reports : b'.reports = b.reports
  dead : b.dead → b'.dead
  power : b.power = none → b'.power = none

/-- As `Later`, and `current` did not move. -/
structure Boot.Keeps (b b' : Boot) : Prop extends Boot.Later b b' where
  current : b'.disk.current = b.disk.current

/-- As `Keeps`, and the packages are the same. -/
structure Boot.KeepsPkgs (b b' : Boot) : Prop extends Boot.Keeps b b' where
  pkgs : b'.disk.pkgs = b.disk.pkgs

theorem Boot.Later.refl (b : Boot) : b.Later b := ⟨rfl, rfl, rfl, id, id⟩

theorem Boot.Keeps.refl (b : Boot) : b.Keeps b := ⟨.refl b, rfl⟩

theorem Boot.KeepsPkgs.refl (b : Boot) : b.KeepsPkgs b := ⟨.refl b, rfl⟩

variable {b b' b'' : Boot}

theorem Boot.Later.trans (first : b.Later b') (second : b'.Later b'') : b.Later b'' where
  state := second.state.trans first.state
  dirSize := second.dirSize.trans first.dirSize
  reports := second.reports.trans first.reports
  dead := second.dead ∘ first.dead
  power := second.power ∘ first.power

theorem Boot.Keeps.trans (first : b.Keeps b') (second : b'.Keeps b'') : b.Keeps b'' :=
  ⟨first.toLater.trans second.toLater, second.current.trans first.current⟩

theorem Boot.KeepsPkgs.trans (first : b.KeepsPkgs b') (second : b'.KeepsPkgs b'') :
    b.KeepsPkgs b'' :=
  ⟨first.toKeeps.trans second.toKeeps, second.pkgs.trans first.pkgs⟩

@[simp] theorem Boot.write_reports (b : Boot) (f : Disk → Disk) :
    (b.write f).reports = b.reports := by
  unfold Boot.write
  split <;> rfl

theorem Boot.write_dead (b : Boot) (f : Disk → Disk) (dead : b.dead) : b.write f = b :=
  if_pos dead

theorem Boot.write_power (b : Boot) (f : Disk → Disk) (on : b.power = none) :
    b.write f = { b with disk := f b.disk } := by
  have alive : b.dead = false := by simp [Boot.dead, on]
  obtain ⟨disk, power, launched, reports, respringNeeded⟩ := b
  subst on
  simp [Boot.write, alive]

/-- A step is one of `f`'s disk and the old one, and moves no power back. -/
theorem Boot.write_disk (b : Boot) (f : Disk → Disk) :
    (b.write f).disk = b.disk ∨ (b.write f).disk = f b.disk := by
  unfold Boot.write
  split
  · exact .inl rfl
  · exact .inr rfl

theorem Boot.write_keeps (b : Boot) {f : Disk → Disk}
    (current : (f b.disk).current = b.disk.current) (state : (f b.disk).state = b.disk.state)
    (dirSize : (f b.disk).dirSize = b.disk.dirSize) : b.Keeps (b.write f) where
  current := by
    rcases b.write_disk f with eq | eq
    · rw [eq]
    · rw [eq, current]
  state := by
    rcases b.write_disk f with eq | eq
    · rw [eq]
    · rw [eq, state]
  dirSize := by
    rcases b.write_disk f with eq | eq
    · rw [eq]
    · rw [eq, dirSize]
  reports := b.write_reports f
  dead dead := by rwa [b.write_dead f dead]
  power on := by rw [b.write_power f on]; exact on

theorem Boot.onPkgs_keeps {fault : Bool} {f : Tree → Except Errno Tree}
    (done : b.onPkgs fault f = some b') : b.Keeps b' := by
  unfold Boot.onPkgs at done
  split at done
  · cases done
    exact b.write_keeps rfl rfl rfl
  · cases done

theorem Boot.onSys_keeps {fault : Bool} {f : Tree → Except Errno Tree}
    (done : b.onSys fault f = some b') : b.KeepsPkgs b' := by
  unfold Boot.onSys at done
  split at done
  · rename_i t _
    cases done
    refine ⟨b.write_keeps rfl rfl rfl, ?_⟩
    rcases b.write_disk (fun d => { d with sys := t }) with eq | eq <;> rw [eq]
  · cases done

theorem Boot.launch_keeps (b : Boot) (calls : List (Bytes × Bytes)) :
    b.KeepsPkgs (b.launch calls) := by
  unfold Boot.launch
  split
  · exact .refl b
  · exact ⟨⟨⟨rfl, rfl, rfl, id, id⟩, rfl⟩, rfl⟩

/-! ## Installing -/

variable (env : Env)

theorem removePkg_keeps (site : Removal) (name : Bytes) (b : Boot) :
    b.Keeps (removePkg env site name b) := b.write_keeps rfl rfl rfl

theorem fetch_keeps (i : Nat) (e : Entry) (dst : Bytes) (b : Boot) :
    b.Keeps (fetch env i e dst b).1 := by
  unfold fetch
  split
  · exact .refl b
  · split
    · exact .refl b
    · rename_i made
      have made := Boot.onPkgs_keeps made
      split
      · exact made
      · rename_i opened
        have opened := made.trans (Boot.onPkgs_keeps opened)
        dsimp only
        split
        · exact opened
        · split
          · exact opened
          · split
            · exact opened
            · rename_i written
              have written := opened.trans (Boot.onPkgs_keeps written)
              split
              · split <;> exact written
              · exact written

theorem fetchAll_keeps (tmp : Bytes) (i : Nat) (es : List Entry) (b : Boot) :
    b.Keeps (fetchAll env tmp i es b).1 := by
  induction es generalizing i b with
  | nil => exact .refl b
  | cons e es ih =>
    have one := fetch_keeps env i e (tmp ++ 47 :: e.path) b
    unfold fetchAll
    dsimp only
    split
    · exact one.trans (ih _ _)
    · exact one

theorem writeRecord_keeps (path text : Bytes) (b : Boot) :
    b.Keeps (writeRecord env path text b).1 := by
  unfold writeRecord
  split
  · exact .refl b
  rename_i written
  have written := Boot.onPkgs_keeps written
  split
  · exact written
  · rename_i renamed
    exact written.trans (Boot.onPkgs_keeps renamed)

theorem stage_keeps (o : Offer) (text : Bytes) (b : Boot) :
    b.Keeps (stage env o text b).1 := by
  have fetched := fetchAll_keeps env (stageName o.serial) 0 o.entries b
  unfold stage
  dsimp only
  split
  · exact fetched.trans (writeRecord_keeps ..)
  · exact fetched

theorem install_keeps (o : Offer) (text : Bytes) (b : Boot) :
    b.Keeps (install env o text b).1 := by
  unfold install
  dsimp only
  split
  · exact .refl b
  · split
    · exact removePkg_keeps ..
    · rename_i made
      have made := (removePkg_keeps ..).trans (Boot.onPkgs_keeps made)
      have staged := made.trans (stage_keeps env o text _)
      split
      · exact staged.trans (removePkg_keeps ..)
      · have cleared := staged.trans (removePkg_keeps env .old (decimal o.serial) _)
        split
        · exact cleared.trans (removePkg_keeps ..)
        · rename_i renamed
          exact cleared.trans (Boot.onPkgs_keeps renamed)

/-! ## Installing does not look at `current` -/

/-- The device with another link at `current`. -/
def Boot.pointed (b : Boot) (link : Option Bytes) : Boot :=
  { b with disk := { b.disk with current := link } }

section Pointed
variable (link : Option Bytes)

theorem Boot.onPkgs_pointed (fault : Bool) (f : Tree → Except Errno Tree) :
    (b.pointed link).onPkgs fault f = (b.onPkgs fault f).map (·.pointed link) := by
  cases dead : b.dead <;> cases result : f b.disk.pkgs <;> cases fault <;>
    simp_all [Boot.onPkgs, Boot.pointed, Boot.write, Boot.dead]

theorem removePkg_pointed (site : Removal) (name : Bytes) :
    removePkg env site name (b.pointed link) = (removePkg env site name b).pointed link := by
  cases dead : b.dead <;> simp_all [removePkg, Boot.pointed, Boot.write, Boot.dead]

theorem fetch_pointed (i : Nat) (e : Entry) (dst : Bytes) (b : Boot) :
    fetch env i e dst (b.pointed link) =
      ((fetch env i e dst b).1.pointed link, (fetch env i e dst b).2) := by
  unfold fetch
  split
  · rfl
  · rw [Boot.onPkgs_pointed]
    cases b.onPkgs (env.fails (.fetch i .mkparent)) (mkparent · dst) with
    | none => rfl
    | some b =>
      dsimp only [map_some]
      rw [Boot.onPkgs_pointed]
      cases b.onPkgs (env.fails (.fetch i .open)) (writeFile · dst [] 0o600) with
      | none => rfl
      | some b =>
        dsimp only [map_some]
        split
        · rfl
        · rename_i data _
          split
          · rfl
          · rw [Boot.onPkgs_pointed]
            cases b.onPkgs (env.fails (.fetch i .chmod)) (writeFile · dst data e.mode) with
            | none => rfl
            | some b =>
              dsimp only [map_some]
              split
              · split <;> rfl
              · rfl

theorem fetchAll_pointed (tmp : Bytes) (i : Nat) (es : List Entry) (b : Boot) :
    fetchAll env tmp i es (b.pointed link) =
      ((fetchAll env tmp i es b).1.pointed link, (fetchAll env tmp i es b).2) := by
  induction es generalizing i b with
  | nil => rfl
  | cons e es ih =>
    simp only [fetchAll, fetch_pointed]
    split
    · exact ih _ _
    · rfl

theorem writeRecord_pointed (path text : Bytes) :
    writeRecord env path text (b.pointed link) =
      ((writeRecord env path text b).1.pointed link, (writeRecord env path text b).2) := by
  unfold writeRecord
  rw [Boot.onPkgs_pointed]
  cases b.onPkgs (env.fails .record) (writeFile · (path ++ ascii ".lt-new") text 0o644) with
  | none => rfl
  | some b =>
    dsimp only [map_some]
    rw [Boot.onPkgs_pointed]
    cases b.onPkgs false (renameFile · (path ++ ascii ".lt-new") path) <;> rfl

theorem stage_pointed (o : Offer) (text : Bytes) :
    stage env o text (b.pointed link) =
      ((stage env o text b).1.pointed link, (stage env o text b).2) := by
  simp only [stage, fetchAll_pointed]
  split
  · exact writeRecord_pointed ..
  · rfl

theorem install_pointed (o : Offer) (text : Bytes) (b : Boot) :
    install env o text (b.pointed link) =
      ((install env o text b).1.pointed link, (install env o text b).2) := by
  simp only [install, removePkg_pointed, Boot.onPkgs_pointed]
  split
  · rfl
  cases (removePkg env .stale (stageName o.serial) b).onPkgs (env.fails .stage)
      (mkdirs · (stageName o.serial)) with
  | none => rfl
  | some b =>
    simp only [map_some, stage_pointed, removePkg_pointed, Boot.onPkgs_pointed]
    split
    · rfl
    · cases (removePkg env .old (decimal o.serial) (stage env o text b).1).onPkgs
          (env.fails .rename) (renameDir · [stageName o.serial] [decimal o.serial]) <;> rfl

end Pointed

/-! ## Activation -/

theorem jobs_keeps (serial : Int) (verb : Bytes) (b : Boot) : b.KeepsPkgs (jobs serial verb b) := by
  unfold jobs
  split
  · exact .refl b
  · exact b.launch_keeps _

theorem respring_keeps : b.KeepsPkgs (respring b) := by
  unfold respring
  split
  · exact b.launch_keeps _
  · exact .refl b

theorem Boot.respringNeeded_keeps (needed : Bool) :
    b.KeepsPkgs { b with respringNeeded := needed } := ⟨⟨⟨rfl, rfl, rfl, id, id⟩, rfl⟩, rfl⟩

theorem copyAtomic_keeps {fault : Bool} {data dst : Bytes} {mode : Nat}
    (done : copyAtomic fault data mode dst b = some b') : b.KeepsPkgs b' := by
  unfold copyAtomic at done
  split at done
  · cases done
  · rename_i written
    exact (Boot.onSys_keeps written).trans (Boot.onSys_keeps done)

theorem keepOriginal_keeps {env : Env} {k : Nat} {target : Bytes}
    (done : keepOriginal env k target b = some b') : b.KeepsPkgs b' := by
  unfold keepOriginal at done
  split at done
  · split at done
    · rename_i linked
      cases done
      exact Boot.onSys_keeps linked
    · split at done
      · exact copyAtomic_keeps done
      · cases done
  · split at done
    · split at done
      · cases done
      · rename_i made
        exact (Boot.onSys_keeps made).trans (Boot.onSys_keeps done)
    · cases done
  · cases done

theorem refresh_keeps (k : Nat) (hook : Hook) (source : Source) :
    b.KeepsPkgs (refresh env k hook source b) := by
  unfold refresh
  split
  · exact .refl b
  have made : b.KeepsPkgs
      ((b.onSys (env.fails (.hook k .mkparent)) (mkparent · hook.target)).getD b) := by
    cases done : b.onSys (env.fails (.hook k .mkparent)) (mkparent · hook.target) with
    | none => exact .refl b
    | some b' => exact Boot.onSys_keeps done
  dsimp only
  split
  · split
    · rename_i copied
      exact made.trans ((copyAtomic_keeps copied).trans (Boot.respringNeeded_keeps ..))
    · exact made
  · exact made

theorem applyHook_keeps (serial : Int) (entries : List Entry) (k : Nat) (hook : Hook)
    (b : Boot) : b.KeepsPkgs (applyHook env serial entries k hook b) := by
  unfold applyHook
  dsimp only
  split
  · exact .refl b
  split
  · split
    · rename_i kept
      exact (keepOriginal_keeps kept).trans (refresh_keeps ..)
    · exact .refl b
  · exact refresh_keeps ..
  · split
    · rename_i removed
      exact (Boot.onSys_keeps removed).trans (Boot.respringNeeded_keeps ..)
    · exact .refl b
  · exact refresh_keeps ..
  · exact .refl b

theorem applyHooksFrom_keeps (serial : Int) (entries : List Entry) (k : Nat)
    (hooks : List Hook) (b : Boot) :
    b.KeepsPkgs (applyHooksFrom env serial entries k hooks b) := by
  induction hooks generalizing k b with
  | nil => exact .refl b
  | cons hook hooks ih => exact (applyHook_keeps ..).trans (ih _ _)

theorem applyHooks_keeps (serial : Int) (st : State) (b : Boot) :
    b.KeepsPkgs (applyHooks env serial st b).2 := applyHooksFrom_keeps ..

theorem activate_keeps (start : Int) (l : Locals) :
    l.boot.KeepsPkgs (activate env start l).boot := by
  have unloaded : ∀ b : Boot, b.KeepsPkgs
      (if start ≠ l.cur ∧ 0 ≤ start then jobs start (ascii "unload") b else b) := by
    intro b
    split
    · exact jobs_keeps ..
    · exact .refl b
  by_cases usable : 0 ≤ l.cur
  · simp only [activate, if_pos usable]
    exact (applyHooks_keeps env l.cur l.st l.boot).trans
      ((unloaded _).trans ((jobs_keeps ..).trans respring_keeps))
  · simp only [activate, if_neg usable]
    exact (unloaded _).trans respring_keeps

end QemuIos.ItBoot

import QemuIos.Lib.Mem

/-!
# Files behind a write cache

Requests to a set of files, each of which may fail. A read sees every write before it, but what is
on the disk after a crash is less certain: a write becomes durable at any time or never, whatever
became of the writes around it, and is certain to be durable only once its file has been flushed.
The journal of all requests says which contents a crash can leave behind.
-/

namespace QemuIos.Block
open List Function

variable {α : Type} [DecidableEq α]

/-- A request to a file. -/
inductive Request (α : Type) where
  | read (f : α) (off len : Nat)
  | write (f : α) (off len : Nat) (data : Mem)
  | flush (f : α)

/-- How a request ends. A write that failed may have reached the file all the same. -/
inductive Outcome where
  | ok
  | failed (landed : Bool)
  deriving DecidableEq, Repr

/-- A request has landed unless it failed without effect. -/
def Outcome.landed : Outcome → Bool
  | .ok => true
  | .failed landed => landed

/-- The requests made so far, oldest first. -/
abbrev Journal (α : Type) := List (Request α × Outcome)

/-- The files as a reader sees them, how the requests end, and those made so far. -/
structure Layer (α : Type) where
  bytes : α → Mem
  fate : Nat → Outcome
  journal : Journal α

namespace Layer

variable (l : Layer α)

/-- How the next request ends. -/
def next : Outcome := l.fate l.journal.length

/-- The request is put down in the journal. -/
def log (r : Request α) : Layer α := { l with journal := l.journal ++ [(r, l.next)] }

/-- Read: the bytes from the offset on, and whether the request succeeded. -/
def pread (f : α) (off len : Nat) : Layer α × Mem × Bool :=
  (l.log (.read f off len), Mem.slice (l.bytes f) off, l.next == .ok)

/-- Write; whether the request succeeded. -/
def pwrite (f : α) (off len : Nat) (data : Mem) : Layer α × Bool :=
  let bytes := if l.next.landed
    then Function.update l.bytes f (Mem.blit (l.bytes f) off len data) else l.bytes
  ({ l.log (.write f off len data) with bytes := bytes }, l.next == .ok)

/-- Flush; whether the request succeeded. -/
def flush (f : α) : Layer α × Bool := (l.log (.flush f), l.next == .ok)

end Layer

/-! ## After a crash -/

/-- What one journal entry leaves on the disk if it is kept. -/
def apply (disk : α → Mem) : Request α × Outcome → α → Mem
  | (.write f off len data, _) => Function.update disk f (Mem.blit (disk f) off len data)
  | _ => disk

/-- The disk after a crash, of which the kept writes have reached it. -/
def disk (first : α → Mem) (keep : Nat → Bool) (journal : Journal α) : α → Mem :=
  journal.zipIdx.foldl (fun d e => if keep e.2 then apply d e.1 else d) first

/-- A choice of kept writes that a crash can make: a write that succeeded is kept if its file was
flushed after it. -/
def Survives (journal : Journal α) (keep : Nat → Bool) : Prop :=
  ∀ i k f off len data, i < k → journal[i]? = some (.write f off len data, .ok) →
    journal[k]? = some (.flush f, .ok) → keep i = true

section Journal

variable {first : α → Mem} {keep : Nat → Bool} {journal : Journal α}

omit [DecidableEq α] in
/-- The entries of a journal stay where they are. -/
theorem entry_append {i : Nat} {e : Request α × Outcome} (new : Journal α)
    (entry : journal[i]? = some e) : (journal ++ new)[i]? = some e := by
  obtain ⟨inside, -⟩ := List.getElem?_eq_some_iff.mp entry
  rw [List.getElem?_append_left inside, entry]

omit [DecidableEq α] in
/-- An entry of a journal with one request more is an old one, or the new one. -/
theorem entry_snoc {i : Nat} {e e' : Request α × Outcome}
    (entry : (journal ++ [e'])[i]? = some e) :
    journal[i]? = some e ∨ (i = journal.length ∧ e = e') := by
  rcases Nat.lt_trichotomy i journal.length with before | last | after
  · rw [getElem?_append_left before] at entry
    exact .inl entry
  · subst last
    rw [getElem?_concat_length, Option.some.injEq] at entry
    exact .inr ⟨rfl, entry.symm⟩
  · rw [getElem?_eq_none (by simp; omega)] at entry
    cases entry

/-- A journal has grown by requests that all meet a condition. -/
def Grown (ok : Request α → Prop) (old journal : Journal α) : Prop :=
  ∃ new, journal = old ++ new ∧ ∀ e ∈ new, ok e.1

section Grown

omit [DecidableEq α]

variable {ok : Request α → Prop} {old : Journal α}

theorem Grown.refl (journal : Journal α) : Grown ok journal journal :=
  ⟨[], (append_nil _).symm, nofun⟩

theorem Grown.snoc {e : Request α × Outcome} (grown : journal = old ++ [e]) (met : ok e.1) :
    Grown ok old journal :=
  ⟨[e], grown, by simpa using met⟩

theorem Grown.trans {last : Journal α} (one : Grown ok old journal) (two : Grown ok journal last) :
    Grown ok old last := by
  obtain ⟨new₁, rfl, met₁⟩ := one
  obtain ⟨new₂, rfl, met₂⟩ := two
  exact ⟨new₁ ++ new₂, append_assoc .., forall_mem_append.mpr ⟨met₁, met₂⟩⟩

end Grown

theorem disk_append (e : Request α × Outcome) :
    disk first keep (journal ++ [e]) =
      if keep journal.length then apply (disk first keep journal) e
        else disk first keep journal := by
  unfold disk
  rw [zipIdx_append, foldl_append, zipIdx_singleton, Nat.zero_add]
  rfl

/-- What a reader sees: every request that landed. -/
def view (first : α → Mem) (journal : Journal α) : α → Mem :=
  journal.foldl (fun d e => if e.2.landed then apply d e else d) first

theorem view_append (first : α → Mem) (journal : Journal α)
    (e : Request α × Outcome) :
    view first (journal ++ [e]) =
      if e.2.landed then apply (view first journal) e else view first journal :=
  foldl_concat ..

/-- A request that does not write a file leaves it alone. -/
theorem apply_of_other {f : α} {r : Request α} (other : ∀ off len data, r ≠ .write f off len data)
    (d : α → Mem) (o : Outcome) : apply d (r, o) f = d f := by
  cases r with
  | read => rfl
  | flush => rfl
  | write f' off len data =>
    apply update_of_ne
    rintro rfl
    exact other off len data rfl

/-- A file whose writes are all kept has what a reader sees. -/
theorem disk_eq_view {f : α}
    (kept : ∀ i off len data o, journal[i]? = some (.write f off len data, o) →
      keep i = true ∧ o.landed = true) :
    disk first keep journal f = view first journal f := by
  induction journal using reverseRecOn with
  | nil => rfl
  | append_singleton journal e ih =>
    have before : disk first keep journal f = view first journal f := by
      apply ih
      intro i off len data o entry
      exact kept i off len data o (entry_append _ entry)
    rw [disk_append, view_append]
    obtain ⟨r, o⟩ := e
    by_cases writes : ∃ off len data, r = .write f off len data
    · obtain ⟨off, len, data, rfl⟩ := writes
      obtain ⟨keeps, lands⟩ := kept journal.length off len data o (by simp)
      simp [keeps, lands, apply, before]
    · push Not at writes
      split <;> split <;> simp only [apply_of_other writes, before]

/-- A request that stores a record of a file: a run of whole records, of which it is one. -/
inductive Stores (f : α) (stride page : Nat) : Mem → Request α → Prop where
  | mk (a c : Nat) (data : Mem) (low : a ≤ page) (high : page < a + c) :
      Stores f stride page (fun k => data ((page - a) * stride + k))
        (.write f (a * stride) (c * stride) data)

omit [DecidableEq α] in
/-- The records that a request stores are those it was made for. -/
theorem Stores.covers {f : α} {stride page a c : Nat} {contents data : Mem} (pos : 0 < stride)
    (stores : Stores f stride page contents (.write f (a * stride) (c * stride) data)) :
    a ≤ page ∧ page < a + c := by
  generalize eq : Request.write f (a * stride) (c * stride) data = r at stores
  obtain ⟨a', c', data', low, high⟩ := stores
  injection eq with _ offs lens
  rw [Nat.eq_of_mul_eq_mul_right pos offs, Nat.eq_of_mul_eq_mul_right pos lens]
  exact ⟨low, high⟩

/-- A request that leaves a file alone, or writes whole records of it. -/
def Whole (f : α) (stride : Nat) : Request α → Prop
  | .write f' off len _ => f' = f → ∃ a c, off = a * stride ∧ len = c * stride
  | _ => True

/-- What a request of whole records does to one of them. -/
theorem apply_record {f : α} {stride : Nat} (page : Nat) (pos : 0 < stride) {r : Request α}
    (whole : Whole f stride r) (d : α → Mem) (o : Outcome) :
    (∃ contents, Stores f stride page contents r ∧
        ∀ k < stride, apply d (r, o) f (page * stride + k) = contents k) ∨
      (∀ contents, ¬ Stores f stride page contents r) ∧
        ∀ k < stride, apply d (r, o) f (page * stride + k) = d f (page * stride + k) := by
  cases r with
  | read => exact .inr ⟨nofun, fun _ _ => rfl⟩
  | flush => exact .inr ⟨nofun, fun _ _ => rfl⟩
  | write f' off len data =>
    by_cases same : f' = f
    · subst same
      obtain ⟨a, c, rfl, rfl⟩ := whole rfl
      by_cases covered : a ≤ page ∧ page < a + c
      · refine .inl ⟨_, .mk a c data covered.1 covered.2, fun k inside => ?_⟩
        rw [apply, update_self, Mem.blit_records _ _ inside, if_pos covered]
      · refine .inr ⟨?_, fun k inside => ?_⟩
        · exact fun contents stores => covered (stores.covers pos)
        · rw [apply, update_self, Mem.blit_records _ _ inside, if_neg covered]
    · refine .inr ⟨?_, fun k _ => ?_⟩
      · intro contents stores
        cases stores
        exact same rfl
      · rw [apply, update_of_ne (Ne.symm same)]

/-- A file that is only written in whole records: what the disk has of a record is what it had at
first, if no write of the record was kept, or what the last one that was kept has stored. -/
theorem disk_record (first : α → Mem) (keep : Nat → Bool) {f : α} {stride : Nat} (pos : 0 < stride)
    (whole : ∀ e ∈ journal, Whole f stride e.1) (page : Nat) :
    ((∀ k < stride, disk first keep journal f (page * stride + k) = first f (page * stride + k)) ∧
        ∀ i e contents, journal[i]? = some e → keep i = true →
          ¬ Stores f stride page contents e.1) ∨
      ∃ m e contents, journal[m]? = some e ∧ keep m = true ∧ Stores f stride page contents e.1 ∧
        (∀ k < stride, disk first keep journal f (page * stride + k) = contents k) ∧
        ∀ i e' contents', journal[i]? = some e' → keep i = true →
          Stores f stride page contents' e'.1 → i ≤ m := by
  induction journal using reverseRecOn with
  | nil => exact .inl ⟨fun _ _ => rfl, nofun⟩
  | append_singleton journal e ih =>
    have old := ih fun e' member => whole e' (mem_append_left _ member)
    have here : (journal ++ [e])[journal.length]? = some e := getElem?_concat_length
    rw [disk_append]
    -- a new entry that stores the record and is kept is the last one; any other changes nothing
    by_cases stays : keep journal.length = true ∧ ∃ contents, Stores f stride page contents e.1
    · right
      obtain ⟨kept, contents', stores'⟩ := stays
      obtain ⟨contents, stores, bytes⟩ | ⟨untouched, -⟩ :=
        apply_record page pos (whole e (by simp)) (disk first keep journal) e.2
      · refine ⟨journal.length, e, contents, here, kept, stores, ?_, ?_⟩
        · rw [if_pos kept]
          exact bytes
        · intro i e' _ entry _ _
          have inside := (List.getElem?_eq_some_iff.mp entry).1
          rw [List.length_append, List.length_singleton] at inside
          omega
      · exact absurd stores' (untouched contents')
    · have same : ∀ k < stride, (if keep journal.length then apply (disk first keep journal) e
          else disk first keep journal) f (page * stride + k) =
            disk first keep journal f (page * stride + k) := by
        intro k inside
        by_cases kept : keep journal.length = true
        · obtain ⟨contents, stores, -⟩ | ⟨-, bytes⟩ :=
            apply_record page pos (whole e (by simp)) (disk first keep journal) e.2
          · exact absurd ⟨kept, contents, stores⟩ stays
          · rw [if_pos kept]
            exact bytes k inside
        · rw [if_neg kept]
      have older : ∀ i e' contents, (journal ++ [e])[i]? = some e' → keep i = true →
          Stores f stride page contents e'.1 → journal[i]? = some e' := by
        intro i e' contents entry kept stores
        rcases entry_snoc entry with before | ⟨rfl, rfl⟩
        · exact before
        · exact absurd ⟨kept, contents, stores⟩ stays
      rcases old with ⟨bytes, never⟩ | ⟨m, e', contents, entry, kept, stores, bytes, last⟩
      · left
        refine ⟨fun k inside => (same k inside).trans (bytes k inside), ?_⟩
        intro i e' contents entry kept stores
        exact never i e' contents (older i e' contents entry kept stores) kept stores
      · right
        refine ⟨m, e', contents, entry_append _ entry, kept, stores,
          fun k inside => (same k inside).trans (bytes k inside), ?_⟩
        intro i e'' contents' entry' kept' stores'
        exact last i e'' contents' (older i e'' contents' entry' kept' stores') kept' stores'

end Journal

end QemuIos.Block

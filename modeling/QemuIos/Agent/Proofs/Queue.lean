import QemuIos.Agent.Proofs.Moves

/-!
# What the queue keeps

The ids in the queue differ, at most the request at its head is handed out, and no request is handed
out under two tokens or reported twice. The token enters through one fact: a request that was handed
out and still waits is marked, and was handed out under the token that holds now. So the token may
change only while the head is not marked.
-/

namespace QemuIos.Agent

open CText List IPodAgent Item

variable {a b : IPodAgent} {n : Option Note} {item : Item} {log : List Note}

/-- All requests of the queue. -/
def IPodAgent.items (a : IPodAgent) : List Item := a.pending ++ a.done

/-- What tells requests apart: to the front end, and in the notes. -/
def Item.key (item : Item) : Bytes × Nat := (item.id, item.serial)

/-- What the queue looks like at any time. -/
structure Sound (a : IPodAgent) : Prop where
  ids : (a.items.map Item.id).Nodup
  serials : (a.items.map Item.serial).Nodup
  room : a.items.length ≤ queueMax
  known : ∀ item ∈ a.items, item.serial < a.submitted
  behind : ∀ item ∈ a.pending.tail, item.dispatched = false
  held : ∀ item ∈ a.pending, item.dispatched = true → a.claimed = true
  texts : ∀ item ∈ a.pending, item.request ≠ []

/-- What a move does to the keys of the queue: one is added, or some are left. -/
inductive Rekeyed (a b : IPodAgent) : Prop where
  | queued (id : Bytes) (room : a.items.length < queueMax) (new : ∀ item ∈ a.items, item.id ≠ id)
      (keys : b.items.map Item.key ~ (id, a.submitted) :: a.items.map Item.key)
      (next : b.submitted = a.submitted + 1)
  | left (keys : b.items.map Item.key <+~ a.items.map Item.key) (same : b.submitted = a.submitted)

theorem rekeyed_ended (rest done : List Item) (status : Int) (response : Bytes) :
    (rest ++ (done ++ [item.ended status response])).map key <+~
      (item :: rest ++ done).map key := by
  have moved : rest ++ (done ++ [item]) ~ item :: rest ++ done := by
    rw [← append_assoc]
    exact perm_append_singleton _ _
  have same : (rest ++ (done ++ [item.ended status response])).map key =
      (rest ++ (done ++ [item])).map key := by
    simp [key, ended]
  rw [same]
  exact (moved.map _).subperm

theorem Move.rekeyed (move : Move a n b) : Rekeyed a b := by
  cases move with
  | submit id request room new text =>
    refine .queued id (by simpa [items] using room) new ?_ rfl
    simp only [items, append_assoc, singleton_append]
    exact perm_middle.map key
  | withdraw queue _ | revoke queue _ | forget queue | take queue =>
    refine .left (Sublist.subperm (Sublist.map key ?_)) rfl
    simp [items, queue]
  | reset => exact .left nil_subperm rfl
  | tick now | claim token idle => exact .left (Subperm.refl _) rfl
  | expire queue _ | lapse queue _ | finish queue status =>
    refine .left ?_ rfl
    rw [items, items, queue]
    exact rekeyed_ended _ _ _ _
  | hand held queue root text | mark held queue other
  | route queue root pid cookie sequence deadline
  | write queue offset bytes follows =>
    refine .left ?_ rfl
    rw [items, items, queue]
    exact Subperm.refl _

theorem nodup_map_of_subperm {α β : Type} (f : α → β) {xs ys : List α} (sub : xs <+~ ys)
    (distinct : (ys.map f).Nodup) : (xs.map f).Nodup := by
  obtain ⟨zs, same, inside⟩ := sub
  exact (same.map f).nodup_iff.mp (distinct.sublist (inside.map f))

theorem ids_eq (items : List Item) : items.map Item.id = (items.map Item.key).map Prod.fst := by
  simp [Item.key]

theorem serials_eq (items : List Item) :
    items.map serial = (items.map key).map Prod.snd := by
  simp [key]

/-- What concerns the keys alone. -/
theorem Rekeyed.sound (rekeyed : Rekeyed a b) (sound : Sound a) :
    (b.items.map Item.id).Nodup ∧ (b.items.map Item.serial).Nodup ∧ b.items.length ≤ queueMax ∧
      ∀ item ∈ b.items, item.serial < b.submitted := by
  obtain ⟨ids, serials, room, known, -, -, -⟩ := sound
  cases rekeyed with
  | queued id free new keys next =>
    have count := keys.length_eq
    simp only [length_map, length_cons] at count
    refine ⟨?_, ?_, by omega, ?_⟩
    · rw [ids_eq, (keys.map Prod.fst).nodup_iff, map_cons, ← ids_eq]
      refine nodup_cons.mpr ⟨?_, ids⟩
      simpa using new
    · rw [serials_eq, (keys.map Prod.snd).nodup_iff, map_cons, ← serials_eq]
      refine nodup_cons.mpr ⟨?_, serials⟩
      intro old
      obtain ⟨item, inside, same⟩ := mem_map.mp old
      have below := known item inside
      simp only at same
      omega
    · intro item inside
      have key := keys.subset (mem_map_of_mem inside)
      rcases mem_cons.mp key with fresh | old
      · have same := congrArg Prod.snd fresh
        simp only [Item.key] at same
        omega
      obtain ⟨other, inside, same⟩ := mem_map.mp old
      have below := known other inside
      have serial := congrArg Prod.snd same
      simp only [Item.key] at serial
      omega
  | left keys same =>
    have count := keys.length_le
    simp only [length_map] at count
    refine ⟨?_, ?_, by omega, ?_⟩
    · rw [ids_eq] at ids ⊢
      exact nodup_map_of_subperm _ keys ids
    · rw [serials_eq] at serials ⊢
      exact nodup_map_of_subperm _ keys serials
    · intro item inside
      obtain ⟨other, inside, equal⟩ := mem_map.mp (keys.subset (mem_map_of_mem inside))
      have below := known other inside
      have serial := congrArg Prod.snd equal
      simp only [key] at serial
      omega

/-- The marks and the texts of the requests that wait. -/
def Marked (a : IPodAgent) : Prop :=
  (∀ item ∈ a.pending.tail, item.dispatched = false) ∧
    (∀ item ∈ a.pending, item.dispatched = true → a.claimed = true) ∧
    ∀ item ∈ a.pending, item.request ≠ []

section

variable (marked : Marked a)
include marked

/-- Requests are taken away, and the claim only with the marked one. -/
theorem Marked.shrink (fewer : b.pending <+ a.pending)
    (claim : b.claimed = a.claimed ∨ ∀ item ∈ b.pending, item.dispatched = false) : Marked b := by
  obtain ⟨behind, held, texts⟩ := marked
  refine ⟨fun item inside => behind item (fewer.tail.subset inside), ?_,
    fun item inside => texts item (fewer.subset inside)⟩
  intro item inside busy
  cases claim with
  | inl same => exact same.trans (held item (fewer.subset inside) busy)
  | inr idle => exact absurd busy (by simp [idle item inside])

/-- The request at the head is changed, but not its text. -/
theorem Marked.amend {item' : Item} {rest : List Item} (queue : a.pending = item :: rest)
    (queue' : b.pending = item' :: rest) (text : item'.request = item.request)
    (claim : b.claimed = a.claimed) (mark : item'.dispatched = item.dispatched ∨ a.claimed = true) :
    Marked b := by
  obtain ⟨behind, held, texts⟩ := marked
  rw [queue] at behind held texts
  refine ⟨by simpa [queue'] using behind, ?_, ?_⟩
  · intro other inside busy
    rw [claim]
    rw [queue'] at inside
    rcases mem_cons.mp inside with rfl | inside
    · cases mark with
      | inl same => exact held item mem_cons_self (same ▸ busy)
      | inr claimed => exact claimed
    · exact held other (mem_cons_of_mem _ inside) busy
  · intro other inside
    rw [queue'] at inside
    rcases mem_cons.mp inside with rfl | inside
    · exact text ▸ texts item mem_cons_self
    · exact texts other (mem_cons_of_mem _ inside)

/-- Behind the head no request is marked. -/
theorem Marked.rest {rest : List Item} (queue : a.pending = item :: rest) :
    ∀ other ∈ rest, other.dispatched = false := by
  have behind := marked.1
  rwa [queue] at behind

/-- A marked request is at the head, so that the others are not marked. -/
theorem Marked.others {left right : List Item} (queue : a.pending = left ++ item :: right)
    (busy : item.dispatched = true) :
    ∀ other ∈ left ++ right, other.dispatched = false := by
  cases left with
  | nil => exact marked.rest queue
  | cons first left =>
    have idle := marked.rest queue item (by simp)
    simp [idle] at busy

/-- Whether the queue is free or a lease has run out: when a daemon claims it, no request is
marked. -/
theorem Marked.unmarked
    (idle : a.claimed = true → ∀ item ∈ a.pending.head?, item.dispatched = false) :
    ∀ item ∈ a.pending, item.dispatched = false := by
  intro item inside
  by_contra busy
  rw [Bool.not_eq_false] at busy
  have claimed := marked.2.1 item inside busy
  cases queue : a.pending with
  | nil => simp [queue] at inside
  | cons first rest =>
    rcases mem_cons.mp (queue ▸ inside) with rfl | inside
    · simp [idle claimed item (by simp [queue])] at busy
    · simp [marked.rest queue item inside] at busy

theorem Marked.move (move : Move a n b) : Marked b := by
  cases move with
  | submit id request room new text =>
    obtain ⟨behind, held, texts⟩ := marked
    refine ⟨?_, ?_, ?_⟩
    · cases queue : a.pending with
      | nil => simp
      | cons first rest => simpa [queue, or_imp, forall_and, fresh] using behind
    · simpa [or_imp, forall_and, fresh] using held
    · simpa [or_imp, forall_and, fresh] using And.intro texts text
  | withdraw queue _ | lapse queue _ | finish queue _ =>
    exact marked.shrink (by simp [queue]) (.inl rfl)
  | revoke queue busy => exact marked.shrink (by simp [queue]) (.inr (marked.others queue busy))
  | reset => exact marked.shrink (nil_sublist _) (.inr (by simp))
  | forget queue | take queue | tick now => exact marked.shrink (Sublist.refl _) (.inl rfl)
  | claim token idle => exact ⟨marked.1, fun _ _ _ => rfl, marked.2.2⟩
  | expire queue busy => exact marked.shrink (by simp [queue]) (.inr (marked.rest queue))
  | hand held queue root text | mark held queue other =>
    exact marked.amend queue rfl rfl rfl (.inr held)
  | route queue root pid cookie sequence deadline | write queue offset bytes follows =>
    exact marked.amend queue rfl rfl rfl (.inl rfl)
end

theorem Sound.marked (sound : Sound a) : Marked a :=
  ⟨sound.behind, sound.held, sound.texts⟩

theorem Sound.move (sound : Sound a) (move : Move a n b) : Sound b := by
  obtain ⟨ids, serials, room, known⟩ := move.rekeyed.sound sound
  obtain ⟨behind, held, texts⟩ := sound.marked.move move
  exact ⟨ids, serials, room, known, behind, held, texts⟩

theorem sound_new : Sound IPodAgent.new := by
  constructor <;> simp [new, items]

/-- No request behind the head, waiting or finished, has its serial. -/
theorem Sound.distinct {rest : List Item} (sound : Sound a) (queue : a.pending = item :: rest) :
    ∀ other ∈ rest ++ a.done, item.serial ≠ other.serial := by
  have serials := sound.serials
  simp only [items, queue, map_append, map_cons, cons_append, nodup_cons] at serials
  intro other inside same
  rw [← map_append] at serials
  exact serials.1 (same ▸ mem_map_of_mem inside)

theorem mem_noted {note : Note} : note ∈ log ++ n.toList ↔ note ∈ log ∨ n = some note := by
  rw [mem_append, Option.mem_toList]

/-- Serials are never used again. -/
theorem Rekeyed.serial (rekeyed : Rekeyed a b) :
    a.submitted ≤ b.submitted ∧
      ∀ s ∈ b.items.map serial, s ∈ a.items.map serial ∨ s = a.submitted := by
  cases rekeyed with
  | queued id room new keys next =>
    refine ⟨by omega, ?_⟩
    intro s inside
    rw [serials_eq] at inside ⊢
    rcases mem_cons.mp ((keys.map Prod.snd).subset inside) with fresh | old
    · exact .inr fresh
    · exact .inl old
  | left keys same =>
    refine ⟨by omega, ?_⟩
    intro s inside
    rw [serials_eq] at inside ⊢
    obtain ⟨key, old, rfl⟩ := mem_map.mp inside
    exact .inl (mem_map_of_mem (keys.subset old))

/-- A request that was handed out and still waits is marked, and was handed out under the token that
holds. -/
structure Fenced (log : List Note) (a : IPodAgent) : Prop where
  current : ∀ s t, Note.handed s t ∈ log →
    ∀ item ∈ a.pending, item.serial = s → item.dispatched = true ∧ t = a.token
  single : ∀ s t t', Note.handed s t ∈ log → Note.handed s t' ∈ log → t = t'
  known : ∀ s t, Note.handed s t ∈ log → s < a.submitted

section

variable (fenced : Fenced log a)
include fenced

section

variable (other : ∀ s t, n ≠ some (.handed s t))
include other

/-- Nothing is handed out, and the token changes only while no request is marked. -/
theorem Fenced.keep (submitted : a.submitted ≤ b.submitted)
    (marks : ∀ item' ∈ b.pending, a.submitted ≤ item'.serial ∨
      ∃ item ∈ a.pending, item'.serial = item.serial ∧
        (item.dispatched = true → item'.dispatched = true ∧ b.token = a.token)) :
    Fenced (log ++ n.toList) b := by
  have old : ∀ s t, Note.handed s t ∈ log ++ n.toList → Note.handed s t ∈ log := by
    intro s t noted
    exact (mem_noted.mp noted).resolve_right (other s t)
  refine ⟨?_, ?_, ?_⟩
  · intro s t noted item' inside same
    rcases marks item' inside with fresh | ⟨item, inside, serial, keeps⟩
    · have below := fenced.known s t (old s t noted)
      omega
    · obtain ⟨busy, token⟩ := fenced.current s t (old s t noted) item inside (by omega)
      exact ⟨(keeps busy).1, token.trans (keeps busy).2.symm⟩
  · intro s t t' noted noted'
    exact fenced.single s t t' (old s t noted) (old s t' noted')
  · intro s t noted
    exact (fenced.known s t (old s t noted)).trans_le submitted

/-- Requests are taken away. -/
theorem Fenced.shrink (submitted : b.submitted = a.submitted) (fewer : b.pending <+ a.pending)
    (claim : b.token = a.token ∨ ∀ item ∈ b.pending, item.dispatched = false) :
    Fenced (log ++ n.toList) b := by
  refine fenced.keep other submitted.ge ?_
  intro item inside
  refine .inr ⟨item, fewer.subset inside, rfl, ?_⟩
  intro busy
  cases claim with
  | inl same => exact ⟨busy, same⟩
  | inr idle => simp [idle item inside] at busy

/-- The request at the head is changed, but keeps its mark. -/
theorem Fenced.amend {item' : Item} {rest : List Item} (submitted : b.submitted = a.submitted)
    (token : b.token = a.token) (queue : a.pending = item :: rest)
    (queue' : b.pending = item' :: rest) (serial : item'.serial = item.serial)
    (mark : item.dispatched = true → item'.dispatched = true) :
    Fenced (log ++ n.toList) b := by
  refine fenced.keep other submitted.ge ?_
  intro other inside
  rw [queue'] at inside
  rw [queue]
  rcases mem_cons.mp inside with rfl | inside
  · exact .inr ⟨item, mem_cons_self, serial, fun busy => ⟨mark busy, token⟩⟩
  · exact .inr ⟨other, mem_cons_of_mem _ inside, rfl, fun busy => ⟨busy, token⟩⟩
end

/-- POLL hands out the request at the head. Was it handed out before, then under this token. -/
theorem Fenced.hand {rest : List Item} (sound : Sound a) (queue : a.pending = item :: rest) :
    Fenced (log ++ (some (Note.handed item.serial a.token)).toList)
      { a with pending := { item with dispatched := true } :: rest } := by
  have own : item ∈ a.pending := by simp [queue]
  have marked : Fenced (log ++ (none : Option Note).toList)
      { a with pending := { item with dispatched := true } :: rest } :=
    fenced.amend (by simp) rfl rfl queue rfl rfl (fun _ => rfl)
  simp only [Option.toList_none, append_nil] at marked
  have before : ∀ t, Note.handed item.serial t ∈ log → t = a.token := by
    intro t noted
    exact (fenced.current item.serial t noted item own rfl).2
  refine ⟨?_, ?_, ?_⟩
  · intro s t noted other inside same
    rcases mem_noted.mp noted with old | new
    · exact marked.current s t old other inside same
    cases new
    rcases mem_cons.mp inside with rfl | inside
    · exact ⟨rfl, rfl⟩
    · exact absurd same.symm (sound.distinct queue other (mem_append_left _ inside))
  · intro s t t' noted noted'
    rcases mem_noted.mp noted with old | new <;> rcases mem_noted.mp noted' with old' | new'
    · exact fenced.single s t t' old old'
    · cases new'
      exact before t old
    · cases new
      exact (before t' old').symm
    · cases new
      cases new'
      rfl
  · intro s t noted
    rcases mem_noted.mp noted with old | new
    · exact fenced.known s t old
    · cases new
      exact sound.known item (mem_append_left _ own)

theorem Fenced.move (sound : Sound a) (move : Move a n b) :
    Fenced (log ++ n.toList) b := by
  have marked := sound.marked
  cases move with
  | submit id request room new text =>
    refine fenced.keep (by simp) (by simp) ?_
    intro item inside
    rcases mem_append.mp inside with old | fresh
    · exact .inr ⟨item, old, rfl, fun busy => ⟨busy, rfl⟩⟩
    · rw [mem_singleton.mp fresh]
      exact .inl le_rfl
  | withdraw queue _ | expire queue _ | lapse queue _ | finish queue _ =>
    exact fenced.shrink (by simp) rfl (by simp [queue]) (.inl rfl)
  | revoke queue busy =>
    exact fenced.shrink (by simp) rfl (by simp [queue]) (.inr (marked.others queue busy))
  | reset => exact fenced.shrink (by simp) rfl (by simp) (.inr (by simp))
  | forget queue | take queue | tick now =>
    exact fenced.shrink (by simp) rfl (Sublist.refl _) (.inl rfl)
  | claim token idle =>
    exact fenced.shrink (by simp) rfl (Sublist.refl _) (.inr (marked.unmarked idle))
  | hand held queue root text => exact fenced.hand sound queue
  | mark held queue other => exact fenced.amend (by simp) rfl rfl queue rfl rfl (fun _ => rfl)
  | route queue root pid cookie sequence deadline | write queue offset bytes follows =>
    exact fenced.amend (by simp) rfl rfl queue rfl rfl id
end

/-- The requests results were reported of. -/
def reported (log : List Note) : List Nat :=
  log.filterMap fun
    | .taken item => some item.serial
    | _ => none

/-- Requests that have left the queue for good, each once. -/
structure Spent (spent : List Nat) (a : IPodAgent) : Prop where
  gone : ∀ s ∈ spent, s ∉ a.items.map Item.serial
  known : ∀ s ∈ spent, s < a.submitted
  once : spent.Nodup

/-- None comes back. -/
theorem Spent.move {spent : List Nat} (left : Spent spent a) (move : Move a n b) :
    Spent spent b := by
  obtain ⟨later, serials⟩ := move.rekeyed.serial
  refine ⟨?_, fun s noted => (left.known s noted).trans_le later, left.once⟩
  intro s noted inside
  rcases serials s inside with old | fresh
  · exact left.gone s noted old
  · have below := left.known s noted
    omega

/-- One more leaves. -/
theorem Spent.remove {spent : List Nat} (left : Spent spent a) (sound : Sound a)
    (parts : a.items ~ item :: b.items) (submitted : b.submitted = a.submitted) :
    Spent (spent ++ [item.serial]) b := by
  have serials := (parts.map serial).nodup_iff.mp sound.serials
  rw [map_cons, nodup_cons] at serials
  have own : item ∈ a.items := parts.mem_iff.mpr mem_cons_self
  refine ⟨?_, ?_, ?_⟩
  · intro s noted inside
    rcases mem_append.mp noted with old | new
    · refine left.gone s old ((parts.map serial).mem_iff.mpr ?_)
      exact mem_cons_of_mem _ inside
    · rw [mem_singleton.mp new] at inside
      exact serials.1 inside
  · intro s noted
    rw [submitted]
    rcases mem_append.mp noted with old | new
    · exact left.known s old
    · rw [mem_singleton.mp new]
      exact sound.known item own
  · refine nodup_append.mpr ⟨left.once, nodup_singleton _, ?_⟩
    rintro s old s' new rfl
    rw [mem_singleton.mp new] at old
    exact left.gone _ old (mem_map_of_mem own)

theorem reported_append (log more : List Note) :
    reported (log ++ more) = reported log ++ reported more :=
  filterMap_append ..

theorem Spent.reported (told : Spent (reported log) a) (sound : Sound a) (move : Move a n b) :
    Spent (Agent.reported (log ++ n.toList)) b := by
  rw [reported_append]
  by_cases takes : ∃ item, n = some (.taken item)
  · obtain ⟨item, rfl⟩ := takes
    cases move with
    | take queue =>
      refine told.remove sound ?_ rfl
      rw [items, queue]
      exact perm_middle
  · have silent : Agent.reported n.toList = [] := by
      cases n with
      | none => rfl
      | some note =>
        cases note with
        | taken item => exact absurd ⟨item, rfl⟩ takes
        | _ => rfl
    rw [silent, append_nil]
    exact told.move move

/-- What holds in every history. -/
structure Kept (log : List Note) (a : IPodAgent) : Prop where
  sound : Sound a
  fenced : Fenced log a
  told : Spent (reported log) a

theorem Moved.kept (moved : Moved IPodAgent.new log a) : Kept log a := by
  generalize start : new = first at moved
  induction moved with
  | refl =>
    subst start
    exact ⟨sound_new, by constructor <;> simp, by constructor <;> simp [reported]⟩
  | snoc _ move ih =>
    obtain ⟨sound, fenced, told⟩ := ih
    exact ⟨sound.move move, fenced.move sound move, told.reported sound move⟩

/-- Whatever happens to the queue, and whenever: no request is handed out by POLL under two tokens,
only the request at the head can be marked as handed out, the ids in the queue differ, there are at
most `queueMax` of them, and no request has its result reported twice. -/
theorem queue_never_replays (b64 : Base64) (events : List Event) :
    (∀ serial token token', Note.handed serial token ∈ (history b64 events).1 →
      Note.handed serial token' ∈ (history b64 events).1 → token = token') ∧
    (∀ i item, (history b64 events).2.pending[i]? = some item → item.dispatched = true → i = 0) ∧
    (((history b64 events).2.pending ++ (history b64 events).2.done).map Item.id).Nodup ∧
    (history b64 events).2.pending.length + (history b64 events).2.done.length ≤ queueMax ∧
    (reported (history b64 events).1).Nodup := by
  obtain ⟨sound, fenced, told⟩ := (history_moved b64 events).kept
  refine ⟨fenced.single, ?_, sound.ids, ?_, told.once⟩
  · intro i item found busy
    by_contra later
    have behind : item ∈ (history b64 events).2.pending.tail := by
      obtain ⟨j, rfl⟩ := Nat.exists_eq_succ_of_ne_zero later
      refine mem_of_getElem? (i := j) ?_
      rwa [getElem?_tail]
    simp [sound.behind item behind] at busy
  · have room := sound.room
    rwa [items, length_append] at room

/-! ## Order -/

/-- The requests finished and waiting. -/
def IPodAgent.serials (a : IPodAgent) : List Nat := (a.done ++ a.pending).map serial

/-- The requests reported, finished and waiting. -/
def line (log : List Note) (a : IPodAgent) : List Nat := reported log ++ a.serials

/-- A move takes requests out of the line, or adds the next one at its end. -/
theorem Move.inLine (move : Move a n b) (ordered : line log a <+ range a.submitted) :
    line (log ++ n.toList) b <+ range b.submitted := by
  unfold line IPodAgent.serials at ordered ⊢
  rw [reported_append]
  cases move with
  | submit id request room new text =>
    have longer := ordered.append (Sublist.refl [a.submitted])
    simpa [range_succ, reported, fresh] using longer
  | withdraw queue _ | revoke queue _ | forget queue | reset =>
    refine Sublist.trans ?_ ordered
    simp [reported, *]
  | take queue | expire queue _ | lapse queue _ | hand _ queue | mark _ queue | route queue
  | write queue | finish queue =>
    simpa [queue, reported, ended] using ordered
  | tick | claim => simpa [reported] using ordered

theorem Moved.inLine (moved : Moved IPodAgent.new log a) : line log a <+ range a.submitted := by
  generalize start : new = first at moved
  induction moved with
  | refl =>
    subst start
    exact nil_sublist _
  | snoc _ move ih => exact move.inLine ih

theorem complete_serials (status : Int) (response : Bytes) :
    (a.complete status response).serials = a.serials := by
  unfold complete
  split
  · rfl
  · simp [serials, *]

theorem amend_serials {f : Item → Item} (keeps : ∀ item, (f item).serial = item.serial) :
    (a.amend f).serials = a.serials := by
  unfold amend
  split
  · rfl
  · simp [serials, *]

theorem hello_serials (k : Call) : (hello a k).2.serials = a.serials := by
  unfold hello
  split
  · change (ite _ _ _ : IPodAgent).serials = _
    split
    · exact complete_serials _ _
    · rfl
  · rfl

theorem poll_serials (k : Call) : (poll a k).2.serials = a.serials := by
  have marked (b : IPodAgent) : (dispatch b).2.serials = b.serials := by
    unfold dispatch
    dsimp only
    split
    · exact amend_serials fun _ => rfl
    · exact amend_serials fun _ => rfl
  unfold poll
  dsimp only
  rw [marked]
  split
  · exact complete_serials _ _
  · rfl

theorem windowCall_serials (k : Call) (op : Nat) : (windowCall a k op).2.serials = a.serials := by
  unfold windowCall write finish
  repeat' split
  all_goals first
    | rfl | exact poll_serials k | rw [read_agent] | exact amend_serials fun _ => rfl
    | exact complete_serials _ _

/-- A guest call takes no request out of the line: one that it completes, or that has lost its
daemon or its time, is finished in its place. -/
theorem call_serials (k : Call) : (call a k).2.serials = a.serials := by
  unfold call
  split
  · exact hello_serials k
  split
  · cases uiCalled a k with
    | refused answer => rw [answer]
    | asked op answer => rw [answer]
    | served queue routed own op answer => exact answer ▸ windowCall_serials k _
  · cases daemonCalled a k with
    | refused answer => rw [answer]
    | routed queue root op answer => exact answer ▸ amend_serials fun _ => rfl
    | served held own root answer => exact answer ▸ windowCall_serials k _

theorem reported_heard (k : Call) : reported (heard a k).toList = [] := by
  unfold heard
  repeat' split
  all_goals first | rfl | (cases List.head? _ <;> rfl)

/-- What an event may do to the line: a request accepted is added at its end, a cancel or a reset
takes requests out of it, and any other event leaves it. -/
def Relined (l : List Nat) (next : Nat) (l' : List Nat) : Event → Prop
  | .submit _ => l' = l ∨ l' = l ++ [next]
  | .cancel _ | .reset => l' <+ l
  | .take | .call _ => l' = l

theorem step_relined (b64 : Base64) (log : List Note) (a : IPodAgent) (e : Event) :
    Relined (line log a) a.submitted (line (log ++ (note a e).toList) (step b64 a e)) e := by
  unfold line
  rw [reported_append]
  cases e with
  | submit request =>
    simp only [Relined, step, note, submit]
    split
    · exact .inl (by simp [reported])
    split
    · exact .inr (by simp [reported, serials])
    · exact .inl (by simp [reported])
  | cancel id =>
    simp only [Relined, step, note, cancel]
    refine Sublist.append (by simp [reported]) (Sublist.map _ ?_)
    repeat' split
    all_goals simp [eraseP_sublist]
  | reset => simp [Relined, step, note, reported, serials, reset]
  | take =>
    simp only [Relined, step, note, takeResult]
    split
    · simp [reported, *]
    · simp [reported, serials, *]
  | call k => simp [Relined, step, note, reported_heard, call_serials]

end QemuIos.Agent

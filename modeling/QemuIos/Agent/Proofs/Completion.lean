import QemuIos.Agent.Proofs.Queue

/-!
# Who completes a request, and with what

The calls of the daemon carry a session's token and no request: they act on the head of the queue.
So a WRITE or a DONE concerns the request POLL handed out under the token, or the one routed to the
cookie, only while the head is marked; a DONE said twice completes the next request, which nobody
has seen. What a result reports is always what was written for that same request: its windows since
the last one at offset 0, and the status of its DONE. Requests that a lost daemon or a late process
leaves behind report an error and no body.
-/

namespace QemuIos.Agent

open CText List IPodAgent

variable {n : Option Note} {serial : Nat} {log : List Note} {item : Item} {a b : IPodAgent}

/-- The windows written for a request, in order. -/
def windowsOf (log : List Note) (serial : Nat) : List (UInt32 × Bytes) :=
  log.filterMap fun
    | .wrote s offset bytes => if s = serial then some (offset, bytes) else none
    | _ => none

/-- The body is what the windows since the last one at offset 0 hold. -/
def BodyOf (windows : List (UInt32 × Bytes)) (body : Bytes) : Prop :=
  (windows = [] ∧ body = []) ∨
    ∃ before first after, windows = before ++ (0, first) :: after ∧ (∀ w ∈ after, w.1 ≠ 0) ∧
      body = first ++ after.flatMap Prod.snd

theorem BodyOf.add {windows : List (UInt32 × Bytes)} {body : Bytes} (is : BodyOf windows body)
    {offset : UInt32} (bytes : Bytes) (follows : offset = 0 ∨ offset.toNat = body.length) :
    BodyOf (windows ++ [(offset, bytes)]) (withWindow body offset bytes) := by
  unfold withWindow
  split
  case isTrue zero =>
    subst zero
    exact .inr ⟨windows, bytes, [], rfl, by simp, by simp⟩
  case isFalse later =>
    rcases is with ⟨rfl, rfl⟩ | ⟨before, first, after, rfl, rest, rfl⟩
    · -- The first window of all is at offset 0.
      have zero := follows.resolve_left later
      exact absurd (UInt32.toNat_inj.mp zero) later
    · refine .inr ⟨before, first, after ++ [(offset, bytes)], by simp, ?_, by simp⟩
      simpa [or_imp, forall_and] using And.intro (fun o b => rest (o, b)) later

/-- Nothing is noted of what is written or done for a request. -/
def Quiet (n : Option Note) (serial : Nat) : Prop :=
  (∀ offset bytes, n ≠ some (.wrote serial offset bytes)) ∧
    ∀ status, n ≠ some (.finished serial status)

theorem windowsOf_append (log more : List Note) :
    windowsOf (log ++ more) serial = windowsOf log serial ++ windowsOf more serial :=
  filterMap_append ..

theorem Quiet.windows (quiet : Quiet n serial) (log : List Note) :
    windowsOf (log ++ n.toList) serial = windowsOf log serial := by
  have silent : windowsOf n.toList serial = [] := by
    cases n with
    | none => rfl
    | some note =>
      cases note with
      | wrote s offset bytes =>
        have other : s ≠ serial := by
          rintro rfl
          exact quiet.1 offset bytes rfl
        simp [windowsOf, other]
      | _ => rfl
  rw [windowsOf_append, silent, append_nil]

theorem Quiet.finished (quiet : Quiet n serial) {status : Int} :
    Note.finished serial status ∈ log ++ n.toList ↔ Note.finished serial status ∈ log := by
  rw [mem_noted]
  exact or_iff_left (quiet.2 status)

/-- A request is worked on: its response is what was written so far. -/
def Waiting (log : List Note) (serial : Nat) (response : Bytes) : Prop :=
  BodyOf (windowsOf log serial) response ∧ ∀ status, Note.finished serial status ∉ log

theorem Waiting.keep {response : Bytes} (waiting : Waiting log serial response)
    (quiet : Quiet n serial) : Waiting (log ++ n.toList) serial response := by
  refine ⟨?_, ?_⟩
  · rw [quiet.windows]
    exact waiting.1
  · intro status noted
    exact waiting.2 status (quiet.finished.mp noted)

/-- How a request has ended: by a DONE, with its windows for a body; with the daemon it was handed
to; or with the time of the process it was routed to. -/
inductive Ended (log : List Note) (item : Item) : Prop where
  | done (noted : Note.finished item.serial item.status ∈ log)
      (only : ∀ status, Note.finished item.serial status ∈ log → status = item.status)
      (body : BodyOf (windowsOf log item.serial) item.response)
  | lost (busy : item.dispatched = true) (status : item.status = connReset)
      (empty : item.response = []) (never : ∀ status, Note.finished item.serial status ∉ log)
  | late (routed : item.uiCookie ≠ 0) (status : item.status = timedOut)
      (empty : item.response = []) (never : ∀ status, Note.finished item.serial status ∉ log)

theorem Ended.keep (ended : Ended log item) (quiet : Quiet n item.serial) :
    Ended (log ++ n.toList) item := by
  cases ended with
  | done noted only body =>
    refine .done (quiet.finished.mpr noted) ?_ (by rwa [quiet.windows])
    intro status noted
    exact only status (quiet.finished.mp noted)
  | lost busy status empty never =>
    exact .lost busy status empty fun status noted => never status (quiet.finished.mp noted)
  | late routed status empty never =>
    exact .late routed status empty fun status noted => never status (quiet.finished.mp noted)

/-- Only what is written or done for the request at the head is noted. -/
theorem Move.quiet (move : Move a n b) (other : ∀ item ∈ a.pending.head?, item.serial ≠ serial) :
    Quiet n serial := by
  cases move with
  | @write item rest queue offset bytes follows =>
    have differs := other item (by simp [queue])
    exact ⟨by simp [differs], by simp⟩
  | @finish item rest queue status =>
    have differs := other item (by simp [queue])
    exact ⟨by simp, by simp [differs]⟩
  | _ => exact ⟨by simp, by simp⟩

/-- Where a waiting request comes from. -/
inductive Queued (a : IPodAgent) (n : Option Note) (item' : Item) : Prop where
  | fresh (serial : item'.serial = a.submitted) (response : item'.response = []) (quiet : n = none)
  | kept {item : Item} (inside : item ∈ a.pending) (serial : item'.serial = item.serial)
      (response : item'.response = item.response) (quiet : Quiet n item.serial)
  | written {item : Item} (inside : item ∈ a.pending) (serial : item'.serial = item.serial)
      {offset : UInt32} {bytes : Bytes} (noted : n = some (.wrote item.serial offset bytes))
      (follows : offset = 0 ∨ offset.toNat = item.response.length)
      (response : item'.response = withWindow item.response offset bytes)

/-- Requests that wait further on. -/
theorem Queued.same (inside : item ∈ a.pending) (quiet : ∀ serial, Quiet n serial) :
    Queued a n item :=
  .kept inside rfl rfl (quiet _)

theorem Move.queued (sound : Sound a) (move : Move a n b) :
    ∀ item' ∈ b.pending, Queued a n item' := by
  intro item' inside
  have noNote : ∀ serial, Quiet none serial := fun _ => ⟨by simp, by simp⟩
  cases move with
  | submit id request room new text =>
    rcases mem_append.mp inside with old | fresh
    · exact .same old noNote
    · rw [mem_singleton.mp fresh]
      exact .fresh rfl rfl rfl
  | withdraw queue _ | revoke queue _ =>
    refine .same ?_ noNote
    rw [queue]
    exact ((sublist_cons_self _ _).append_left _).subset inside
  | reset => simp at inside
  | forget queue | tick now | claim token idle => exact .same inside noNote
  | take queue => exact .same inside fun _ => ⟨by simp, by simp⟩
  | expire queue _ | lapse queue _ =>
    refine .same ?_ noNote
    rw [queue]
    exact mem_cons_of_mem _ inside
  | finish queue status =>
    have differs := sound.distinct queue item' (mem_append_left _ inside)
    refine .kept ?_ rfl rfl ⟨by simp, by simp [differs]⟩
    rw [queue]
    exact mem_cons_of_mem _ inside
  | @hand item rest _ queue _ _ | @mark item rest _ queue _ | @route item rest queue _ _ _ _ _ =>
    have own : item ∈ a.pending := by simp [queue]
    rcases mem_cons.mp inside with rfl | behind
    · exact .kept own rfl rfl ⟨by simp, by simp⟩
    · refine .same ?_ fun _ => ⟨by simp, by simp⟩
      simp [queue, behind]
  | @write item rest queue offset bytes follows =>
    have own : item ∈ a.pending := by simp [queue]
    rcases mem_cons.mp inside with rfl | behind
    · exact .written own rfl rfl follows rfl
    · have differs := sound.distinct queue item' (mem_append_left _ behind)
      refine .kept ?_ rfl rfl ⟨by simp [differs], by simp⟩
      simp [queue, behind]

/-- Where a finished request comes from. -/
inductive Completed (a : IPodAgent) (n : Option Note) (item' : Item) : Prop where
  | before (inside : item' ∈ a.done)
  | done {item : Item} (inside : item ∈ a.pending) {status : Int}
      (noted : n = some (.finished item.serial status))
      (same : item' = item.ended status item.response)
  | lost {item : Item} (inside : item ∈ a.pending) (busy : item.dispatched = true)
      (quiet : n = none) (same : item' = item.ended connReset [])
  | late {item : Item} (inside : item ∈ a.pending) (routed : item.uiCookie ≠ 0) (quiet : n = none)
      (same : item' = item.ended timedOut [])

theorem Move.completed (move : Move a n b) : ∀ item' ∈ b.done, Completed a n item' := by
  intro item' inside
  cases move with
  | forget queue =>
    refine .before ?_
    rw [queue]
    exact ((sublist_cons_self _ _).append_left _).subset inside
  | reset => simp at inside
  | take queue => exact .before (by simp [queue, inside])
  | expire queue busy =>
    rcases mem_append.mp inside with old | new
    · exact .before old
    · exact .lost (by simp [queue]) busy rfl (mem_singleton.mp new)
  | lapse queue routed =>
    rcases mem_append.mp inside with old | new
    · exact .before old
    · exact .late (by simp [queue]) routed rfl (mem_singleton.mp new)
  | finish queue status =>
    rcases mem_append.mp inside with old | new
    · exact .before old
    · exact .done (by simp [queue]) rfl (mem_singleton.mp new)
  | _ => exact .before inside

/-- The responses are what was noted, from the first window of a request to its result. -/
structure Accounted (log : List Note) (a : IPodAgent) : Prop where
  waiting : ∀ item ∈ a.pending, Waiting log item.serial item.response
  ended : ∀ item ∈ a.done, Ended log item
  taken : ∀ item, Note.taken item ∈ log → Ended log item
  unused : ∀ serial, a.submitted ≤ serial → Waiting log serial []

theorem Waiting.written {response bytes : Bytes} {offset : UInt32}
    (waiting : Waiting log serial response)
    (follows : offset = 0 ∨ offset.toNat = response.length) :
    Waiting (log ++ (some (Note.wrote serial offset bytes)).toList) serial
      (withWindow response offset bytes) := by
  refine ⟨?_, ?_⟩
  · have one : windowsOf (some (Note.wrote serial offset bytes)).toList serial =
        [(offset, bytes)] := by
      simp [windowsOf]
    rw [windowsOf_append, one]
    exact waiting.1.add bytes follows
  · intro status noted
    rcases mem_noted.mp noted with old | new
    · exact waiting.2 status old
    · cases new

/-- A request that was worked on is completed. -/
theorem Waiting.finished (waiting : Waiting log item.serial item.response) (status : Int) :
    Ended (log ++ (some (Note.finished item.serial status)).toList)
      (item.ended status item.response) := by
  refine .done (mem_noted.mpr (.inr rfl)) ?_ ?_
  · intro other noted
    rcases mem_noted.mp noted with old | new
    · exact absurd old (waiting.2 other)
    · cases new
      rfl
  · have silent : windowsOf (some (Note.finished item.serial status)).toList item.serial = [] := rfl
    change BodyOf (windowsOf (log ++ _) item.serial) item.response
    rw [windowsOf_append, silent, append_nil]
    exact waiting.1

theorem Accounted.waiting_move (accounted : Accounted log a) (sound : Sound a) (move : Move a n b) :
    ∀ item ∈ b.pending, Waiting (log ++ n.toList) item.serial item.response := by
  intro item' inside
  cases move.queued sound item' inside with
  | fresh serial response quiet =>
    rw [serial, response, quiet]
    exact (accounted.unused _ le_rfl).keep ⟨by simp, by simp⟩
  | kept inside serial response quiet =>
    rw [serial, response]
    exact (accounted.waiting _ inside).keep quiet
  | written inside serial noted follows response =>
    rw [serial, response, noted]
    exact (accounted.waiting _ inside).written follows

theorem Accounted.ended_move (accounted : Accounted log a) (sound : Sound a) (move : Move a n b) :
    ∀ item ∈ b.done, Ended (log ++ n.toList) item := by
  intro item' inside
  cases move.completed item' inside with
  | before inside =>
    refine (accounted.ended item' inside).keep (move.quiet ?_)
    intro head first
    cases queue : a.pending with
    | nil => simp [queue] at first
    | cons item rest =>
      rw [queue, head?_cons, Option.mem_some_iff] at first
      exact first ▸ sound.distinct queue item' (mem_append_right _ inside)
  | done inside noted same =>
    rw [same, noted]
    exact (accounted.waiting _ inside).finished _
  | lost inside busy quiet same =>
    rw [same, quiet, Option.toList_none, append_nil]
    exact .lost busy rfl rfl (accounted.waiting _ inside).2
  | late inside routed quiet same =>
    rw [same, quiet, Option.toList_none, append_nil]
    exact .late routed rfl rfl (accounted.waiting _ inside).2

theorem mem_reported (noted : Note.taken item ∈ log) : item.serial ∈ reported log :=
  mem_filterMap.mpr ⟨.taken item, noted, rfl⟩

theorem Accounted.taken_move (accounted : Accounted log a) (told : Spent (reported log) a)
    (move : Move a n b) :
    ∀ item, Note.taken item ∈ log ++ n.toList → Ended (log ++ n.toList) item := by
  intro item noted
  rcases mem_noted.mp noted with old | new
  · refine (accounted.taken item old).keep (move.quiet ?_)
    intro head first same
    refine told.gone _ (mem_reported old) ?_
    rw [← same]
    exact mem_map_of_mem (mem_append_left _ (mem_of_mem_head? first))
  · subst new
    cases move with
    | take queue => exact (accounted.ended item (by simp [queue])).keep ⟨by simp, by simp⟩

theorem Accounted.move (accounted : Accounted log a) (kept : Kept log a) (move : Move a n b) :
    Accounted (log ++ n.toList) b := by
  refine ⟨accounted.waiting_move kept.sound move, accounted.ended_move kept.sound move,
    accounted.taken_move kept.told move, ?_⟩
  intro serial later
  have before := move.rekeyed.serial.1.trans later
  refine (accounted.unused serial before).keep (move.quiet ?_)
  intro head first
  have below := kept.sound.known head (mem_append_left _ (mem_of_mem_head? first))
  omega

/-- Who a marked or routed request belongs to. -/
structure Attributed (log : List Note) (a : IPodAgent) : Prop where
  root : ∀ item ∈ a.pending, item.dispatched = true → item.uiCookie = 0 →
    Note.handed item.serial a.token ∈ log
  routed : ∀ item ∈ a.pending, item.uiCookie ≠ 0 → Note.routed item.serial item.uiCookie ∈ log

/-- No request is marked or routed anew. -/
theorem Attributed.keep {more : List Note} (attributed : Attributed log a)
    (marks : ∀ item ∈ b.pending, item.dispatched = false ∧ item.uiCookie = 0 ∨
      item ∈ a.pending ∧ (item.dispatched = true → b.token = a.token)) :
    Attributed (log ++ more) b := by
  refine ⟨?_, ?_⟩
  · intro item inside busy root
    rcases marks item inside with ⟨idle, -⟩ | ⟨inside, keeps⟩
    · simp [idle] at busy
    · rw [keeps busy]
      exact mem_append_left _ (attributed.root item inside busy root)
  · intro item inside other
    rcases marks item inside with ⟨-, root⟩ | ⟨inside, -⟩
    · exact absurd root other
    · exact mem_append_left _ (attributed.routed item inside other)

/-- Requests are taken away. -/
theorem Attributed.shrink {more : List Note} (attributed : Attributed log a)
    (fewer : b.pending <+ a.pending)
    (claim : b.token = a.token ∨ ∀ item ∈ b.pending, item.dispatched = false) :
    Attributed (log ++ more) b := by
  refine attributed.keep ?_
  intro item inside
  refine .inr ⟨fewer.subset inside, ?_⟩
  intro busy
  cases claim with
  | inl same => exact same
  | inr idle => simp [idle item inside] at busy

/-- The request at the head is changed. -/
theorem Attributed.amend {more : List Note} {item' : Item} {rest : List Item}
    (attributed : Attributed log a) (queue : a.pending = item :: rest)
    (queue' : b.pending = item' :: rest) (token : b.token = a.token)
    (root : item'.dispatched = true → item'.uiCookie = 0 →
      Note.handed item'.serial a.token ∈ log ++ more)
    (routed : item'.uiCookie ≠ 0 → Note.routed item'.serial item'.uiCookie ∈ log ++ more) :
    Attributed (log ++ more) b := by
  have before : ∀ other ∈ rest, other ∈ a.pending := fun other inside => by simp [queue, inside]
  rw [← token] at root
  refine ⟨?_, ?_⟩
  · intro other inside busy zero
    rw [queue'] at inside
    rcases mem_cons.mp inside with rfl | inside
    · exact root busy zero
    · rw [token]
      exact mem_append_left _ (attributed.root other (before other inside) busy zero)
  · intro other inside cookie
    rw [queue'] at inside
    rcases mem_cons.mp inside with rfl | inside
    · exact routed cookie
    · exact mem_append_left _ (attributed.routed other (before other inside) cookie)

theorem Attributed.move (attributed : Attributed log a) (sound : Sound a) (move : Move a n b) :
    Attributed (log ++ n.toList) b := by
  have marked := sound.marked
  cases move with
  | submit id request room new text =>
    refine attributed.keep ?_
    intro item inside
    rcases mem_append.mp inside with old | fresh
    · exact .inr ⟨old, fun _ => rfl⟩
    · rw [mem_singleton.mp fresh]
      exact .inl ⟨rfl, rfl⟩
  | withdraw queue _ | expire queue _ | lapse queue _ | finish queue _ =>
    exact attributed.shrink (by simp [queue]) (.inl rfl)
  | revoke queue busy =>
    exact attributed.shrink (by simp [queue]) (.inr (marked.others queue busy))
  | reset => exact attributed.shrink (by simp) (.inr (by simp))
  | forget queue | take queue | tick now => exact attributed.shrink (Sublist.refl _) (.inl rfl)
  | claim token idle => exact attributed.shrink (Sublist.refl _) (.inr (marked.unmarked idle))
  | hand held queue root text =>
    exact attributed.amend queue rfl rfl (fun _ _ => mem_noted.mpr (.inr rfl))
      fun cookie => absurd root cookie
  | @mark item rest held queue other =>
    have own : item ∈ a.pending := by simp [queue]
    -- The texts of requests are not empty: this one is routed.
    have cookie := other.resolve_right (sound.texts item own)
    exact attributed.amend queue rfl rfl (fun _ zero => absurd zero cookie)
      fun cookie => mem_append_left _ (attributed.routed item own cookie)
  | @route item rest queue root pid cookie sequence deadline =>
    have own : item ∈ a.pending := by simp [queue]
    exact attributed.amend queue rfl rfl
      (fun busy _ => mem_append_left _ (attributed.root item own busy root))
      fun _ => mem_noted.mpr (.inr rfl)
  | @write item rest queue offset bytes follows =>
    have own : item ∈ a.pending := by simp [queue]
    exact attributed.amend queue rfl rfl
      (fun busy zero => mem_append_left _ (attributed.root item own busy zero))
      fun cookie => mem_append_left _ (attributed.routed item own cookie)

theorem Moved.attributed (moved : Moved IPodAgent.new log a) :
    Accounted log a ∧ Attributed log a := by
  generalize start : new = first at moved
  induction moved with
  | refl =>
    subst start
    have untouched : ∀ serial, Waiting [] serial [] := fun serial => ⟨.inl ⟨rfl, rfl⟩, by simp⟩
    exact ⟨⟨by simp [new], by simp [new], by simp, fun serial _ => untouched serial⟩,
      by constructor <;> simp [new]⟩
  | snoc before move ih =>
    subst start
    have kept := before.kept
    exact ⟨ih.1.move kept move, ih.2.move kept.sound move⟩

/-- The calls that write a response or complete a request: those of the daemon, and those of the
user interface. -/
def Call.Completes (k : Call) : Prop :=
  (k.op = 0x163 ∨ k.op = 0x164) ∨ k.op = 0x168 ∨ k.op = 0x169

/-- The window of a call is added to the response of the request at the head, or the request is
completed with the status of the call. Every other request stays as it is. -/
inductive Served (a : IPodAgent) (k : Call) (item : Item) (rest : List Item) :
    IPodAgent → Prop where
  | wrote : Served a k item rest { a with
      pending := { item with response := withWindow item.response k.offset k.loaded } :: rest }
  | finished : Served a k item rest { a with
      pending := rest, done := a.done ++ [item.ended k.status item.response] }

theorem write_served (k : Call) : (write a k).2 = a ∨
    ∃ item rest, a.pending = item :: rest ∧ Served a k item rest (write a k).2 := by
  unfold write
  split
  case h_2 => exact .inl rfl
  case h_1 item rest queue =>
    split
    case h_2 => exact .inl rfl
    case h_1 bytes taken =>
      obtain ⟨rfl, -⟩ := window_some taken
      refine .inr ⟨item, rest, queue, ?_⟩
      simp only [amend, queue]
      exact .wrote

theorem finish_served (k : Call) : (finish a k).2 = a ∨
    ∃ item rest, a.pending = item :: rest ∧ Served a k item rest (finish a k).2 := by
  unfold finish
  split
  case h_2 => exact .inl rfl
  case h_1 item rest queue =>
    refine .inr ⟨item, rest, queue, ?_⟩
    simp only [complete, queue]
    exact .finished

theorem windowCall_served (k : Call) {op : Nat} (completes : op = 0x163 ∨ op = 0x164) :
    (windowCall a k op).2 = a ∨
      ∃ item rest, a.pending = item :: rest ∧ Served a k item rest (windowCall a k op).2 := by
  rcases completes with rfl | rfl
  · exact write_served k
  · exact finish_served k

/-- The request at the head is the caller's: handed out under its token by POLL, or, for a call of
the user interface, routed to its cookie. -/
def Owns (log : List Note) (k : Call) (item : Item) : Prop :=
  if k.op = 0x168 ∨ k.op = 0x169 then Note.routed item.serial k.token ∈ log
  else Note.handed item.serial k.token ∈ log

/-- The call leaves the queue alone, or serves the caller's own request. -/
def ServesOwn (log : List Note) (a : IPodAgent) (k : Call) : Prop :=
  (call a k).2 = a ∨ ∃ item rest, a.pending = item :: rest ∧ Owns log k item ∧
    Served a k item rest (call a k).2

/-- A WRITE or DONE of the daemon that changes the queue finds the request at the head
dispatched. -/
def FindsDispatched (a : IPodAgent) (k : Call) : Prop :=
  k.op = 0x163 ∨ k.op = 0x164 → (call a k).2 ≠ a → ∀ item ∈ a.pending.head?, item.dispatched = true

/-- The daemon serves its own request exactly if the head is dispatched: then it was handed out
under the token that holds, and else to nobody. -/
theorem daemonCall_servesOwn {k : Call} (fenced : Fenced log a) (attributed : Attributed log a)
    (completes : k.op = 0x163 ∨ k.op = 0x164) : ServesOwn log a k ↔ FindsDispatched a k := by
  have calls : call a k = daemonCall a k := by rw [call, if_neg (by omega), if_neg (by omega)]
  have owns (item : Item) : Owns log k item ↔ Note.handed item.serial k.token ∈ log := by
    rw [Owns, if_neg (by omega)]
  unfold ServesOwn FindsDispatched
  rw [calls]
  constructor
  · rintro (same | ⟨item, rest, queue, own, -⟩) - changes head first
    · exact absurd same changes
    rw [queue, head?_cons, Option.mem_some_iff] at first
    subst first
    exact (fenced.current _ _ ((owns item).mp own) item (by simp [queue]) rfl).1
  · intro dispatched
    by_cases same : (daemonCall a k).2 = a
    · exact .inl same
    cases daemonCalled a k with
    | refused answer => exact absurd (by rw [answer]) same
    | routed queue root op answer => omega
    | served held own root answer =>
      rw [answer] at same
      obtain ⟨item, rest, queue, served⟩ := (windowCall_served k completes).resolve_left same
      have zero : item.uiCookie = 0 := root (by omega) (by omega) item (by simp [queue])
      have busy := dispatched completes (by rwa [answer]) item (by simp [queue])
      refine .inr ⟨item, rest, queue, (owns item).mpr ?_, by rwa [answer]⟩
      rw [own]
      exact attributed.root item (by simp [queue]) busy zero

theorem uiCall_servesOwn {k : Call} (attributed : Attributed log a)
    (completes : k.op = 0x168 ∨ k.op = 0x169) : ServesOwn log a k := by
  have calls : call a k = uiCall a k := by rw [call, if_neg (by omega), if_pos (by omega)]
  unfold ServesOwn
  rw [calls]
  cases uiCalled a k with
  | refused answer => exact .inl (by rw [answer])
  | asked op answer => omega
  | @served head behind queue routed own other answer =>
    rw [answer]
    rcases windowCall_served k (by omega : k.op - 5 = 0x163 ∨ k.op - 5 = 0x164) with
      same | ⟨item, rest, queue', served⟩
    · exact .inl same
    refine .inr ⟨item, rest, queue', ?_, served⟩
    have same : head = item := by
      rw [queue] at queue'
      exact (cons.inj queue').1
    subst same
    rw [Owns, if_pos completes, own]
    exact attributed.routed head (by simp [queue]) routed

/-- A base64 that changes nothing. -/
def plain : Base64 := ⟨id, id⟩

/-- A guest call whose copies all succeed. -/
def guestCall (op : Nat) (token : UInt64) (offset : UInt32) (now : Int) (candidate : UInt64) :
    Call :=
  ⟨op, token, 0, offset, 0, now, candidate, ⟨fun _ _ => true, fun _ => some fun _ => 0⟩, 0⟩

/-- A daemon is handed the first of two requests. -/
def handedFirst : List Event :=
  [.submit (ascii "a x\n"), .submit (ascii "b x\n"), .call (guestCall 0x160 0 0 0 1),
    .call (guestCall 0x161 1 0 1 2)]

/-- The times do not decrease, and no candidate token comes twice. -/
def Ordered (events : List Event) : Prop :=
  (events.filterMap fun
    | .call k => some k
    | _ => none).Pairwise fun k k' => k.now ≤ k'.now ∧ k.candidate ≠ k'.candidate

instance (events : List Event) : Decidable (Ordered events) := by
  unfold Ordered
  infer_instance

/-- The daemon completes the request it was handed. -/
def firstDone : List Event := handedFirst ++ [.call (guestCall 0x164 1 0 2 3)]

/-- A daemon is handed a request and never heard of again. -/
def lostDaemon : List Event :=
  [.submit (ascii "a x\n"), .call (guestCall 0x160 0 0 0 1), .call (guestCall 0x161 1 0 1 2),
    .call (guestCall 0x160 0 0 10002 3), .take]

end QemuIos.Agent

import QemuIos.Guest.Pasteboard

/-!
# What the pasteboard delivers and publishes

The host may replace the text between any two calls of the guest, and an acknowledgement does not
say which text it is about. What waits is a function of the turns so far (`waiting`), and a read
gives the guest a window of it (`Inv.shown`); so a text is acknowledged unread exactly if the reads
since it was set leave out some of it. The staged item is the concatenation of the windows since
its first write, because every call that fails drops it.
-/

namespace QemuIos.Pasteboard

open CText List GuestPasteboard

def Event.sets : Event → Bool
  | .hostSet _ => true
  | .call _ => false

/-- The text that waits for the guest. -/
def waiting (events : List Event) : Option Bytes :=
  events.foldl (fun text e => match e with
    | .hostSet new => queued new
    | .call (.ack _) => none
    | .call _ => text) none

/-- The guest has got every byte of the text in the turns since the host last set one. -/
def ReadSince (turns : List (Event × Reply)) (text : Bytes) : Prop :=
  ∀ i (_ : i < text.length), ∃ offset length copies reply,
    (.call (.read offset length copies), reply) ∈ turns.rtakeWhile (!·.1.sets) ∧
    offset.toNat ≤ i ∧ reply.data[i - offset.toNat]? = text[i]?

/-- The windows of the reads that do not fault, since the host last set a text, cover the one that
waits. -/
def Covered (events : List Event) : Prop :=
  ∀ text, waiting events = some text → ∀ i < text.length, ∃ offset length,
    .call (.read offset length true) ∈ events.rtakeWhile (!·.sets) ∧
    offset.toNat ≤ i ∧ i < offset.toNat + length.toNat

/-- A write at offset 0. -/
def Restarts (turn : Event × Reply) : Prop :=
  ∃ window copies, turn.1 = .call (.write 0 window copies)

/-- The window of a write. -/
def windowOf : Event × Reply → Bytes
  | (.call (.write _ window _), _) => window
  | _ => []

def Succeeds (turn : Event × Reply) : Prop :=
  ∀ offset window copies, turn.1 = .call (.write offset window copies) →
    turn.2 = { retval := window.length }

/-- The windows written since the last write at offset 0, all of them successfully, make up the
bytes. -/
def Staged (turns : List (Event × Reply)) (bytes : Bytes) : Prop :=
  ∃ early first calls, turns = early ++ first :: calls ∧ Restarts first ∧
    (∀ turn ∈ calls, ¬ Restarts turn) ∧ (∀ turn ∈ first :: calls, Succeeds turn) ∧
    bytes = (first :: calls).flatMap windowOf

variable (before : List Event)

/-- A turn after some others records a text as delivered only if it has been read, and takes one
away unread only if the host sets a newer one. -/
def Faithful (e : Event) : Prop :=
  ((run (before ++ [e])).1.pbDeliveries ≠ (run before).1.pbDeliveries →
    ∀ text ∈ (run (before ++ [e])).1.pbDelivered, ReadSince (run before).2 text) ∧
  ∀ text ∈ (run before).1.pbOut, (run (before ++ [e])).1.pbOut ≠ some text →
    e.sets ∨ ReadSince (run before).2 text

/-- A commit publishes what is staged, or fails and changes nothing. -/
def Publishes : Prop :=
  let after := (run before).1.guestPbCall .commit
  (after.2 = {} ∧ ∃ bytes, Staged (run before).2 bytes ∧ after.1.pbGuest = some bytes ∧
    after.1.clipboard = some bytes ∧ after.1.guestText = cstr bytes) ∨
  (after.2 = { retval := -1, err := some .einval } ∧ after.1 = (run before).1)

section Runs

variable {turns : List (Event × Reply)} {turn : Event × Reply} {bytes : Bytes}

theorem Staged.first (restarts : Restarts turn) (succeeds : Succeeds turn) :
    Staged (turns ++ [turn]) (windowOf turn) :=
  ⟨turns, turn, [], rfl, restarts, by simp, by simpa using succeeds, by simp⟩

theorem Staged.next (staged : Staged turns bytes) (goes : ¬ Restarts turn)
    (succeeds : Succeeds turn) : Staged (turns ++ [turn]) (bytes ++ windowOf turn) := by
  obtain ⟨early, first, calls, rfl, restarts, later, all, rfl⟩ := staged
  refine ⟨early, first, calls ++ [turn], by simp, restarts, ?_, ?_, by simp⟩
  · intro other mem
    rcases mem_append.mp mem with mem | mem
    · exact later other mem
    · exact mem_singleton.mp mem ▸ goes
  · intro other mem
    rcases mem_append.mp (cons_append ▸ mem) with mem | mem
    · exact all other mem
    · exact mem_singleton.mp mem ▸ succeeds

theorem Staged.other (staged : Staged turns bytes)
    (noWrite : ∀ offset window copies, turn.1 ≠ .call (.write offset window copies)) :
    Staged (turns ++ [turn]) bytes := by
  have empty : windowOf turn = [] := by
    rcases turn with ⟨_ | ⟨_ | _ | _ | ⟨offset, window, copies⟩ | _⟩, _⟩
    all_goals first | rfl | exact absurd rfl (noWrite offset window copies)
  have := staged.next (fun ⟨window, copies, same⟩ => noWrite _ _ _ same)
    (fun offset window copies same => absurd same (noWrite offset window copies))
  rwa [empty, append_nil] at this

variable (events : List Event)

theorem waiting_concat (e : Event) :
    waiting (events ++ [e]) = match e with
      | .hostSet new => queued new
      | .call (.ack _) => none
      | .call _ => waiting events := by
  rw [waiting, foldl_append]
  rfl

/-- What the channel keeps, whatever the order of the turns. -/
structure Inv (pb : GuestPasteboard) (turns : List (Event × Reply)) : Prop where
  waits : pb.pbOut = waiting (turns.map Prod.fst)
  shown : ∀ text, pb.pbOut = some text → ∀ offset length copies reply,
    (.call (.read offset length copies), reply) ∈ turns.rtakeWhile (!·.1.sets) →
    reply.data = if copies then (text.drop offset.toNat).take length.toNat else []
  staged : ∀ bytes, pb.pbIn = some bytes → Staged turns bytes

variable {pb : GuestPasteboard}

theorem data_read {text : Bytes} (waits : pb.pbOut = some text)
    (offset length : UInt32) (copies : Bool) :
    (pb.guestPbCall (.read offset length copies)).2.data =
      if copies then (text.drop offset.toNat).take length.toNat else [] := by
  simp only [guestPbCall, waits]
  split_ifs with past copies
  · rw [drop_eq_nil_of_le past, take_nil]
  · rfl
  · show take _ _ = _
    rw [← length_drop, ← take_eq_take_min]
  · rfl

theorem read_keeps (pb : GuestPasteboard) (offset length : UInt32) (copies : Bool) :
    (pb.guestPbCall (.read offset length copies)).1 = pb := by
  dsimp only [guestPbCall]
  split
  · rfl
  · split_ifs <;> rfl

theorem pbOut_call (c : Call) :
    (pb.guestPbCall c).1.pbOut = match c with
      | .ack _ => none
      | _ => pb.pbOut := by
  cases c with
  | poll => rfl
  | read => rw [read_keeps]
  | ack =>
    dsimp only [guestPbCall]
    split
    · assumption
    · rfl
  | write => dsimp only [guestPbCall]; split_ifs <;> rfl
  | commit => rcases pb with ⟨_, _ | _⟩ <;> rfl

/-- Only an acknowledgement records a text, and it is the one that waits. -/
theorem recorded_call {c : Call}
    (counts : (pb.guestPbCall c).1.pbDeliveries ≠ pb.pbDeliveries) :
    (∃ now, c = .ack now) ∧ (pb.guestPbCall c).1.pbDelivered = pb.pbOut := by
  cases c with
  | poll => exact absurd rfl counts
  | read => exact absurd (by rw [read_keeps]) counts
  | ack now =>
    refine ⟨⟨now, rfl⟩, ?_⟩
    cases waits : pb.pbOut <;> simp_all [guestPbCall]
  | write =>
    refine absurd ?_ counts
    dsimp only [guestPbCall]; split_ifs <;> rfl
  | commit => rcases pb with ⟨_, _ | _⟩ <;> exact absurd rfl counts

theorem waiting_step (inv : Inv pb turns) (e : Event) :
    (step (pb, turns) e).1.pbOut = waiting ((step (pb, turns) e).2.map Prod.fst) := by
  cases e with
  | hostSet text =>
    simp only [step, map_append, map_singleton, waiting_concat]
    cases new : queued text <;> simp [guestPbSet, new]
  | call c =>
    simp only [step, map_append, map_singleton, waiting_concat, pbOut_call]
    cases c <;> simp [inv.waits]

theorem shown_step (inv : Inv pb turns) (e : Event) (text : Bytes)
    (waits : (step (pb, turns) e).1.pbOut = some text) (offset length : UInt32) (copies : Bool)
    (reply : Reply)
    (mem : (.call (.read offset length copies), reply) ∈
      (step (pb, turns) e).2.rtakeWhile (!·.1.sets)) :
    reply.data = if copies then (text.drop offset.toNat).take length.toNat else [] := by
  cases e with
  | hostSet new => simp [step, Event.sets] at mem
  | call c =>
    have still : pb.pbOut = some text := by
      simp only [step, pbOut_call] at waits
      cases c <;> simp_all
    simp only [step, rtakeWhile_concat, Event.sets, Bool.not_false, if_true,
      mem_append, mem_singleton, Prod.mk.injEq, Event.call.injEq] at mem
    rcases mem with earlier | ⟨rfl, rfl⟩
    · exact inv.shown text still offset length copies reply earlier
    · exact data_read still offset length copies

/-- A write that is taken starts an item or goes on with the one being staged. -/
theorem write_taken {offset : UInt32} {window : Bytes} {copies : Bool}
    (has : (pb.guestPbCall (.write offset window copies)).1.pbIn = some bytes) :
    (pb.guestPbCall (.write offset window copies)).2 = { retval := window.length } ∧
      (offset = 0 ∧ bytes = window ∨
        offset ≠ 0 ∧ ∃ start, pb.pbIn = some start ∧ bytes = start ++ window) := by
  dsimp only [guestPbCall] at has ⊢
  by_cases refused : offset.toNat ≠ ((if offset = 0 then none else pb.pbIn).getD []).length ∨
      qcPbMaxLen < window.length ∨ qcPbMaxLen < offset.toNat + window.length
  · rw [if_pos refused] at has
    cases has
  cases copies with
  | false => rw [if_neg refused] at has; cases has
  | true =>
    rw [if_neg refused] at has ⊢
    cases has
    refine ⟨rfl, ?_⟩
    by_cases zero : offset = 0
    · exact .inl ⟨zero, by rw [if_pos zero]; rfl⟩
    rw [if_neg zero] at refused ⊢
    cases staged : pb.pbIn with
    | some start => exact .inr ⟨zero, start, rfl, rfl⟩
    | none =>
      rw [staged] at refused
      exact absurd (UInt32.toNat_inj.mp (of_not_not (not_or.mp refused).1)) zero

theorem staged_step (inv : Inv pb turns) (e : Event) (bytes : Bytes)
    (has : (step (pb, turns) e).1.pbIn = some bytes) : Staged (step (pb, turns) e).2 bytes := by
  have other {e : Event} {reply : Reply} (same : pb.pbIn = some bytes)
      (noWrite : ∀ offset window copies, e ≠ .call (.write offset window copies)) :
      Staged (turns ++ [(e, reply)]) bytes := (inv.staged bytes same).other noWrite
  cases e with
  | hostSet text =>
    have same : (pb.guestPbSet text).pbIn = pb.pbIn := by
      dsimp only [guestPbSet]; split <;> rfl
    exact other (same ▸ has) (by simp)
  | call c =>
    cases c with
    | poll => exact other has (by simp)
    | read offset length copies => exact other (read_keeps pb .. ▸ has) (by simp)
    | ack now =>
      have same : (pb.guestPbCall (.ack now)).1.pbIn = pb.pbIn := by
        dsimp only [guestPbCall]; split <;> rfl
      exact other (same ▸ has) (by simp)
    | commit => rcases pb with ⟨_, _ | _⟩ <;> cases has
    | write offset window copies =>
      obtain ⟨reply, ⟨rfl, rfl⟩ | ⟨further, start, staged, rfl⟩⟩ := write_taken has
      · exact .first ⟨_, _, rfl⟩ fun _ _ _ same => by cases same; exact reply
      refine (inv.staged start staged).next ?_ fun _ _ _ same => by cases same; exact reply
      rintro ⟨_, _, same⟩
      cases same
      exact further rfl

theorem inv_run : Inv (run events).1 (run events).2 := by
  induction events using reverseRecOn with
  | nil => exact ⟨rfl, nofun, nofun⟩
  | append_singleton events e ih =>
    rw [run, foldl_append]
    exact ⟨waiting_step ih e, shown_step ih e, staged_step ih e⟩

theorem turns_run : (run events).2.map Prod.fst = events := by
  induction events using reverseRecOn with
  | nil => rfl
  | append_singleton events e ih =>
    rw [run, foldl_append, ← run]
    cases e <;> simp [step, ih]

theorem run_concat (e : Event) : run (events ++ [e]) = step (run events) e :=
  foldl_append

theorem mem_since {events : List Event} {e : Event} :
    e ∈ events.rtakeWhile (!·.sets) ↔
      ∃ reply, (e, reply) ∈ (run events).2.rtakeWhile (!·.1.sets) := by
  conv_lhs => rw [← turns_run events, rtakeWhile, ← map_reverse, takeWhile_map]
  simp [rtakeWhile, Function.comp_def]

/-- The guest has read the text that waits exactly if its reads cover it. -/
theorem readSince_iff :
    (∀ text, (run events).1.pbOut = some text → ReadSince (run events).2 text) ↔
      Covered events := by
  have inv := inv_run events
  have waits : (run events).1.pbOut = waiting events := by rw [inv.waits, turns_run]
  refine forall_congr' fun text => ?_
  rw [waits]
  refine imp_congr_right fun is => forall_congr' fun i => imp_congr_right fun inside => ?_
  have shown := inv.shown text (waits.trans is)
  constructor
  · rintro ⟨offset, length, copies, reply, mem, above, byte⟩
    have data := shown offset length copies reply mem
    rw [List.getElem?_eq_getElem inside] at byte
    obtain ⟨short, -⟩ := List.getElem?_eq_some_iff.mp byte
    cases copies with
    | false => simp [data] at short
    | true =>
      rw [data, if_pos rfl, length_take] at short
      exact ⟨offset, length, mem_since.mpr ⟨reply, mem⟩, above, by omega⟩
  · rintro ⟨offset, length, mem, above, below⟩
    obtain ⟨reply, mem⟩ := mem_since.mp mem
    refine ⟨offset, length, true, reply, mem, above, ?_⟩
    rw [shown offset length true reply mem, if_pos rfl, getElem?_take_of_lt (by omega),
      getElem?_drop, Nat.add_sub_cancel' above]

theorem faithful_iff (e : Event) :
    Faithful before e ↔ ∀ now, e = .call (.ack now) → Covered before := by
  rw [Faithful, run_concat, ← readSince_iff]
  cases e with
  | hostSet text =>
    have same : ((run before).1.guestPbSet text).pbDeliveries = (run before).1.pbDeliveries := by
      dsimp only [guestPbSet]; split <;> rfl
    exact iff_of_true ⟨fun counts => absurd same counts, fun _ _ _ => .inl rfl⟩ nofun
  | call c =>
    constructor
    · rintro ⟨-, dropped⟩ now same text waits
      cases same
      exact (dropped text waits (by simp [step, pbOut_call])).resolve_left nofun
    · intro read
      constructor
      · intro counts text delivered
        obtain ⟨⟨now, rfl⟩, taken⟩ := recorded_call counts
        exact read now rfl text (taken.symm.trans delivered)
      · intro text waits gone
        simp only [step, pbOut_call] at gone
        cases c with
        | ack now => exact .inr (read now rfl text waits)
        | _ => exact absurd waits gone

theorem publishes : Publishes before := by
  cases staged : (run before).1.pbIn with
  | none => exact .inr (by simp [guestPbCall, staged])
  | some bytes =>
    refine .inl ⟨?_, bytes, (inv_run before).staged bytes staged, ?_⟩ <;>
      simp [guestPbCall, guestPbGuestCommit, staged]

end Runs

/-- Every turn of a run is faithful to the texts exactly if the guest's reads cover the text that
waits before each acknowledgement, and a commit publishes the windows of the staged item. -/
theorem delivered_read_iff (events : List Event) :
    ((∀ before e, before ++ [e] <+: events → Faithful before e) ↔
      ∀ before now, before ++ [.call (.ack now)] <+: events → Covered before) ∧
    Publishes events := by
  refine ⟨?_, publishes events⟩
  simp only [faithful_iff]
  constructor
  · intro all before now part
    exact all before _ part now rfl
  · rintro all before e part now rfl
    exact all before now part

/-- The host replaces `a` by `b` between the guest's read and its acknowledgement. -/
theorem replaced_unread : ¬ ∀ before e,
    before ++ [e] <+: [.hostSet (some [97]), .call (.poll 1), .call (.read 0 1 true),
      .hostSet (some [98]), .call (.ack 2)] → Faithful before e := by
  intro all
  obtain ⟨recorded, -⟩ := all [.hostSet (some [97]), .call (.poll 1), .call (.read 0 1 true),
    .hostSet (some [98])] (.call (.ack 2)) (prefix_rfl)
  obtain ⟨offset, length, copies, reply, mem, -⟩ := recorded (by decide) [98] rfl 0 (by decide)
  exact nomatch mem

end QemuIos.Pasteboard

import QemuIos.Agent.Queue

/-!
# The moves of the queue

What a caller can tell from the answers it gets is written down as notes: POLL handed out a request,
a request was routed, a window was taken, a request was completed, a result was reported. Every
event is a sequence of at most two moves, and the notes of the moves are those of the answers. What
holds in all histories is then shown one move at a time.
-/

namespace QemuIos.Agent

open CText IPodAgent List Option

variable {a b : IPodAgent} {item : Item} {k : Call}

/-- What an answer tells. -/
inductive Note where
  | handed (serial : Nat) (token : UInt64)
  | routed (serial : Nat) (cookie : UInt64)
  | wrote (serial : Nat) (offset : UInt32) (bytes : Bytes)
  | finished (serial : Nat) (status : Int)
  | taken (item : Item)
deriving Repr, DecidableEq

/-- The bytes a call loads from the guest. -/
def Call.loaded (k : Call) : Bytes :=
  match k.copy.load k.address with
  | some chunk => (List.range k.length.toNat).map chunk
  | none => []

/-- The status a DONE carries. -/
def Call.status (k : Call) : Int := k.offset.toBitVec.toInt

/-- What the answer to a guest call tells: a POLL that returns a length has handed out the request
at the head, and so on. -/
def heard (a : IPodAgent) (k : Call) : Option Note :=
  if k.op = 0x161 then
    if 0 < (call a k).1 then
      (call a k).2.pending.head?.map fun item => .handed item.serial k.token
    else
      none
  else if k.op = 0x16a then
    if (call a k).1 = 0 then
      (call a k).2.pending.head?.map fun item => .routed item.serial item.uiCookie
    else
      none
  else if k.op = 0x163 ∨ k.op = 0x168 then
    if (call a k).1 = -1 then
      none
    else
      a.pending.head?.map fun item => .wrote item.serial k.offset k.loaded
  else if k.op = 0x164 ∨ k.op = 0x169 then
    if (call a k).1 = 0 then
      a.pending.head?.map fun item => .finished item.serial k.status
    else
      none
  else
    none

/-- What an event tells. -/
def note (a : IPodAgent) : Event → Option Note
  | .call k => heard a k
  | .take => a.done.head?.map .taken
  | _ => none

/-- A request as it is queued. -/
def Item.fresh (serial : Nat) (id request : Bytes) : Item :=
  { serial := serial, id := id, request := request, response := [], status := 0,
    dispatched := false, uiPid := 0, uiCookie := 0, uiDeadline := 0 }

/-- A request with the status and the response it ends with. -/
def Item.ended (item : Item) (status : Int) (response : Bytes) : Item :=
  { item with status := status, response := response }

/-- One move, and what is noted of it. -/
inductive Move : IPodAgent → Option Note → IPodAgent → Prop where
  | submit {a : IPodAgent} (id request : Bytes) (room : a.pending.length + a.done.length < queueMax)
      (new : ∀ item ∈ a.pending ++ a.done, item.id ≠ id) (text : request ≠ []) :
      Move a none { a with
        pending := a.pending ++ [Item.fresh a.submitted id request]
        submitted := a.submitted + 1 }
  | withdraw {a : IPodAgent} {left right : List Item} {item : Item}
      (queue : a.pending = left ++ item :: right) (idle : item.dispatched = false) :
      Move a none { a with pending := left ++ right }
  | revoke {a : IPodAgent} {left right : List Item} {item : Item}
      (queue : a.pending = left ++ item :: right) (busy : item.dispatched = true) :
      Move a none { a with pending := left ++ right, claimed := false, token := 0 }
  | forget {a : IPodAgent} {left right : List Item} {item : Item}
      (queue : a.done = left ++ item :: right) :
      Move a none { a with done := left ++ right }
  | reset {a : IPodAgent} :
      Move a none { a with pending := [], done := [], token := 0, claimed := false }
  | take {a : IPodAgent} {item : Item} {rest : List Item} (queue : a.done = item :: rest) :
      Move a (some (.taken item)) { a with done := rest }
  | tick {a : IPodAgent} (now : Int) : Move a none { a with lastPoll := now }
  -- The lease of a daemon that was handed the request at the head has run out.
  | expire {a : IPodAgent} {item : Item} {rest : List Item} (queue : a.pending = item :: rest)
      (busy : item.dispatched = true) :
      Move a none { a with
        pending := rest
        done := a.done ++ [item.ended connReset []]
        claimed := false }
  | claim {a : IPodAgent} (token : UInt64)
      (idle : a.claimed = true → ∀ item ∈ a.pending.head?, item.dispatched = false) :
      Move a none { a with token := token, claimed := true }
  -- The time of a process of the user interface is over.
  | lapse {a : IPodAgent} {item : Item} {rest : List Item} (queue : a.pending = item :: rest)
      (routed : item.uiCookie ≠ 0) :
      Move a none { a with pending := rest, done := a.done ++ [item.ended timedOut []] }
  | hand {a : IPodAgent} {item : Item} {rest : List Item} (held : a.claimed = true)
      (queue : a.pending = item :: rest) (root : item.uiCookie = 0) (text : item.request ≠ []) :
      Move a (some (.handed item.serial a.token))
        { a with pending := { item with dispatched := true } :: rest }
  | mark {a : IPodAgent} {item : Item} {rest : List Item} (held : a.claimed = true)
      (queue : a.pending = item :: rest) (other : item.uiCookie ≠ 0 ∨ item.request = []) :
      Move a none { a with pending := { item with dispatched := true } :: rest }
  | route {a : IPodAgent} {item : Item} {rest : List Item} (queue : a.pending = item :: rest)
      (root : item.uiCookie = 0) (pid : UInt32) (cookie sequence : UInt64) (deadline : Int) :
      Move a (some (.routed item.serial cookie)) { a with
        pending := { item with uiPid := pid, uiCookie := cookie, uiDeadline := deadline } :: rest
        uiSequence := sequence }
  | write {a : IPodAgent} {item : Item} {rest : List Item} (queue : a.pending = item :: rest)
      (offset : UInt32) (bytes : Bytes)
      (follows : offset = 0 ∨ offset.toNat = item.response.length) :
      Move a (some (.wrote item.serial offset bytes)) { a with
        pending := { item with response := withWindow item.response offset bytes } :: rest }
  | finish {a : IPodAgent} {item : Item} {rest : List Item} (queue : a.pending = item :: rest)
      (status : Int) :
      Move a (some (.finished item.serial status))
        { a with pending := rest, done := a.done ++ [item.ended status item.response] }

/-- A sequence of moves, with what is noted on the way. -/
inductive Moved : IPodAgent → List Note → IPodAgent → Prop where
  | refl {a : IPodAgent} : Moved a [] a
  | snoc {a b c : IPodAgent} {log : List Note} {n : Option Note} (before : Moved a log b)
      (move : Move b n c) : Moved a (log ++ n.toList) c

theorem Move.moved {n : Option Note} (move : Move a n b) : Moved a n.toList b := by
  have one := Moved.refl.snoc move
  simpa using one

theorem Moved.trans {c : IPodAgent} {log more : List Note} (first : Moved a log b)
    (second : Moved b more c) : Moved a (log ++ more) c := by
  induction second with
  | refl => simpa using first
  | snoc _ move ih =>
    rw [← append_assoc]
    exact ih.snoc move

theorem Move.andThen {c : IPodAgent} {n : Option Note} (first : Move a none b)
    (second : Move b n c) : Moved a n.toList c := by
  have both := first.moved.trans second.moved
  simpa using both

section Front

variable {b64 : Base64}

theorem parseRequest_text {request id bytes : Bytes}
    (parsed : parseRequest b64 request = .ok (id, bytes)) : bytes ≠ [] := by
  unfold parseRequest at parsed
  split at parsed
  · cases parsed
  split at parsed
  · cases parsed
  dsimp only at parsed
  split at parsed
  · cases parsed
  split at parsed
  · cases parsed
  split at parsed
  · cases parsed
  split at parsed
  · cases parsed
  cases parsed
  simp

theorem submit_moved (request : Bytes) : Moved a [] (submit b64 a request).2 := by
  unfold submit
  split
  case h_1 => exact .refl
  case h_2 id bytes parsed =>
    split
    case isFalse => exact .refl
    case isTrue free => exact (Move.submit id bytes free.1 free.2 (parseRequest_text parsed)).moved

/-- The first request that is sought splits the queue. -/
theorem eraseP_found {items : List Item} {item : Item} {id : Bytes}
    (found : items.find? (·.id == id) = some item) :
    ∃ left right, items = left ++ item :: right ∧ items.eraseP (·.id == id) = left ++ right := by
  obtain ⟨own, left, right, split, others⟩ := find?_eq_some_iff_append.mp found
  refine ⟨left, right, split, ?_⟩
  rw [split, eraseP_append_right _ (by simpa using others)]
  simp [own]

theorem cancel_moved (id : Bytes) : Moved a [] (cancel a id).2 := by
  unfold cancel
  split
  case h_1 item found =>
    obtain ⟨left, right, queue, erased⟩ := eraseP_found found
    cases busy : item.dispatched with
    | true =>
      simp only [if_true, erased]
      exact (Move.revoke queue busy).moved
    | false =>
      simp only [Bool.false_eq_true, if_false, erased]
      exact (Move.withdraw queue busy).moved
  case h_2 =>
    split
    case h_1 item found =>
      obtain ⟨left, right, queue, erased⟩ := eraseP_found found
      simp only [erased]
      exact (Move.forget queue).moved
    case h_2 => exact .refl

theorem takeResult_moved :
    Moved a (a.done.head?.map Note.taken).toList (takeResult b64 a).2 := by
  unfold takeResult
  split
  case h_1 empty =>
    rw [empty]
    exact .refl
  case h_2 item rest queue =>
    rw [queue]
    exact (Move.take queue).moved

end Front

theorem hello_moved : Moved a [] (hello a k).2 := by
  unfold hello
  split
  case isFalse => exact .refl
  case isTrue =>
    by_cases lost : a.claimed ∧ a.pending.head?.any (·.dispatched)
    · obtain ⟨item, rest, queue⟩ : ∃ item rest, a.pending = item :: rest := by
        cases queue : a.pending with
        | nil => simp [queue] at lost
        | cons item rest => exact ⟨item, rest, rfl⟩
      rw [if_pos lost, complete, queue]
      have expired := Move.expire queue (by simpa [queue] using lost.2)
      have claimed := expired.andThen (Move.claim (sessionToken k.candidate) (by simp))
      exact claimed.trans (Move.tick k.now).moved
    · rw [if_neg lost]
      have claimed : Move a none _ := Move.claim (sessionToken k.candidate) (by
        intro held item head
        by_contra busy
        exact lost ⟨held, by simp_all⟩)
      exact claimed.andThen (Move.tick k.now)

theorem dispatch_nil (queue : a.pending = []) : dispatch a = (0, a) := by
  simp [dispatch, amend, queue]

theorem dispatch_cons {rest : List Item} (queue : a.pending = item :: rest) :
    dispatch a = (if item.uiCookie = 0 then (item.request.length : Int) else 0,
      { a with pending := { item with dispatched := true } :: rest }) := by
  simp [dispatch, amend, queue]

theorem dispatch_moved (held : a.claimed = true) :
    Moved a (if 0 < (dispatch a).1 then
        (dispatch a).2.pending.head?.map fun item => Note.handed item.serial a.token
      else none).toList (dispatch a).2 := by
  cases queue : a.pending with
  | nil =>
    rw [dispatch_nil queue]
    exact .refl
  | cons item rest =>
    rw [dispatch_cons queue]
    by_cases root : item.uiCookie = 0
    · by_cases text : item.request = []
      · simp only [root, text, if_true, length_nil, Int.natCast_zero, lt_irrefl, if_false]
        have marked := (Move.mark held queue (.inr text)).moved
        simpa [text, root] using marked
      have long : (0 : Int) < item.request.length := by
        simpa [length_pos_iff] using text
      simp only [root, if_true, long, head?_cons, map_some]
      have handed := (Move.hand held queue root text).moved
      simpa [root] using handed
    · simp only [root, if_false, lt_irrefl]
      exact (Move.mark held queue (.inl root)).moved

theorem poll_moved (k : Call) (held : a.claimed = true) :
    Moved a (if 0 < (poll a k).1 then
        (poll a k).2.pending.head?.map fun item => Note.handed item.serial a.token
      else none).toList (poll a k).2 := by
  have tick := Move.tick (a := a) k.now
  unfold poll
  dsimp only
  split
  case isFalse =>
    have handed := dispatch_moved (a := { a with lastPoll := k.now }) held
    exact tick.moved.trans handed
  case isTrue late =>
    cases queue : a.pending with
    | nil => simp [queue] at late
    | cons item rest =>
      have routed : item.uiCookie ≠ 0 := by
        simp only [queue, head?_cons, any_some, Bool.and_eq_true] at late
        simpa using late.1
      have lapse : Move { a with lastPoll := k.now } none _ := Move.lapse queue routed
      exact (tick.andThen lapse).trans (dispatch_moved held)

theorem window_some {bytes : Bytes} (taken : window item k = some bytes) :
    bytes = k.loaded ∧ (k.offset = 0 ∨ k.offset.toNat = item.response.length) := by
  unfold window at taken
  split at taken
  case isFalse => cases taken
  case isTrue fits =>
    obtain ⟨chunk, loads, rfl⟩ := map_eq_some_iff.mp taken
    exact ⟨by simp [Call.loaded, loads], fits.2.2⟩

theorem write_moved (a : IPodAgent) (k : Call) :
    Moved a (if (write a k).1 = -1 then none else
      a.pending.head?.map fun item => Note.wrote item.serial k.offset k.loaded).toList
      (write a k).2 := by
  cases queue : a.pending with
  | nil =>
    have left : write a k = (-1, a) := by simp [write, queue]
    rw [left]
    exact .refl
  | cons item rest =>
    cases taken : window item k with
    | none =>
      have left : write a k = (-1, a) := by simp [write, queue, taken]
      rw [left]
      exact .refl
    | some bytes =>
      obtain ⟨rfl, follows⟩ := window_some taken
      have told : ¬ ((k.loaded.length : Int) = -1) := by omega
      have written : write a k = ((k.loaded.length : Int), { a with
          pending :=
            { item with response := withWindow item.response k.offset k.loaded } :: rest }) := by
        simp [write, queue, taken, amend]
      rw [written, if_neg told]
      exact (Move.write queue k.offset k.loaded follows).moved

theorem finish_moved (a : IPodAgent) (k : Call) :
    Moved a (if (finish a k).1 = 0 then
        a.pending.head?.map fun item => Note.finished item.serial k.status
      else none).toList (finish a k).2 := by
  unfold finish
  cases queue : a.pending with
  | nil => exact .refl
  | cons item rest =>
    simp only [if_true, head?_cons, map_some, complete, queue]
    exact (Move.finish queue k.status).moved

theorem read_agent : (read a k).2 = a := by
  unfold read
  cases a.pending with
  | nil => rfl
  | cons item rest =>
    dsimp only
    split <;> rfl

theorem route_moved {rest : List Item} (k : Call) (queue : a.pending = item :: rest)
    (root : item.uiCookie = 0) :
    Moved a ((route a k).pending.head?.map fun item =>
      Note.routed item.serial item.uiCookie).toList (route a k) := by
  simp only [route, amend, queue, head?_cons, map_some]
  exact (Move.route queue root k.offset _ _ _).moved

/-- What a call of the user interface comes to: nothing, or a window call under the cookie of the
request at the head. -/
inductive UiCalled (a : IPodAgent) (k : Call) : Prop where
  | refused (answer : uiCall a k = (-1, a))
  | asked (op : k.op = 0x166) (answer : (uiCall a k).2 = a)
  | served {item : Item} {rest : List Item} (queue : a.pending = item :: rest)
      (routed : item.uiCookie ≠ 0) (own : k.token = item.uiCookie) (op : k.op ≠ 0x166)
      (answer : uiCall a k = windowCall a k (k.op - 5))

theorem uiCalled (a : IPodAgent) (k : Call) : UiCalled a k := by
  by_cases op : k.op = 0x166
  · refine .asked op ?_
    unfold uiCall
    split
    · split
      · rfl
      · rfl
    · rfl
  cases queue : a.pending with
  | nil => exact .refused (by simp [uiCall, queue, op])
  | cons item rest =>
    by_cases closed : item.uiCookie = 0 ∨ item.uiDeadline ≤ k.now
    · exact .refused (by simp [uiCall, queue, op, closed])
    by_cases own : k.token = item.uiCookie
    · refine .served queue (fun zero => closed (.inl zero)) own op ?_
      simp only [uiCall, queue, closed, if_false, op, own, ne_eq, not_true]
    · exact .refused (by simp [uiCall, queue, op, closed, own])

/-- What a call of the daemon comes to: nothing, a route, or a window call under its token. -/
inductive DaemonCalled (a : IPodAgent) (k : Call) : Prop where
  | refused (answer : daemonCall a k = (-1, a))
  | routed {item : Item} {rest : List Item} (queue : a.pending = item :: rest)
      (root : item.uiCookie = 0) (op : k.op = 0x16a) (answer : daemonCall a k = (0, route a k))
  | served (held : a.claimed = true) (own : k.token = a.token)
      (root : k.op ≠ 0x161 → k.op ≠ 0x165 → ∀ item ∈ a.pending.head?, item.uiCookie = 0)
      (answer : daemonCall a k = windowCall a k k.op)

theorem daemonCalled (a : IPodAgent) (k : Call) : DaemonCalled a k := by
  by_cases other : a.claimed = false ∨ k.token ≠ a.token
  · exact .refused (by rw [daemonCall, if_pos other])
  by_cases ui : (a.pending.head?.any fun item => item.uiCookie != 0) ∧ k.op ≠ 0x161 ∧ k.op ≠ 0x165
  · exact .refused (by rw [daemonCall, if_neg other, if_pos ui])
  have root : k.op ≠ 0x161 → k.op ≠ 0x165 → ∀ item ∈ a.pending.head?, item.uiCookie = 0 := by
    intro poll clock item head
    by_contra cookie
    refine ui ⟨?_, poll, clock⟩
    simp [mem_def.mp head, cookie]
  by_cases routes : k.op = 0x16a ∧ a.pending ≠ [] ∧ k.offset ≠ 1
  · obtain ⟨item, rest, queue⟩ := exists_cons_of_ne_nil routes.2.1
    refine .routed queue ?_ routes.1 (by rw [daemonCall, if_neg other, if_neg ui, if_pos routes])
    exact root (by simp [routes.1]) (by simp [routes.1]) item (by simp [queue])
  · obtain ⟨held, own⟩ := not_or.mp other
    exact .served (by simpa using held) (by simpa using own) root
      (by rw [daemonCall, if_neg other, if_neg ui, if_neg routes])

theorem heard_refused (answer : call a k = (-1, a)) : heard a k = none := by
  simp [heard, answer]

theorem refused_moved (answer : call a k = (-1, a)) : Moved a (heard a k).toList (call a k).2 := by
  rw [heard_refused answer, answer]
  exact .refl

theorem uiCall_moved (op : 0x166 ≤ k.op ∧ k.op ≤ 0x169) (calls : call a k = uiCall a k) :
    Moved a (heard a k).toList (call a k).2 := by
  cases uiCalled a k with
  | refused answer => exact refused_moved (calls.trans answer)
  | asked op answer =>
    rw [calls, answer]
    simpa [heard, op] using Moved.refl
  | served queue routed own other answer =>
    rw [answer] at calls
    obtain op | op | op : k.op = 0x167 ∨ k.op = 0x168 ∨ k.op = 0x169 := by omega
    · have reads : call a k = read a k := by simp [calls, op, windowCall]
      rw [reads, read_agent]
      simpa [heard, op] using Moved.refl
    · have writes : call a k = write a k := by simp [calls, op, windowCall]
      have moved := write_moved a k
      simpa [heard, op, writes] using moved
    · have finishes : call a k = finish a k := by simp [calls, op, windowCall]
      have moved := finish_moved a k
      simpa [heard, op, finishes] using moved

theorem daemonCall_moved (calls : call a k = daemonCall a k) :
    Moved a (heard a k).toList (call a k).2 := by
  cases daemonCalled a k with
  | refused answer => exact refused_moved (calls.trans answer)
  | routed queue root op answer =>
    rw [answer] at calls
    have moved := route_moved k queue root
    simpa [heard, op, calls] using moved
  | served held own root answer =>
    rw [answer] at calls
    by_cases polls : k.op = 0x161
    · have answer : call a k = poll a k := by simp [calls, polls, windowCall]
      have moved := poll_moved k held
      simpa [heard, polls, answer, own] using moved
    by_cases writes : k.op = 0x163
    · have answer : call a k = write a k := by simp [calls, writes, windowCall]
      have moved := write_moved a k
      simpa [heard, writes, answer] using moved
    by_cases finishes : k.op = 0x164
    · have answer : call a k = finish a k := by simp [calls, finishes, windowCall]
      have moved := finish_moved a k
      simpa [heard, finishes, answer] using moved
    -- The clock, READ, and calls that do not exist leave the queue alone.
    by_cases clock : k.op = 0x165
    · simpa [heard, calls, clock, windowCall] using Moved.refl
    by_cases reads : k.op = 0x162
    · have answer : call a k = read a k := by simp [calls, reads, windowCall]
      rw [answer, read_agent]
      simpa [heard, reads] using Moved.refl
    · exact refused_moved (by simp [calls, windowCall, polls, writes, finishes, clock, reads])

theorem call_moved : Moved a (heard a k).toList (call a k).2 := by
  by_cases greets : k.op = 0x160
  · have answer : call a k = hello a k := by rw [call, if_pos greets]
    rw [answer]
    simpa [heard, greets] using hello_moved
  by_cases ui : 0x166 ≤ k.op ∧ k.op ≤ 0x169
  · exact uiCall_moved ui (by rw [call, if_neg greets, if_pos ui])
  · exact daemonCall_moved (by rw [call, if_neg greets, if_neg ui])

variable (b64 : Base64)

theorem step_moved (e : Event) :
    Moved a (note a e).toList (step b64 a e) := by
  cases e with
  | submit request => exact submit_moved request
  | cancel id => exact cancel_moved id
  | reset => exact Move.reset.moved
  | take => exact takeResult_moved
  | call k => exact call_moved

/-- The queue after the events, and what was noted. -/
def run (b64 : Base64) : List Event → List Note × IPodAgent → List Note × IPodAgent
  | [], h => h
  | e :: events, (log, a) => run b64 events (log ++ (note a e).toList, step b64 a e)

theorem run_moved {start : IPodAgent} {events : List Event}
    {h : List Note × IPodAgent} (before : Moved start h.1 h.2) :
    Moved start (run b64 events h).1 (run b64 events h).2 := by
  induction events generalizing h with
  | nil => exact before
  | cons e events ih => exact ih (before.trans (step_moved b64 e))

/-- A history of a queue, from its making. -/
def history (events : List Event) : List Note × IPodAgent :=
  run b64 events ([], IPodAgent.new)

theorem history_moved (events : List Event) :
    Moved IPodAgent.new (history b64 events).1 (history b64 events).2 :=
  run_moved b64 .refl

end QemuIos.Agent

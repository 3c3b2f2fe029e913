import QemuIos.Lib.CText

/-!
# The agent's request queue

The host side of the guest agent (`hw/arm/ipod-agent.c`). A front end submits requests and takes
results; a daemon in the guest claims the queue with HELLO, learns of the request at its head with
POLL, reads it, writes the response window by window and completes it with DONE. A request may be
routed to a process of the user interface, which then has the same window calls under a cookie. The
daemon's token is a lease: it passes to the next HELLO when no POLL has come for ten seconds.

GLib's base64 functions are a parameter. Each accepted request carries the number of its submission,
which the code does not have: with it two requests of one id are told apart.
-/

namespace QemuIos.Agent

open CText

/-- `g_base64_decode` and `g_base64_encode`. -/
structure Base64 where
  decode : Bytes → Bytes
  encode : Bytes → Bytes

/-- `IT_AGENT_REQUEST_MAX`. -/
def requestMax : Nat := 256 * 1024

/-- `IT_AGENT_RESPONSE_MAX`. -/
def responseMax : Nat := 1024 * 1024

/-- `IT_AGENT_CHUNK_MAX`. -/
def chunkMax : Nat := 1024

/-- `IT_AGENT_QUEUE_MAX`. -/
def queueMax : Nat := 16

/-- `IT_AGENT_LEASE_MS`. -/
def leaseMs : Int := 10000

/-- `-ECONNRESET`. -/
def connReset : Int := -104

/-- `-ETIMEDOUT`. -/
def timedOut : Int := -110

/-- `AgentItem`. -/
structure Item where
  /-- Which submission it is. -/
  serial : Nat
  id : Bytes
  request : Bytes
  response : Bytes
  status : Int
  dispatched : Bool
  uiPid : UInt32
  uiCookie : UInt64
  uiDeadline : Int
deriving Repr, DecidableEq

/-- The queue, but for its lock and its references. -/
structure IPodAgent where
  pending : List Item
  done : List Item
  token : UInt64
  uiSequence : UInt64
  lastPoll : Int
  clockOffset : Int
  claimed : Bool
  /-- How many requests have been accepted. -/
  submitted : Nat
deriving Repr, DecidableEq

/-- `ipod_agent_new`. -/
def IPodAgent.new : IPodAgent := ⟨[], [], 0, 0, 0, 0, false, 0⟩

variable (b64 : Base64) (a : IPodAgent)

/-- What `ipod_agent_submit` returns. -/
inductive Submitted where
  | accepted
  | invalid
  | tooBig
  | busy
deriving Repr, DecidableEq

/-- The id and the bytes a request text, a C string, stands for: a printable header `id op`, a
newline and the body in base64. -/
def parseRequest (request : Bytes) : Except Submitted (Bytes × Bytes) :=
  if 2 * requestMax < request.length then
    .error .tooBig
  else if ¬ (10 : UInt8) ∈ request then
    .error .invalid
  else
    let header := request.takeWhile (· != 10)
    let id := header.takeWhile (· != 32)
    if ¬ (32 : UInt8) ∈ header ∨ id.length = 0 ∨ 64 < id.length ∨ header.length - id.length < 2 ∨
        4096 < header.length then
      .error .invalid
    else if header.any (fun c => c < 32 || 126 < c) then
      .error .invalid
    else
      let text := request.drop (header.length + 1)
      let body := b64.decode text
      -- GLib's decoder ignores invalid characters: the encoding has to be canonical.
      if b64.encode body ≠ text then
        .error .invalid
      else if requestMax < header.length + 1 + body.length then
        .error .tooBig
      else
        .ok (id, header ++ [10] ++ body)

/-- Queues a request (`ipod_agent_submit`). -/
def submit (request : Bytes) : Submitted × IPodAgent :=
  match parseRequest b64 request with
  | .error e => (e, a)
  | .ok (id, bytes) =>
    if a.pending.length + a.done.length < queueMax ∧
        ∀ item ∈ a.pending ++ a.done, item.id ≠ id then
      let item : Item :=
        { serial := a.submitted, id := id, request := bytes, response := [], status := 0,
          dispatched := false, uiPid := 0, uiCookie := 0, uiDeadline := 0 }
      (.accepted, { a with pending := a.pending ++ [item], submitted := a.submitted + 1 })
    else
      (.busy, a)

/-- Withdraws a request, queued or done (`ipod_agent_cancel`). With one that was handed out, the
daemon loses its claim. -/
def cancel (id : Bytes) : Bool × IPodAgent :=
  match a.pending.find? (·.id == id) with
  | some item =>
    let a := if item.dispatched then { a with claimed := false, token := 0 } else a
    (true, { a with pending := a.pending.eraseP (·.id == id) })
  | none =>
    match a.done.find? (·.id == id) with
    | some _ => (true, { a with done := a.done.eraseP (·.id == id) })
    | none => (false, a)

/-- The text of a result. -/
def Item.result (item : Item) : Bytes :=
  item.id ++ [32] ++ decimal item.status ++ [10] ++ b64.encode item.response

/-- Takes the oldest result (`ipod_agent_take_result`); none is the empty text. -/
def takeResult : Bytes × IPodAgent :=
  match a.done with
  | [] => ([], a)
  | item :: done => (item.result b64, { a with done := done })

/-- `ipod_agent_reset`. -/
def reset : IPodAgent :=
  { a with pending := [], done := [], token := 0, claimed := false }

/-- The copy callback of one call: whether bytes can be stored at a guest address, and what is
loaded from one. -/
structure Copy where
  store : UInt32 → Bytes → Bool
  load : UInt32 → Option (Nat → UInt8)

/-- A guest call, with the time it comes at and what the host offers with it. -/
structure Call where
  op : Nat
  token : UInt64
  address : UInt32
  offset : UInt32
  length : UInt32
  now : Int
  candidate : UInt64
  copy : Copy
  rtc : Int

/-- `INT64_MAX`. -/
def int64Max : UInt64 := 0x7fffffffffffffff

/-- The request at the head is done. -/
def IPodAgent.complete (status : Int) (response : Bytes) : IPodAgent :=
  match a.pending with
  | [] => a
  | item :: rest =>
    { a with
      pending := rest
      done := a.done ++ [{ item with status := status, response := response }] }

/-- The request at the head is changed. -/
def IPodAgent.amend (f : Item → Item) : IPodAgent :=
  match a.pending with
  | [] => a
  | item :: rest => { a with pending := f item :: rest }

/-- The token a session gets. -/
def sessionToken (candidate : UInt64) : UInt64 :=
  if candidate &&& int64Max = 0 then 1 else candidate &&& int64Max

variable (k : Call)

/-- HELLO: a daemon claims the queue, if no other one holds the lease. A request the lost daemon may
have executed is not handed out again. -/
def hello : Int × IPodAgent :=
  if a.claimed = false ∨ leaseMs < k.now - a.lastPoll then
    let a := if a.claimed ∧ a.pending.head?.any (·.dispatched) then a.complete connReset [] else a
    let a := { a with token := sessionToken k.candidate, claimed := true, lastPoll := k.now }
    ((a.token.toNat : Int), a)
  else
    (0, a)

/-- The request at the head is marked, and its length is told if it is the daemon's. -/
def dispatch : Int × IPodAgent :=
  let a := a.amend fun item => { item with dispatched := true }
  match a.pending with
  | item :: _ => (if item.uiCookie = 0 then (item.request.length : Int) else 0, a)
  | [] => (0, a)

/-- POLL: the daemon is alive, and learns the length of the request at the head. A request routed to
the user interface times out here. -/
def poll : Int × IPodAgent :=
  let a := { a with lastPoll := k.now }
  let late := a.pending.head?.any fun item => item.uiCookie != 0 && item.uiDeadline ≤ k.now
  dispatch (if late then a.complete timedOut [] else a)

/-- READ: a window of the request. -/
def read : Int × IPodAgent :=
  match a.pending with
  | item :: _ =>
    if k.length.toNat ≤ chunkMax ∧ k.offset.toNat ≤ item.request.length then
      let window := (item.request.drop k.offset.toNat).take k.length.toNat
      (if k.copy.store k.address window then (window.length : Int) else -1, a)
    else
      (-1, a)
  | [] => (-1, a)

/-- The bytes a WRITE brings, if it is taken: windows follow each other or start again at 0, and a
guest read that fails leaves the response as it was. -/
def window (item : Item) (k : Call) : Option Bytes :=
  if k.length.toNat ≤ chunkMax ∧ k.offset.toNat ≤ responseMax - k.length.toNat ∧
      (k.offset = 0 ∨ k.offset.toNat = item.response.length) then
    (k.copy.load k.address).map fun chunk => (List.range k.length.toNat).map chunk
  else
    none

/-- The response once a window is in. -/
def withWindow (response : Bytes) (offset : UInt32) (bytes : Bytes) : Bytes :=
  if offset = 0 then bytes else response ++ bytes

/-- WRITE: a window of the response. -/
def write : Int × IPodAgent :=
  match a.pending with
  | item :: _ =>
    match window item k with
    | some bytes =>
      (bytes.length,
        a.amend fun item => { item with response := withWindow item.response k.offset bytes })
    | none => (-1, a)
  | [] => (-1, a)

/-- DONE: the request is completed with a status. -/
def finish : Int × IPodAgent :=
  match a.pending with
  | item :: _ => (0, a.complete k.offset.toBitVec.toInt item.response)
  | [] => (-1, a)

/-- The window calls, by number; also POLL and the clock, which only the daemon gets to. -/
def windowCall (op : Nat) : Int × IPodAgent :=
  if op = 0x161 then poll a k
  else if op = 0x165 then (k.rtc + a.clockOffset, a)
  else if op = 0x162 then read a k
  else if op = 0x163 then write a k
  else if op = 0x164 then finish a k
  else (-1, a)

/-- The daemon routes the request at the head to a process of the user interface, for five
seconds. -/
def route : IPodAgent :=
  let first := a.uiSequence + 1
  let cookie := (k.candidate ^^^ first) &&& int64Max
  let sequence := if cookie = 0 then first + 1 else first
  let cookie := if cookie = 0 then sequence else cookie
  let a := a.amend fun item =>
    { item with uiPid := k.offset, uiCookie := cookie, uiDeadline := k.now + 5000 }
  { a with uiSequence := sequence }

/-- A call of the user interface: which request is routed to a process, and the window calls under
its cookie. -/
def uiCall : Int × IPodAgent :=
  match a.pending with
  | item :: _ =>
    if item.uiCookie = 0 ∨ item.uiDeadline ≤ k.now then
      (if k.op = 0x166 then 0 else -1, a)
    else if k.op = 0x166 then
      (if k.offset = item.uiPid then (item.uiCookie.toNat : Int) else 0, a)
    else if k.token ≠ item.uiCookie then
      (-1, a)
    else
      windowCall a k (k.op - 5)
  | [] => (if k.op = 0x166 then 0 else -1, a)

/-- A call of the daemon under its token. -/
def daemonCall : Int × IPodAgent :=
  if a.claimed = false ∨ k.token ≠ a.token then
    (-1, a)
  else if (a.pending.head?.any fun item => item.uiCookie != 0) ∧ k.op ≠ 0x161 ∧ k.op ≠ 0x165 then
    (-1, a)
  else if k.op = 0x16a ∧ a.pending ≠ [] ∧ k.offset ≠ 1 then
    (0, route a k)
  else
    windowCall a k k.op

/-- A guest call (`ipod_agent_call`). -/
def call : Int × IPodAgent :=
  if k.op = 0x160 then hello a k
  else if 0x166 ≤ k.op ∧ k.op ≤ 0x169 then uiCall a k
  else daemonCall a k

/-- What can happen to the queue. -/
inductive Event where
  | submit (request : Bytes)
  | cancel (id : Bytes)
  | reset
  | take
  | call (k : Call)

/-- One event. -/
def step : Event → IPodAgent
  | .submit request => (submit b64 a request).2
  | .cancel id => (cancel a id).2
  | .reset => reset a
  | .take => (takeResult b64 a).2
  | .call k => (call a k).2

end QemuIos.Agent

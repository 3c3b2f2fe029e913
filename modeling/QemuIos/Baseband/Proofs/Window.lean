import QemuIos.Baseband.Proofs.Framing
import QemuIos.Lib.GoBackN

/-!
# The transmit window of the H5 link

The link is a go-back-N sender with a window of seven over sequence numbers modulo eight
(`Link.Follows`), whatever the core does (`Core.simulates_walk`). A peer that takes packets in
sequence and acknowledges them cumulatively over a lossy FIFO link therefore gets a beginning of
what `h5_queue` took.
-/

namespace QemuIos.Baseband
open CText GoBackN List Baseband.Core Link Nat

namespace Link

variable {queued : List Bytes} {k : Nat} {data : Bytes}

/-- A packet in `h5_txq`: two bytes of length, then the payload. -/
def record (data : Bytes) : Bytes :=
  [UInt8.ofNat data.length, UInt8.ofNat (data.length / 256)] ++ data

/-- Which item of the queue a call of `out` carries. -/
inductive Carried (queued : List Bytes) : Wire → Option Nat → Prop where
  | data {k : Nat} {data : Bytes} (item : queued[k]? = some data) (crc : Bool) (ack : Fin 8) :
      Carried queued (.packet (h5Packet h5TypeData true crc (Fin.ofNat 8 k) ack data)) (some k)
  | control {type : Fin 16} {data : Bytes} (notData : type ≠ h5TypeData)
      (small : data.length ≤ h5MaxPayload) (crc : Bool) (seq ack : Fin 8) :
      Carried queued (.packet (h5Packet type false crc seq ack data)) none
  | raw (bytes : Bytes) : Carried queued (.raw bytes) none

/-- An unacknowledged packet is the item of the queue with this index. -/
def Numbered (queued : List Bytes) (p : H5Pkt) (k : Nat) : Prop :=
  p.seq = Fin.ofNat 8 k ∧ queued[k]? = some p.data

/-- The link is in the state of a go-back-N sender. -/
structure Follows (l : Link) (s : Sender Bytes) : Prop where
  window : s.Inv h5Window
  input : s.input = l.queued
  sizes : ∀ data ∈ l.queued, data.length ≤ h5MaxPayload
  txq : l.txq = (l.queued.drop s.next).flatMap record
  unacked : List.Forall₂ (Numbered l.queued) l.unacked (List.range' s.base (s.next - s.base))
  txSeq : l.txSeq = Fin.ofNat 8 s.next
  out : List.Forall₂ (Carried l.queued) l.out s.frames

variable {l l' : Link} {s : Sender Bytes}

theorem follows_init : Follows {} {} :=
  ⟨Sender.inv_init, rfl, by simp, rfl, .nil, rfl, .nil⟩

/-- The fields that are not part of the window do not matter. -/
theorem Follows.congr (follows : l.Follows s) (txq : l'.txq = l.txq)
    (unacked : l'.unacked = l.unacked) (txSeq : l'.txSeq = l.txSeq) (out : l'.out = l.out)
    (queued : l'.queued = l.queued) : l'.Follows s := by
  obtain ⟨window, input, sizes, isTxq, isUnacked, isTxSeq, isOut⟩ := follows
  refine ⟨window, ?_, ?_, ?_, ?_, ?_, ?_⟩
  · rw [queued, input]
  · rwa [queued]
  · rw [txq, queued, isTxq]
  · rwa [unacked, queued]
  · rw [txSeq, isTxSeq]
  · rwa [out, queued]

theorem Carried.append {wire : Wire} {frame : Option Nat} (carried : Carried queued wire frame)
    (more : List Bytes) : Carried (queued ++ more) wire frame := by
  cases carried with
  | data item crc ack =>
    exact .data (List.getElem?_append_left (List.getElem?_eq_some_iff.mp item).1 ▸ item) crc ack
  | control notData small crc seq ack => exact .control notData small crc seq ack
  | raw bytes => exact .raw bytes

theorem Numbered.append {p : H5Pkt} (numbered : Numbered queued p k) (more : List Bytes) :
    Numbered (queued ++ more) p k := by
  obtain ⟨seq, item⟩ := numbered
  exact ⟨seq, List.getElem?_append_left (List.getElem?_eq_some_iff.mp item).1 ▸ item⟩

/-- What the link does is what the sender may do on these acknowledgements. -/
def Simulates (l : Link) (acks : List (Fin 8)) (l' : Link) : Prop :=
  ∀ s, l.Follows s → ∃ s', Sender.Run h5Window 8 s (acks.map Fin.val) s' ∧ l'.Follows s'

theorem Simulates.refl (l : Link) : l.Simulates [] l :=
  fun s follows => ⟨s, .refl s, follows⟩

theorem Simulates.trans {l₁ l₂ : Link} {acks acks' : List (Fin 8)} (first : l.Simulates acks l₁)
    (second : l₁.Simulates acks' l₂) : l.Simulates (acks ++ acks') l₂ := by
  intro s follows
  obtain ⟨s₁, run₁, follows₁⟩ := first s follows
  obtain ⟨s₂, run₂, follows₂⟩ := second s₁ follows₁
  exact ⟨s₂, map_append ▸ run₁.trans run₂, follows₂⟩

/-- Followed by something that acknowledges nothing. -/
theorem Simulates.andThen {l₁ l₂ : Link} {acks : List (Fin 8)} (first : l.Simulates acks l₁)
    (second : l₁.Simulates [] l₂) : l.Simulates acks l₂ := by
  simpa using first.trans second

/-- Changes of the other fields. -/
theorem Simulates.of_fields (txq : l'.txq = l.txq) (unacked : l'.unacked = l.unacked)
    (txSeq : l'.txSeq = l.txSeq) (out : l'.out = l.out) (queued : l'.queued = l.queued) :
    l.Simulates [] l' :=
  fun s follows => ⟨s, .refl s, follows.congr txq unacked txSeq out queued⟩

/-! ## Writing -/

theorem simulates_emit (l : Link) (wire : Wire) (carried : Carried l.queued wire none) :
    l.Simulates [] (l.emit wire) := by
  intro s follows
  have step : Sender.Step h5Window 8 s [] _ := .other s
  refine ⟨_, .single step, ?_⟩
  exact { follows with
    window := Sender.inv_step follows.window step
    out := rel_append follows.out (.cons carried .nil) }

theorem simulates_control (l : Link) (now : Int) {type : Fin 16} (notData : type ≠ h5TypeData)
    (seq : Fin 8) (data : Bytes) : l.Simulates [] (l.h5SendPkt now type false seq data) := by
  unfold h5SendPkt
  split
  · exact .refl l
  · next small =>
    have written := simulates_emit l _
      (.control notData (Nat.le_of_not_lt small) (l.crc && type ≠ h5TypeLink) seq l.rxNext)
    exact written.andThen (.of_fields rfl rfl rfl rfl rfl)

theorem simulates_h5SendAck (l : Link) (now : Int) : l.Simulates [] (l.h5SendAck now) := by
  unfold h5SendAck
  split
  · exact (simulates_control l now (by decide) 0 []).andThen (.of_fields rfl rfl rfl rfl rfl)
  · exact .of_fields rfl rfl rfl rfl rfl

theorem simulates_h5Queue (l : Link) (data : Bytes) : l.Simulates [] (l.h5Queue data) := by
  unfold h5Queue
  dsimp only
  split
  · exact .refl l
  intro s follows
  have step : Sender.Step h5Window 8 s [] _ := .submit s (data.take h5MaxPayload)
  have given : s.next ≤ l.queued.length := follows.input ▸ follows.window.given
  refine ⟨_, .single step, Sender.inv_step follows.window step, ?_, ?_, ?_, ?_, follows.txSeq, ?_⟩
  · rw [follows.input]
  · intro item inside
    rcases mem_append.mp inside with before | last
    · exact follows.sizes item before
    · rw [mem_singleton.mp last, length_take]
      exact min_le_left _ _
  · rw [follows.txq, drop_append_of_le_length given, flatMap_append, append_assoc]
    simp [record]
  · exact follows.unacked.imp fun p k numbered => numbered.append _
  · exact follows.out.imp fun wire frame carried => carried.append _

/-! ## Sending and repeating items -/

/-- What `h5_send_pkt` does with the payload of a queued item. -/
theorem h5SendPkt_item (follows : l.Follows s) (now : Int) (item : l.queued[k]? = some data) :
    ∃ crc, l.h5SendPkt now h5TypeData true (Fin.ofNat 8 k) data =
      { l.emit (.packet (h5Packet h5TypeData true crc (Fin.ofNat 8 k) l.rxNext data)) with
        needAck := false, lastTxMs := now } := by
  have small := follows.sizes data (mem_of_getElem? item)
  refine ⟨l.crc && h5TypeData ≠ h5TypeLink, ?_⟩
  unfold h5SendPkt
  rw [if_neg (not_lt.mpr small)]
  rfl

theorem follows_resend (follows : l.Follows s) (now : Int) {p : H5Pkt}
    (numbered : Numbered l.queued p k) (unacked : s.base ≤ k) (sent : k < s.next) :
    (l.h5SendPkt now h5TypeData true p.seq p.data).Follows
      { s with frames := s.frames ++ [some k] } := by
  obtain ⟨seq, item⟩ := numbered
  obtain ⟨crc, written⟩ := h5SendPkt_item follows now item
  rw [seq, written]
  exact { follows with
    window := Sender.inv_step (M := 8) follows.window (.resend s k unacked sent)
    out := rel_append follows.out (.cons (.data item crc l.rxNext) .nil) }

/-- Some of the unacknowledged packets again. -/
theorem follows_resends (now : Int) {packets : List H5Pkt} {ks : List Nat} (follows : l.Follows s)
    (isQueued : l.queued = queued) (numbered : List.Forall₂ (Numbered queued) packets ks)
    (inside : ∀ k ∈ ks, s.base ≤ k ∧ k < s.next) :
    ∃ s', Sender.Run h5Window 8 s [] s' ∧
      (packets.foldl (fun l p => l.h5SendPkt now h5TypeData true p.seq p.data) l).Follows s' := by
  induction numbered generalizing l s with
  | nil => exact ⟨s, .refl s, follows⟩
  | @cons p k packets ks first rest ih =>
    obtain ⟨⟨unacked, sent⟩, inside'⟩ := forall_mem_cons.mp inside
    have next := follows_resend follows now (isQueued ▸ first) unacked sent
    have same := (next.input.symm.trans follows.input).trans isQueued
    obtain ⟨s', run, follows'⟩ := ih next same inside'
    exact ⟨s', Sender.Run.trans (.single (.resend s k unacked sent)) run, follows'⟩

theorem simulates_h5Retransmit (l : Link) (now : Int) : l.Simulates [] (l.h5Retransmit now) := by
  intro s follows
  apply follows_resends now follows rfl follows.unacked
  intro k inside
  have order := follows.window.order
  rw [mem_range'_1] at inside
  omega

/-- A record at the front of the queue is read as it was written. -/
theorem record_len (small : data.length ≤ h5MaxPayload) :
    (UInt8.ofNat data.length).toNat + 256 * (UInt8.ofNat (data.length / 256)).toNat =
      data.length := by
  replace small : data.length ≤ 1024 := small
  rw [UInt8.toNat_ofNat', UInt8.toNat_ofNat']
  omega

/-- So the loop of `h5_pump` sends the record at the front of the queue. -/
theorem h5PumpFrom_record (now : Int) (left : Nat) (small : data.length ≤ h5MaxPayload)
    {rest : Bytes} (front : l.txq = record data ++ rest) : h5PumpFrom now (left + 1) l =
      h5PumpFrom now left (h5SendOneUnacked { l with txq := rest } now data) := by
  rw [h5PumpFrom, front]
  simp only [record, cons_append, nil_append, record_len small]
  rw [if_neg (by simp), drop_left, take_left]

theorem follows_h5SendOneUnacked (follows : l.Follows s) (now : Int) {rest : Bytes}
    (item : l.queued[s.next]? = some data) (room : s.next < s.base + h5Window)
    (isRest : rest = (l.queued.drop (s.next + 1)).flatMap record) :
    (h5SendOneUnacked { l with txq := rest } now data).Follows
      { s with next := s.next + 1, frames := s.frames ++ [some s.next] } := by
  have given : s.next < s.input.length := by
    rw [follows.input]
    exact (List.getElem?_eq_some_iff.mp item).1
  have small := follows.sizes data (List.mem_of_getElem? item)
  have order := follows.window.order
  unfold h5SendOneUnacked h5SendPkt
  dsimp only
  rw [if_neg (not_lt.mpr small), follows.txSeq]
  refine ⟨Sender.inv_step (M := 8) follows.window (.send s given room), follows.input,
    follows.sizes, isRest, ?_, ?_, ?_⟩
  · have last : s.base + (s.next - s.base) = s.next := by omega
    rw [Nat.sub_add_comm order, range'_1_concat, last]
    exact rel_append follows.unacked (.cons ⟨rfl, item⟩ .nil)
  · simp [Fin.ext_iff, Fin.val_add]
  · exact rel_append follows.out (.cons (.data item _ l.rxNext) .nil)

/-- The loop of `h5_pump` sends items while the window has room. -/
theorem follows_h5PumpFrom (now : Int) (left : Nat) (follows : l.Follows s)
    (room : s.next + left ≤ s.base + h5Window) :
    ∃ s', Sender.Run h5Window 8 s [] s' ∧ (h5PumpFrom now left l).Follows s' := by
  induction left generalizing l s with
  | zero => exact ⟨s, .refl s, follows⟩
  | succ left ih =>
    have isTxq := follows.txq
    match waiting : l.queued[s.next]? with
    | none =>
      rw [getElem?_eq_none_iff] at waiting
      rw [drop_eq_nil_of_le waiting, flatMap_nil] at isTxq
      refine ⟨s, .refl s, ?_⟩
      unfold h5PumpFrom
      rw [isTxq]
      exact follows
    | some data =>
      have small := follows.sizes data (List.mem_of_getElem? waiting)
      have given : s.next < l.queued.length := (List.getElem?_eq_some_iff.mp waiting).1
      rw [List.drop_eq_getElem?_toList_append, waiting, Option.toList_some,
        List.singleton_append, List.flatMap_cons] at isTxq
      have hasRoom : s.next < s.base + h5Window := by omega
      have sent := follows_h5SendOneUnacked follows now waiting hasRoom rfl
      obtain ⟨s', run, follows'⟩ := ih sent (by dsimp only; omega)
      refine ⟨s', Sender.Run.trans (.single (.send s (follows.input ▸ given) hasRoom)) run, ?_⟩
      rwa [h5PumpFrom_record now left small isTxq]

theorem length_unacked (follows : l.Follows s) : l.unacked.length = s.next - s.base := by
  rw [follows.unacked.length_eq, length_range']

theorem simulates_h5Pump (l : Link) (now : Int) : l.Simulates [] (l.h5Pump now) := by
  unfold h5Pump
  split
  · intro s follows
    apply follows_h5PumpFrom now _ follows
    have order := follows.window.order
    have window := follows.window.window
    rw [length_unacked follows]
    omega
  · exact .refl l

/-! ## Receiving -/

/-- The distance the code computes is the sender's. -/
theorem ack_distance (ack : Fin 8) (base : Nat) :
    (ack - Fin.ofNat 8 base).val = (ack.val + 8 - base % 8) % 8 := by
  have small : base % 8 < 8 := mod_lt _ (by decide)
  rw [Fin.sub_def]
  simp only [Fin.ofNat]
  congr 1
  omega

theorem simulates_h5Acked (l : Link) (now : Int) (ack : Fin 8) :
    l.Simulates [ack] (l.h5Acked now ack) := by
  intro s follows
  have length := length_unacked follows
  have numbered := follows.unacked
  have step : Sender.Step h5Window 8 s [ack.val] (s.acked 8 ack.val) := .ack s ack.val
  unfold h5Acked
  match waiting : l.unacked with
  | [] =>
    -- nothing is unacknowledged, so the base is where the next item is
    have idle : s.next - s.base = 0 := by rw [← length, waiting, length_nil]
    have still : s.acked 8 ack.val = s := by
      unfold Sender.acked
      dsimp only
      split
      · next zero =>
        rw [idle, le_zero] at zero
        rw [zero, add_zero]
      · rfl
    rw [still] at step
    exact ⟨s, .single step, follows⟩
  | first :: rest =>
    have pos : 0 < s.next - s.base := by rw [← length, waiting]; exact Nat.succ_pos _
    obtain ⟨n, size⟩ := Nat.exists_eq_add_of_lt pos
    rw [waiting, size, Nat.zero_add, range'_succ] at numbered
    obtain ⟨⟨seq, -⟩, -⟩ := forall₂_cons.mp numbered
    dsimp only
    rw [seq, ack_distance, ← waiting, length]
    split
    · next inWindow =>
      have moved : s.acked 8 ack.val =
          { s with base := s.base + (ack.val + 8 - s.base % 8) % 8 } := if_pos inWindow
      rw [moved] at step
      have dropped : { l with
          unacked := l.unacked.drop ((ack.val + 8 - s.base % 8) % 8) }.Follows
          { s with base := s.base + (ack.val + 8 - s.base % 8) % 8 } := by
        refine { follows with window := Sender.inv_step follows.window step, unacked := ?_ }
        have kept := forall₂_drop ((ack.val + 8 - s.base % 8) % 8) follows.unacked
        rw [drop_range', Nat.mul_one, Nat.sub_sub] at kept
        exact kept
      obtain ⟨s', run, follows'⟩ := simulates_h5Pump _ now _ dropped
      exact ⟨s', Sender.Run.trans (.single step) run, follows'⟩
    · next outside =>
      have still : s.acked 8 ack.val = s := if_neg outside
      rw [still] at step
      exact ⟨s, .single step, follows⟩

theorem simulates_h5LinkControl (now : Int) (p : H5Buf) :
    l.Simulates [] (l.h5LinkControl now p) := by
  have isControl : h5TypeLink ≠ h5TypeData := by decide
  have configured : ∀ (l : Link) (data : Bytes),
      l.Simulates [] { l.h5SendPkt now h5TypeLink false 0 data with active := true } :=
    fun l data => (simulates_control l now isControl 0 data).andThen
      (.of_fields rfl rfl rfl rfl rfl)
  unfold h5LinkControl
  split
  · exact simulates_control l now isControl 0 _
  split
  · refine Simulates.andThen ?_ (simulates_h5Pump _ now)
    refine Simulates.andThen ?_ (configured _ _)
    exact .of_fields rfl rfl rfl rfl rfl
  · exact .refl l

end Link

/-- What a packet acknowledges, if it passes the checks. -/
def H5Buf.acks (p : H5Buf) : List (Fin 8) := if H5Buf.ok p then [H5Buf.ack p] else []

theorem Link.simulates_h5RxPkt (l : Link) (now : Int) (p : H5Buf) :
    l.Simulates p.acks (l.h5RxPkt now p).1 := by
  unfold h5RxPkt H5Buf.acks
  split
  · have acked := simulates_h5Acked l now (H5Buf.ack p)
    dsimp only
    repeat' split
    · exact acked.andThen (simulates_h5LinkControl now p)
    · exact acked
    · exact acked
    · exact acked.andThen (.of_fields rfl rfl rfl rfl rfl)
    · exact acked.andThen (.of_fields rfl rfl rfl rfl rfl)
  · exact .refl l

/-! ## The core -/

namespace Core

variable {host : Host} {c c' : Core}

theorem simulates_stream (data : Bytes) : c.link.Simulates [] (c.h5Stream data).link := by
  unfold h5Stream
  repeat' split
  · exact .refl _
  · exact simulates_emit c.link _ (.raw data)
  · exact simulates_h5Queue c.link data
  · exact (simulates_h5Queue c.link data).andThen (simulates_h5Pump _ c.now)

theorem simulates_walk :
    CoreWalk host fun c ps c' => c.link.Simulates (ps.flatMap H5Buf.acks) c'.link where
  trans first second := by
    rw [flatMap_append]
    exact first.trans second
  prim step := by
    rcases step with (⟨data⟩ | _ | _ | _ | _ | _ | _) | _ | _
    · exact simulates_stream data
    all_goals exact .refl _
  engine c m steps := .refl _
  receive c rx := .refl _
  packet c p := by
    rw [flatMap_singleton]
    exact simulates_h5RxPkt c.link c.now p
  ack c := by
    unfold pendingAck
    split
    · exact simulates_h5SendAck c.link c.now
    · exact .refl _
  resend c := by
    unfold retransmit
    split
    · exact (simulates_h5Retransmit c.link c.now).andThen (.of_fields rfl rfl rfl rfl rfl)
    · exact .refl _

end Core

/-! ## The peer -/

/-- The other end: the sequence number it expects, and the payloads it took. -/
structure Peer where
  next : Fin 8 := 0
  taken : List Bytes := []

/-- It takes a reliable data packet that passes the checks and carries the number expected. -/
def Peer.hear (p : Peer) (b : H5Buf) : Peer :=
  if H5Buf.ok b && H5Buf.type b = h5TypeData && H5Buf.reliable b && H5Buf.seq b = p.next then
    { next := p.next + 1, taken := p.taken ++ [H5Buf.payload b] }
  else p

/-- A core and its peer, with the position of the last frame of the core the peer heard, the
acknowledgements on the peer's own frames, and the position of the last of those that the core
heard. -/
structure Session where
  core : Core
  peer : Peer := {}
  heard : Nat := 0
  acks : List (Fin 8) := []
  answered : Nat := 0

namespace Session

variable {y : Session}

/-- Frames are lost or repeated on both ways, but stay in order. -/
inductive Step (host : Host) : Session → Session → Prop where
  | event (y : Session) (e : Event) (pos : Nat)
      (delivered : Heard y.acks y.answered ((y.core.received e).flatMap H5Buf.acks) pos) :
      Step host y { y with core := y.core.handle host e, answered := pos }
  | hear (y : Session) (i : Nat) (b : H5Buf) (later : y.heard ≤ i)
      (sent : y.core.link.out[i]? = some (.packet b.contents)) :
      Step host y { y with peer := y.peer.hear b, heard := i }
  | speak (y : Session) : Step host y { y with acks := y.acks ++ [y.peer.next] }

abbrev Reachable (host : Host) (m : Modem) : Session → Prop :=
  Relation.ReflTransGen (Step host) { core := Core.iosBbInit m }

/-- The session is in the state of a go-back-N system. -/
structure Follows (y : Session) (z : System Bytes) : Prop where
  sender : y.core.link.Follows z.sender
  taken : z.got = y.peer.taken
  next : y.peer.next = Fin.ofNat 8 z.got.length
  heard : z.seen = y.heard
  acks : y.acks = z.acks.map (Fin.ofNat 8)
  answered : z.ackSeen = y.answered

theorem follows_init (m : Modem) : Follows { core := iosBbInit m } {} :=
  ⟨Link.follows_init, rfl, rfl, rfl, rfl, rfl⟩

/-- A frame of the core as the peer takes it. -/
def takes (queued : List Bytes) (p : Peer) : Option Nat → Peer
  | none => p
  | some k =>
    if Fin.ofNat 8 k = p.next then
      { next := p.next + 1, taken := p.taken ++ queued[k]?.toList }
    else p

theorem hear_carried {queued : List Bytes} {wire : Wire} {frame : Option Nat} {b : H5Buf}
    (sizes : ∀ data ∈ queued, data.length ≤ h5MaxPayload)
    (carried : Link.Carried queued wire frame) (isWire : wire = .packet b.contents) (p : Peer) :
    p.hear b = takes queued p frame := by
  unfold Peer.hear takes
  cases carried with
  | @data k data item crc ack =>
    have small := sizes data (mem_of_getElem? item)
    have read := carries_h5Packet small (Wire.packet.inj isWire).symm
    simp [read.ok, read.type, read.reliable, read.seq, read.payload, item]
  | control notData small crc seq ack =>
    have read := carries_h5Packet small (Wire.packet.inj isWire).symm
    simp [read.type, read.reliable]
  | raw bytes => cases isWire

/-- The peer's number says which item comes next. -/
theorem takes_got {z : System Bytes} (follows : y.Follows z) (inv : z.Inv h5Window)
    {frame : Option Nat} {i : Nat} (later : z.seen ≤ i) (sent : z.sender.frames[i]? = some frame) :
    z.takes 8 frame = (takes y.core.link.queued y.peer frame).taken ∧
      (takes y.core.link.queued y.peer frame).next = Fin.ofNat 8 (z.takes 8 frame).length := by
  cases frame with
  | none => exact ⟨follows.taken, follows.next⟩
  | some k =>
    have same : Fin.ofNat 8 k = y.peer.next ↔ k % 8 = z.got.length % 8 := by
      rw [follows.next]
      simp [Fin.ext_iff]
    unfold System.takes takes
    dsimp only
    by_cases residue : k % 8 = z.got.length % 8
    · have isNext := System.eq_of_residue (by decide) (by decide) inv later sent residue
      have ahead : k < z.sender.next := inv.sender.sent k (mem_of_getElem? sent)
      have inside : k < y.core.link.queued.length :=
        follows.sender.input ▸ ahead.trans_le inv.sender.given
      rw [if_pos residue, if_pos (same.mpr residue), follows.sender.input, follows.taken]
      refine ⟨rfl, ?_⟩
      rw [follows.next, follows.taken]
      simp [inside, Fin.ext_iff, Fin.val_add]
    · rw [if_neg residue, if_neg (mt same.mp residue)]
      exact ⟨follows.taken, follows.next⟩

theorem follows_step {host : Host} {y' : Session} {z : System Bytes} (follows : y.Follows z)
    (inv : z.Inv h5Window) (step : Step host y y') :
    ∃ z', System.Step h5Window 8 z z' ∧ y'.Follows z' := by
  cases step with
  | event e pos delivered =>
    obtain ⟨s', run, sender⟩ := simulates_walk.handle y.core e z.sender follows.sender
    have heard := delivered.map Fin.val
    rw [follows.acks, map_map, ← follows.answered] at heard
    exact ⟨_, .send z heard run, { follows with sender, answered := rfl }⟩
  | hear i b later sent =>
    rw [← follows.heard] at later
    have size := follows.sender.out.length_eq
    obtain ⟨inside, isWire⟩ := List.getElem?_eq_some_iff.mp sent
    have inside' : i < z.sender.frames.length := size ▸ inside
    have carried := follows.sender.out.get inside inside'
    have isFrame : z.sender.frames[i]? = some (z.sender.frames.get ⟨i, inside'⟩) :=
      getElem?_eq_getElem inside'
    obtain ⟨got, next⟩ := takes_got follows inv later isFrame
    refine ⟨_, .receive z i _ later isFrame, ?_⟩
    have heardIt := hear_carried follows.sender.sizes carried isWire y.peer
    exact { follows with
      taken := by rw [heardIt]; exact got
      next := by rw [heardIt]; exact next
      heard := rfl }
  | speak =>
    refine ⟨_, .reply z, { follows with acks := ?_ }⟩
    rw [map_append, ← follows.acks, follows.next]
    rfl

theorem follows_reachable {host : Host} {m : Modem} (reachable : Reachable host m y) :
    ∃ z, System.Reachable h5Window 8 z ∧ y.Follows z := by
  induction reachable with
  | refl => exact ⟨{}, .refl, follows_init m⟩
  | tail _ step ih =>
    obtain ⟨z, reached, follows⟩ := ih
    have inv := System.reachable_inv (by decide) (by decide) reached
    obtain ⟨z', next, follows'⟩ := follows_step follows inv step
    exact ⟨z', reached.tail next, follows'⟩

end Session

/-! ## The window in every state -/

theorem follows_run (host : Host) (m : Modem) (events : List Event) :
    ∃ s, ((iosBbInit m).run host events).link.Follows s := by
  induction events using reverseRecOn with
  | nil => exact ⟨{}, follows_init⟩
  | append_singleton events e ih =>
    obtain ⟨s, follows⟩ := ih
    obtain ⟨s', -, follows'⟩ := simulates_walk.handle _ e s follows
    refine ⟨s', ?_⟩
    rw [run, foldl_append]
    exact follows'

/-- The numbers of the unacknowledged packets end right before the next one. -/
theorem Link.Follows.seqs {l : Link} {s : Sender Bytes} (follows : l.Follows s) :
    l.unacked.map (·.seq) =
      (range l.unacked.length).map fun i => l.txSeq - Fin.ofNat 8 (l.unacked.length - i) := by
  have order := follows.window.order
  have length := length_unacked follows
  apply ext_getElem
  · simp
  · intro i left right
    have inside : i < l.unacked.length := by simpa using left
    have inside' : i < (range' s.base (s.next - s.base)).length := by
      rw [length_range', ← length]
      exact inside
    have numbered := (follows.unacked.get inside inside').1
    simp only [get_eq_getElem, getElem_range', one_mul] at numbered
    rw [getElem_map, getElem_map, getElem_range, numbered, follows.txSeq,
      Fin.ext_iff, ack_distance]
    simp only [Fin.ofNat]
    omega

/-- In every state the window holds at most seven packets, with consecutive numbers that end
right before the next one, and the queue whole records; and whatever is lost or repeated, the
peer has taken a beginning of what `h5_queue` took. -/
theorem h5_transmit_window (host : Host) (m : Modem) :
    (∀ events : List Event, ∀ l : Link, l = ((Core.iosBbInit m).run host events).link →
      l.unacked.length ≤ 7 ∧
      l.unacked.map (·.seq) =
        ((List.range l.unacked.length).map fun i =>
          l.txSeq - Fin.ofNat 8 (l.unacked.length - i)) ∧
      ∃ records : List Bytes, (∀ data ∈ records, data.length ≤ 1024) ∧
        l.txq = records.flatMap Link.record) ∧
    ∀ y : Session, Session.Reachable host m y → y.peer.taken <+: y.core.link.queued := by
  constructor
  · rintro events l rfl
    obtain ⟨s, follows⟩ := follows_run host m events
    have window : s.next ≤ s.base + 7 := follows.window.window
    refine ⟨?_, follows.seqs, _, ?_, follows.txq⟩
    · rw [length_unacked follows]
      omega
    · intro data inside
      exact follows.sizes data (mem_of_mem_drop inside)
  · intro y reachable
    obtain ⟨z, reached, follows⟩ := Session.follows_reachable reachable
    rw [← follows.taken, ← follows.sender.input]
    exact reached.got_prefix (by decide) (by decide)

/-- A first exchange: the peer says something, the core reacts, the peer hears a frame. -/
theorem Session.reachable_exchange (host : Host) (m : Modem) (e : Event) (i : Nat) (b : H5Buf)
    {acks : List (Fin 8)} {pos : Nat} (heard : Heard [0] 0 acks pos)
    (isAcks : ((iosBbInit m).received e).flatMap H5Buf.acks = acks)
    (sent : ((iosBbInit m).handle host e).link.out[i]? = some (.packet b.contents)) :
    Reachable host m ⟨(iosBbInit m).handle host e, Peer.hear {} b, i, [0], pos⟩ := by
  have spoken : Reachable host m { core := iosBbInit m, acks := [0] } := .single (.speak _)
  have reacted := spoken.tail (.event _ e pos (isAcks ▸ heard))
  exact reacted.tail (.hear _ i b (zero_le i) sent)

/-- The kernel configures the link and sends a command; the answer reaches it. -/
theorem h5_answer_reaches_peer :
    ∃ y : Session, Session.Reachable bareHost {} y ∧
      y.peer.taken = [crlf (ascii "OK")] ∧ y.peer.taken <+: y.core.link.queued := by
  have heard : Heard [(0 : Fin 8)] 0 [0, 0] 0 := .cons le_rfl rfl (.cons le_rfl rfl (.nil 0))
  have reached := Session.reachable_exchange bareHost {}
    (.input 0 (Slip.encode (h5Packet h5TypeLink false false 0 0 [0x03, 0xfc]) ++
      Slip.encode (h5Packet h5TypeData true false 0 0 (ascii "at\r")))) 1
    ((h5Packet h5TypeData true false 0 1 (crlf (ascii "OK"))).foldl Buf.push .zero)
    heard (by decide +kernel) (by decide +kernel)
  exact ⟨_, reached, by decide +kernel, (h5_transmit_window _ {}).2 _ reached⟩

end QemuIos.Baseband

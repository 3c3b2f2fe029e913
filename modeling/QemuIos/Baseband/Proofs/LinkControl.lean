import QemuIos.Baseband.Proofs.Acknowledge

/-!
# Link control and what lies behind the packet

A packet is parsed in place in `h5_rx`, which keeps the bytes of earlier packets behind it. Every
check reads the packet's own bytes (`SamePacket.ok_eq`), and so does link control as long as there
is a payload (`h5LinkControl_congr`); the opcode of an empty link packet is whatever follows the
header.
-/

namespace QemuIos.Baseband
open CText Link List Nat Bool

/-- The same packet in two buffers, whatever lies behind it. -/
structure SamePacket (p q : H5Buf) : Prop where
  len : q.len = p.len
  own : ∀ i < p.len, q.data i = p.data i

namespace SamePacket

open H5Buf

variable {p q : H5Buf} (same : SamePacket p q)

include same

section

variable (whole : 4 ≤ p.len)
include whole

/-- The four bytes of a header. -/
theorem header {i : Nat} (inside : i < 4) : q.data i = p.data i :=
  same.own i (by omega)

theorem payloadLen_eq : payloadLen q = payloadLen p := by
  unfold payloadLen
  rw [same.header whole (by decide), same.header whole (by decide)]

theorem type_eq : type q = type p := by
  unfold type
  rw [same.header whole (by decide)]

theorem ack_eq : H5Buf.ack q = H5Buf.ack p := by
  unfold H5Buf.ack
  rw [same.header whole (by decide)]

theorem hasCrc_eq : hasCrc q = hasCrc p := by
  unfold hasCrc
  rw [same.header whole (by decide)]
end

end SamePacket

/-- An accepted packet holds its header, its payload and the check sequence. -/
theorem H5Buf.len_of_ok {p : H5Buf} (ok : H5Buf.ok p = true) :
    4 ≤ p.len ∧ 4 + H5Buf.payloadLen p + 2 * (H5Buf.hasCrc p).toNat = p.len := by
  simp only [H5Buf.ok, H5Buf.headerOk, H5Buf.lengthOk, and_eq_true, decide_eq_true_eq] at ok
  exact ⟨ok.1.1.1, ok.1.2.2⟩

theorem SamePacket.ok_eq {p q : H5Buf} (same : SamePacket p q) (ok : H5Buf.ok p = true) :
    H5Buf.ok q = true := by
  obtain ⟨whole, length⟩ := H5Buf.len_of_ok ok
  have covered : H5Buf.covered q = H5Buf.covered p := by
    unfold H5Buf.covered
    rw [same.payloadLen_eq whole]
    apply map_congr_left
    intro i inside
    exact same.own i (by have := mem_range.mp inside; omega)
  have crc : H5Buf.crcOk q = H5Buf.crcOk p := by
    unfold H5Buf.crcOk
    rw [covered, same.payloadLen_eq whole, same.hasCrc_eq whole]
    cases hasCrc : H5Buf.hasCrc p with
    | false => rfl
    | true =>
      rw [hasCrc] at length
      rw [same.own _ (by simp at length; omega), same.own _ (by simp at length; omega)]
  have header : H5Buf.headerOk q = H5Buf.headerOk p := by
    unfold H5Buf.headerOk
    rw [same.len, same.header whole (by decide : 0 < 4), same.header whole (by decide : 1 < 4),
      same.header whole (by decide : 2 < 4), same.header whole (by decide : 3 < 4)]
  have length : H5Buf.lengthOk q = H5Buf.lengthOk p := by
    unfold H5Buf.lengthOk
    rw [same.len, same.payloadLen_eq whole, same.hasCrc_eq whole]
  rw [← ok, H5Buf.ok, H5Buf.ok, header, length, crc]

namespace Link

variable (l : Link) (now : Int)

/-! ## What an acknowledgement releases -/

/-- One of the next `left` payloads of the queue is short enough to be sent. -/
def sendable : Nat → Bytes → Bool
  | left + 1, lo :: hi :: rest =>
    let len := lo.toNat + 256 * hi.toNat
    len ≤ rest.length && (len ≤ h5MaxPayload || sendable left (rest.drop len))
  | _, _ => false

/-- An acknowledgement lets a queued payload out. -/
def releases (ack : Fin 8) : Bool :=
  match l.unacked with
  | [] => false
  | first :: _ =>
    let d := (ack - first.seq).val
    d ≤ l.unacked.length && l.active && sendable (h5Window - (l.unacked.length - d)) l.txq

theorem releases_eq (ack : Fin 8) : l.releases ack = l.ackedThen ack fun d =>
    l.active && sendable (h5Window - (l.unacked.length - d)) l.txq := by
  unfold releases ackedThen
  cases l.unacked with
  | nil => rfl
  | cons first rest => exact and_assoc _ _ _

theorem h5SendPkt_out (type : Fin 16) (reliable : Bool) (seq : Fin 8) (data : Bytes) :
    (l.h5SendPkt now type reliable seq data).out.length =
      l.out.length + if data.length ≤ h5MaxPayload then 1 else 0 := by
  unfold h5SendPkt
  by_cases long : h5MaxPayload < data.length
  · rw [if_pos long, if_neg (by omega), add_zero]
  · rw [if_neg long, if_pos (by omega)]
    exact length_append

/-- One turn of the pump: the queue's first payload, unless there is none. -/
theorem h5PumpFrom_succ (left : Nat) :
    (h5PumpFrom now (left + 1) l = l ∧ sendable (left + 1) l.txq = false) ∨
    ∃ data rest, sendable (left + 1) l.txq = (data.length ≤ h5MaxPayload || sendable left rest) ∧
      h5PumpFrom now (left + 1) l =
        h5PumpFrom now left (h5SendOneUnacked { l with txq := rest } now data) := by
  match queue : l.txq with
  | [] => exact .inl ⟨by simp only [h5PumpFrom, queue], rfl⟩
  | [b] => exact .inl ⟨by simp only [h5PumpFrom, queue], rfl⟩
  | lo :: hi :: rest =>
    by_cases short : rest.length < lo.toNat + 256 * hi.toNat
    · refine .inl ⟨by simp only [h5PumpFrom, queue, if_pos short], ?_⟩
      simp only [sendable, and_eq_false_iff, decide_eq_false_iff_not]
      exact .inl (by omega)
    have whole : lo.toNat + 256 * hi.toNat ≤ rest.length := by omega
    refine .inr ⟨rest.take (lo.toNat + 256 * hi.toNat),
      rest.drop (lo.toNat + 256 * hi.toNat), ?_, ?_⟩
    · simp only [sendable, length_take, min_eq_left whole, whole, decide_true,
        Bool.true_and]
    · simp only [h5PumpFrom, queue, if_neg short]

/-- The pump writes exactly when something can be sent. -/
theorem h5PumpFrom_out (left : Nat) :
    l.out.length + (if sendable left l.txq then 1 else 0) ≤ (h5PumpFrom now left l).out.length ∧
      (sendable left l.txq = false → (h5PumpFrom now left l).out = l.out) := by
  induction left generalizing l with
  | zero => exact ⟨by simp [sendable, h5PumpFrom], fun _ => rfl⟩
  | succ left ih =>
    rcases h5PumpFrom_succ l now left with ⟨same, silent⟩ | ⟨data, rest, sends, pumped⟩
    · rw [same, silent]
      exact ⟨by simp, fun _ => rfl⟩
    have turn := ih (h5SendOneUnacked { l with txq := rest } now data)
    have queue : (h5SendOneUnacked { l with txq := rest } now data).txq = rest := by
      unfold h5SendOneUnacked h5SendPkt
      dsimp only
      split <;> rfl
    have sent : (h5SendOneUnacked { l with txq := rest } now data).out.length =
        l.out.length + if data.length ≤ h5MaxPayload then 1 else 0 :=
      h5SendPkt_out _ now h5TypeData true l.txSeq data
    rw [queue] at turn
    rw [pumped, sends]
    by_cases short : data.length ≤ h5MaxPayload
    · rw [if_pos short] at sent
      refine ⟨?_, fun silent => ?_⟩
      · simp only [short, decide_true, Bool.true_or, if_true]
        omega
      · simp [short] at silent
    · rw [if_neg short] at sent
      simp only [short, decide_false, Bool.false_or]
      refine ⟨by omega, fun silent => ?_⟩
      rw [turn.2 silent]
      unfold h5SendOneUnacked h5SendPkt
      dsimp only
      rw [if_pos (by omega)]

theorem h5Pump_out_le : l.out.length ≤ (l.h5Pump now).out.length := by
  unfold h5Pump
  split
  · exact le_trans (le_add_right _ _) (h5PumpFrom_out l now _).1
  · exact le_rfl

/-- Acknowledged packets leave the window; what is written then is what that releases. -/
theorem h5Acked_out (ack : Fin 8) :
    l.out.length + (if l.releases ack then 1 else 0) ≤ (l.h5Acked now ack).out.length ∧
      (l.releases ack = false → (l.h5Acked now ack).out = l.out) := by
  rcases h5Acked_cases l now ack with ⟨same, silent⟩ | ⟨d, pumped, sends⟩
  · rw [same, l.releases_eq, silent]
    exact ⟨by simp, fun _ => rfl⟩
  rw [pumped, l.releases_eq, sends]
  unfold h5Pump
  dsimp only
  cases active : l.active with
  | false => exact ⟨by simp, fun _ => by simp⟩
  | true =>
    rw [if_pos rfl, length_drop, Bool.true_and]
    exact h5PumpFrom_out { l with unacked := _, active := true } now _

/-- Neither sending nor an acknowledgement negotiates anything. -/
structure Settled (l l' : Link) : Prop where
  active : l'.active = l.active
  crc : l'.crc = l.crc

theorem settled_h5SendPkt (type : Fin 16) (reliable : Bool) (seq : Fin 8) (data : Bytes) :
    l.Settled (l.h5SendPkt now type reliable seq data) := by
  unfold h5SendPkt
  split <;> exact ⟨rfl, rfl⟩

theorem settled_h5PumpFrom (left : Nat) : l.Settled (h5PumpFrom now left l) := by
  refine h5PumpFrom_keep (p := l.Settled) (fun l' data rest settled => ?_) left ⟨rfl, rfl⟩
  have sent := settled_h5SendPkt { l' with
    txq := rest, unacked := l'.unacked ++ [H5Pkt.mk l'.txSeq data] } now h5TypeData true
    l'.txSeq data
  exact ⟨sent.active.trans settled.active, sent.crc.trans settled.crc⟩

theorem settled_h5Acked (ack : Fin 8) : l.Settled (l.h5Acked now ack) := by
  rcases h5Acked_cases l now ack with ⟨same, -⟩ | ⟨d, pumped, -⟩
  · rw [same]
    exact ⟨rfl, rfl⟩
  rw [pumped]
  unfold h5Pump
  split
  · have kept := settled_h5PumpFrom { l with unacked := l.unacked.drop d } now
      (h5Window - (l.unacked.drop d).length)
    exact ⟨kept.active, kept.crc⟩
  · exact ⟨rfl, rfl⟩

/-! ## Link control -/

/-- With a payload, both opcodes read the packet's own bytes. -/
theorem h5LinkControl_congr {p q : H5Buf} (same : SamePacket p q) (ok : H5Buf.ok p = true)
    (nonempty : H5Buf.payloadLen p ≠ 0) : l.h5LinkControl now q = l.h5LinkControl now p := by
  obtain ⟨whole, length⟩ := H5Buf.len_of_ok ok
  have opcode : q.data 4 = p.data 4 := same.own 4 (by omega)
  unfold h5LinkControl
  rw [opcode, same.payloadLen_eq whole]
  by_cases given : 3 ≤ H5Buf.payloadLen p
  · rw [same.own 6 (by omega)]
  · simp only [given, if_false, decide_false, Bool.false_and]

theorem h5LinkControl_ignored {p : H5Buf} (unknown : controlReplies p = false) :
    l.h5LinkControl now p = l := by
  simp only [controlReplies, or_eq_false_iff, decide_eq_false_iff_not] at unknown
  unfold h5LinkControl
  rw [if_neg unknown.1, if_neg unknown.2]

theorem h5LinkControl_answered {p : H5Buf} (known : controlReplies p = true) :
    l.out.length < (l.h5LinkControl now p).out.length := by
  unfold h5LinkControl
  by_cases sync : p.data 4 = 0x01
  · rw [if_pos sync, h5SendPkt_out]
    exact lt_succ_self _
  have config : p.data 4 = 0x03 := by
    simpa [controlReplies, sync] using known
  rw [if_neg sync, if_pos config]
  dsimp only
  refine lt_of_lt_of_le ?_ (h5Pump_out_le _ now)
  rw [h5SendPkt_out]
  exact lt_succ_self _

/-- A link packet without a payload that is not answered, and whose acknowledgement releases
nothing. -/
def idle (p : H5Buf) : Prop := controlReplies p = false ∧ l.releases (H5Buf.ack p) = false

/-- An accepted link packet: the acknowledgement, then link control. -/
theorem h5RxPkt_link {p : H5Buf} (ok : H5Buf.ok p = true) (link : H5Buf.type p = h5TypeLink) :
    l.h5RxPkt now p = ((l.h5Acked now (H5Buf.ack p)).h5LinkControl now p, none) := by
  unfold h5RxPkt
  rw [if_pos ok, if_pos link]

/-- What can be seen of a link: its output and what was negotiated. -/
def view : List Wire × Bool × Bool := (l.out, l.active, l.crc)

theorem view_h5RxPkt_iff {p : H5Buf} (ok : H5Buf.ok p = true)
    (link : H5Buf.type p = h5TypeLink) : (l.h5RxPkt now p).1.view = l.view ↔ l.idle p := by
  have acked := h5Acked_out l now (H5Buf.ack p)
  have settled := settled_h5Acked l now (H5Buf.ack p)
  rw [h5RxPkt_link l now ok link]
  constructor
  · intro same
    have out : ((l.h5Acked now (H5Buf.ack p)).h5LinkControl now p).out = l.out :=
      congrArg Prod.fst same
    have unknown : controlReplies p = false := by
      by_contra known
      have more := h5LinkControl_answered (l.h5Acked now (H5Buf.ack p)) now
        (eq_true_of_not_eq_false known)
      rw [out] at more
      omega
    refine ⟨unknown, ?_⟩
    by_contra released
    rw [h5LinkControl_ignored _ now unknown] at out
    rw [out, if_pos (eq_true_of_not_eq_false released)] at acked
    omega
  · rintro ⟨unknown, silent⟩
    rw [h5LinkControl_ignored _ now unknown]
    simp only [view, acked.2 silent, settled.active, settled.crc]

end Link

namespace Core

/-- The core with these bytes in `h5_rx`. -/
def holding (c : Core) (p : H5Buf) : Core := { c with rx := { c.rx with buf := p } }

theorem h5RxPkt_link (host : Host) (c : Core) {p : H5Buf} (link : H5Buf.type p = h5TypeLink)
    (ok : H5Buf.ok p = true) :
    (c.h5RxPkt host p).link = (c.link.h5RxPkt c.now p).1 := by
  unfold h5RxPkt
  rw [Link.h5RxPkt_link c.link c.now ok link]

end Core

/-- An accepted link packet has the same effect whatever earlier packets left behind it, and none
without a payload, exactly when it has a payload or neither leftover reads as an opcode and its
acknowledgement releases nothing. -/
theorem link_packet_own_bytes_iff (host : Host) (c : Core) (p q : H5Buf) (same : SamePacket p q)
    (ok : H5Buf.ok p = true) (link : H5Buf.type p = h5TypeLink) :
    (((c.holding q).h5RxPkt host q).link.view = ((c.holding p).h5RxPkt host p).link.view ∧
      (H5Buf.payloadLen p = 0 → ((c.holding p).h5RxPkt host p).link.view = c.link.view)) ↔
    (H5Buf.payloadLen p ≠ 0 ∨ (c.link.idle p ∧ c.link.idle q)) := by
  have whole := (H5Buf.len_of_ok ok).1
  have ok' := same.ok_eq ok
  have link' : H5Buf.type q = h5TypeLink := (same.type_eq whole).trans link
  rw [Core.h5RxPkt_link host _ link ok, Core.h5RxPkt_link host _ link' ok']
  have hp := view_h5RxPkt_iff c.link c.now ok link
  have hq := view_h5RxPkt_iff c.link c.now ok' link'
  change (((c.link.h5RxPkt c.now q).1.view = (c.link.h5RxPkt c.now p).1.view ∧
    (H5Buf.payloadLen p = 0 → (c.link.h5RxPkt c.now p).1.view = c.link.view)) ↔ _)
  by_cases empty : H5Buf.payloadLen p = 0
  · rw [← hp, ← hq]
    constructor
    · rintro ⟨agree, nothing⟩
      exact .inr ⟨nothing empty, agree.trans (nothing empty)⟩
    · rintro (more | ⟨own, other⟩)
      · exact absurd empty more
      · exact ⟨other.trans own.symm, fun _ => own⟩
  · refine ⟨fun _ => .inl empty, fun _ => ⟨?_, fun zero => absurd zero empty⟩⟩
    rw [h5RxPkt_link c.link c.now ok link, h5RxPkt_link c.link c.now ok' link',
      same.ack_eq whole, h5LinkControl_congr _ c.now same ok empty]

/-- A packet in a buffer, and what earlier packets left behind it. -/
def bufferOf (packet left : Bytes) (fits : packet.length ≤ h5RxSize) : H5Buf :=
  ⟨fun i => (packet ++ left).getD i 0, packet.length, fits⟩

/-- A `SYNC` is answered the same over different leftovers. -/
theorem sync_own_bytes :
    let host : Host := bareHost
    let p := bufferOf [0x00, 0x2f, 0x00, 0xd0, 0x01, 0x7e] [] (by decide)
    let q := bufferOf [0x00, 0x2f, 0x00, 0xd0, 0x01, 0x7e] [0x03, 0x10] (by decide)
    ((({} : Core).holding q).h5RxPkt host q).link.view =
      ((({} : Core).holding p).h5RxPkt host p).link.view := by
  refine ((link_packet_own_bytes_iff _ {} _ _ ⟨rfl, ?_⟩ (by decide) (by decide)).mpr
    (.inl (by decide))).1
  decide

/-- An empty link packet over an old `SYNC` is answered, over zeros it is not. -/
theorem empty_link_packet_reads_leftover :
    let host : Host := bareHost
    let p := bufferOf [0x00, 0x0f, 0x00, 0xf0] [] (by decide)
    let q := bufferOf [0x00, 0x0f, 0x00, 0xf0] [0x01, 0x7e] (by decide)
    q.len = p.len ∧ (∀ i < p.len, q.data i = p.data i) ∧ H5Buf.ok p = true ∧
      H5Buf.type p = h5TypeLink ∧ H5Buf.payloadLen p = 0 ∧
      ((({} : Core).holding p).h5RxPkt host p).link.out = [] ∧
      ((({} : Core).holding q).h5RxPkt host q).link.out =
        [.packet [0x00, 0x2f, 0x00, 0xd0, 0x02, 0x7d]] := by
  refine ⟨rfl, ?_, ?_, ?_, ?_, ?_, ?_⟩ <;> decide

end QemuIos.Baseband

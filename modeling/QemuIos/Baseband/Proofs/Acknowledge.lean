import QemuIos.Baseband.Proofs.Split
import QemuIos.Baseband.Proofs.Window

/-!
# Which packets are acknowledged

An accepted packet sets nothing: its acknowledgement rides on whatever is sent next. Which numbers
a call of `ios_bb_input` acknowledges is told here from the bytes and the states before them.
-/

namespace QemuIos.Baseband
open CText GoBackN List H5Buf Baseband.Core Link Nat

/-- The acknowledgement number on a packet. -/
def Wire.ack? : Wire → Option (Fin 8)
  | .packet pkt => some (Fin.ofNat 8 ((pkt.getD 0 0).toNat / 8))
  | .raw _ => none

theorem ack_h5Packet (type : Fin 16) (reliable crc : Bool) (seq ack : Fin 8) (data : Bytes) :
    (Wire.packet (h5Packet type reliable crc seq ack data)).ack? = some ack := by
  obtain ⟨-, isAck, -, -⟩ := header_byte0 seq ack crc reliable
  have first : (h5Packet type reliable crc seq ack data).getD 0 0 = (h5Header type reliable crc seq
      ack data.length).getD 0 0 := by
    cases crc
    · rfl
    · rfl
  show some (Fin.ofNat 8 ((getD (h5Packet type reliable crc seq ack data) 0 0).toNat / 8)) =
    some ack
  rw [first]
  exact congrArg some isAck

namespace Link

/-- Only packets with the present number go out, and some exactly in this case. -/
def Sends (l l' : Link) (sends : Prop) : Prop :=
  l'.rxNext = l.rxNext ∧ ∃ new, l'.out = l.out ++ new ∧
    (∀ wire ∈ new, wire.ack? = some l.rxNext) ∧ (new ≠ [] ↔ sends)

namespace Sends

variable {l l₁ l₂ : Link} {p q : Prop}

theorem iff (sends : Sends l l₁ p) (same : p ↔ q) : Sends l l₁ q := by
  obtain ⟨rxNext, new, out, all, any⟩ := sends
  exact ⟨rxNext, new, out, all, any.trans same⟩

theorem nothing (rxNext : l₁.rxNext = l.rxNext) (out : l₁.out = l.out) : Sends l l₁ False :=
  ⟨rxNext, [], by rw [out, append_nil], by simp, by simp⟩

theorem trans (first : Sends l l₁ p) (second : Sends l₁ l₂ q) : Sends l l₂ (p ∨ q) := by
  obtain ⟨rxNext, new, out, all, any⟩ := first
  obtain ⟨rxNext', new', out', all', any'⟩ := second
  refine ⟨rxNext'.trans rxNext, new ++ new', by rw [out', out, append_assoc], ?_, ?_⟩
  · intro wire inside
    rcases mem_append.mp inside with before | after
    · exact all wire before
    · rw [all' wire after, rxNext]
  · rw [← any, ← any', ne_eq, append_eq_nil_iff, not_and_or]

/-- Something has gone out, whatever follows. -/
theorem thenAny (first : Sends l l₁ True) (second : Sends l₁ l₂ q) : Sends l l₂ True :=
  (first.trans second).iff (iff_of_eq (true_or q))

theorem congr (sends : Sends l l₁ p) (rxNext : l₂.rxNext = l₁.rxNext) (out : l₂.out = l₁.out) :
    Sends l l₂ p :=
  (sends.trans (nothing rxNext out)).iff (iff_of_eq (or_false p))

end Sends

variable (l : Link) (now : Int)

theorem sends_h5SendPkt (type : Fin 16) (reliable : Bool) (seq : Fin 8) {data : Bytes}
    (small : data.length ≤ h5MaxPayload) :
    l.Sends (l.h5SendPkt now type reliable seq data) True := by
  refine ⟨?_, _, h5SendPkt_out l now type reliable seq small, ?_, by simp⟩
  · unfold h5SendPkt
    rw [if_neg (not_lt.mpr small)]
    rfl
  · intro wire inside
    rw [mem_singleton.mp inside]
    exact ack_h5Packet _ _ _ _ _ _

theorem sends_h5Queue (data : Bytes) : l.Sends (l.h5Queue data) False := by
  unfold h5Queue
  dsimp only
  split
  · exact .nothing rfl rfl
  · exact .nothing rfl rfl

/-- Whole records wait to be sent. -/
def Formed (l : Link) : Prop :=
  ∃ items : List Bytes, (∀ data ∈ items, data.length ≤ h5MaxPayload) ∧ l.txq = items.flatMap record

theorem Follows.formed {l : Link} {s : Sender Bytes} (follows : l.Follows s) : l.Formed :=
  ⟨l.queued.drop s.next, fun data inside => follows.sizes data (mem_of_mem_drop inside),
    follows.txq⟩

/-- A turn of `h5_pump` with room in the window: nothing waits, or the record at the front goes
out. -/
theorem h5PumpFrom_cases {l : Link} (formed : l.Formed) :
    (l.txq = [] ∧ ∀ left, h5PumpFrom now left l = l) ∨
      ∃ l₁, l.txq ≠ [] ∧ l.Sends l₁ True ∧ l₁.Formed ∧ l₁.active = l.active ∧ l₁.lastTxMs = now ∧
        ∀ left, h5PumpFrom now (left + 1) l = h5PumpFrom now left l₁ := by
  obtain ⟨items, sizes, txq⟩ := formed
  match items with
  | [] =>
    rw [flatMap_nil] at txq
    refine .inl ⟨txq, fun left => ?_⟩
    cases left with
    | zero => rfl
    | succ left =>
      unfold h5PumpFrom
      rw [txq]
  | data :: items =>
    obtain ⟨small, sizes⟩ := forall_mem_cons.mp sizes
    rw [flatMap_cons] at txq
    have sent := sends_h5SendPkt { l with
      txq := items.flatMap record, unacked := l.unacked ++ [H5Pkt.mk l.txSeq data] }
      now h5TypeData true l.txSeq small
    have fields : ∀ l : Link, (l.h5SendPkt now h5TypeData true l.txSeq data).txq = l.txq ∧
        (l.h5SendPkt now h5TypeData true l.txSeq data).active = l.active ∧
        (l.h5SendPkt now h5TypeData true l.txSeq data).lastTxMs = now := by
      intro l
      unfold h5SendPkt
      rw [if_neg (not_lt.mpr small)]
      exact ⟨rfl, rfl, rfl⟩
    obtain ⟨waiting, active, sentNow⟩ := fields { l with
      txq := items.flatMap record, unacked := l.unacked ++ [H5Pkt.mk l.txSeq data] }
    refine .inr ⟨h5SendOneUnacked { l with txq := items.flatMap record } now data,
      by simp [txq, record], sent.congr rfl rfl, ⟨items, sizes, waiting⟩, active, sentNow,
      fun left => ?_⟩
    conv_lhs => unfold h5PumpFrom
    rw [txq]
    simp only [record, cons_append, nil_append, record_len small]
    rw [if_neg (by simp), drop_left, take_left]

/-- What is left waits in whole records, on a link that is active if it was. -/
structure Waits (l l' : Link) : Prop where
  formed : l'.Formed
  active : l.active = true → l'.active = true

theorem Waits.trans {l₁ l₂ l₃ : Link} (first : Waits l₁ l₂) (second : Waits l₂ l₃) : Waits l₁ l₃ :=
  ⟨second.formed, fun active => second.active (first.active active)⟩

theorem Waits.refl {l : Link} (formed : l.Formed) : Waits l l := ⟨formed, fun active => active⟩

/-- What the loop of `h5_pump` sends and leaves. -/
theorem h5PumpFrom_spec {l : Link} (formed : l.Formed) (left : Nat) :
    l.Sends (h5PumpFrom now left l) (0 < left ∧ l.txq ≠ []) ∧ l.Waits (h5PumpFrom now left l) ∧
      (h5PumpFrom now left l = l ∨ (h5PumpFrom now left l).lastTxMs = now) := by
  induction left generalizing l with
  | zero => exact ⟨(Sends.nothing rfl rfl).iff (by simp), .refl formed, .inl rfl⟩
  | succ left ih =>
    rcases h5PumpFrom_cases now formed with
      ⟨empty, still⟩ | ⟨l₁, nonempty, sent, formed₁, active, sentNow, next⟩
    · rw [still]
      exact ⟨(Sends.nothing rfl rfl).iff (by simp [empty]), .refl formed, .inl rfl⟩
    · obtain ⟨sends, waits, stamp⟩ := ih formed₁
      rw [next]
      exact ⟨(sent.thenAny sends).iff (by simp [nonempty]), Waits.trans ⟨formed₁, active.trans⟩
        waits, .inr (stamp.elim (congrArg lastTxMs · |>.trans sentNow) id)⟩

theorem h5Pump_spec {l : Link} (formed : l.Formed) :
    l.Sends (l.h5Pump now) (l.active = true ∧ l.unacked.length < h5Window ∧ l.txq ≠ []) ∧
      l.Waits (l.h5Pump now) := by
  unfold h5Pump
  split
  · next active =>
    obtain ⟨sends, waits, -⟩ := h5PumpFrom_spec now formed (h5Window - l.unacked.length)
    refine ⟨sends.iff ?_, waits⟩
    rw [Nat.sub_pos_iff_lt]
    exact (and_iff_right active).symm
  · next inactive => exact ⟨(Sends.nothing rfl rfl).iff (by simp [inactive]), .refl formed⟩

/-! ## Writing -/

theorem formed_h5Queue {l : Link} (formed : l.Formed) (data : Bytes) : (l.h5Queue data).Formed := by
  unfold h5Queue
  dsimp only
  split
  · exact formed
  obtain ⟨items, sizes, txq⟩ := formed
  refine ⟨items ++ [data.take h5MaxPayload], ?_, ?_⟩
  · intro item inside
    rcases mem_append.mp inside with before | last
    · exact sizes item before
    · rw [mem_singleton.mp last, length_take]
      exact min_le_left _ _
  · simp [txq, record]

/-- The queue is only ever without room if it holds something. -/
theorem h5Queue_txq (data : Bytes) : (l.h5Queue data).txq ≠ [] := by
  unfold h5Queue
  dsimp only
  split
  · next full =>
    intro empty
    have taken : (data.take h5MaxPayload).length ≤ 1024 := by
      rw [length_take]
      exact min_le_left _ _
    rw [empty, length_nil] at full
    have size : h5TxqSize = 8192 := rfl
    omega
  · simp

theorem h5Queue_fields (data : Bytes) :
    (l.h5Queue data).active = l.active ∧ (l.h5Queue data).unacked = l.unacked := by
  unfold h5Queue
  dsimp only
  split
  · exact ⟨rfl, rfl⟩
  · exact ⟨rfl, rfl⟩

/-- A write while the modem is on sends something if the window has room. -/
theorem sends_stream {l : Link} (formed : l.Formed) (active : l.active = true) {op : Op}
    (inH5 : op.h5 = true) :
    l.Sends (l.stream now op) (op.off = false ∧ l.unacked.length < h5Window) := by
  obtain ⟨active', unacked'⟩ := h5Queue_fields l op.data
  unfold stream
  split
  · next off => exact (Sends.nothing rfl rfl).iff (by simp [off])
  · next on =>
    rw [if_neg (by simp [inH5]), if_neg (by simp [active])]
    have queued := sends_h5Queue l op.data
    refine (queued.trans (h5Pump_spec now (formed_h5Queue formed op.data)).1).iff ?_
    simp [on, active', active, unacked', h5Queue_txq l op.data]

theorem waits_stream {l : Link} (formed : l.Formed) (op : Op) : l.Waits (l.stream now op) := by
  have queued : l.Waits (l.h5Queue op.data) :=
    ⟨formed_h5Queue formed op.data, (h5Queue_fields l op.data).1.trans⟩
  unfold stream
  split
  · exact .refl formed
  split
  · exact ⟨formed, fun active => active⟩
  split
  · exact queued
  · exact queued.trans (h5Pump_spec now queued.formed).2

/-- Without room in the window a write only queues. -/
theorem stream_full {l : Link} (active : l.active = true) {op : Op} (inH5 : op.h5 = true)
    (full : h5Window ≤ l.unacked.length) : (l.stream now op).unacked = l.unacked := by
  obtain ⟨active', unacked'⟩ := h5Queue_fields l op.data
  unfold stream
  split
  · rfl
  rw [if_neg (by simp [inH5]), if_neg (by simp [active])]
  unfold h5Pump
  rw [active', active, if_pos rfl, unacked', Nat.sub_eq_zero_of_le full]
  exact unacked'

/-- Of several writes one while the modem is on is enough. -/
theorem sends_streams {l : Link} (formed : l.Formed) (active : l.active = true) {ops : List Op}
    (inH5 : ∀ op ∈ ops, op.h5 = true) :
    l.Sends (ops.foldl (stream now) l)
      ((∃ op ∈ ops, op.off = false) ∧ l.unacked.length < h5Window) := by
  induction ops generalizing l with
  | nil => exact (Sends.nothing rfl rfl).iff (by simp)
  | cons op ops ih =>
    obtain ⟨first, later⟩ := forall_mem_cons.mp inH5
    have sent := sends_stream now formed active first
    have waits := waits_stream now formed op
    have rest := ih waits.formed (waits.active active) later
    refine (sent.trans rest).iff ?_
    simp only [mem_cons, exists_eq_or_imp]
    by_cases room : l.unacked.length < h5Window
    · cases off : op.off with
      | false => simp [room]
      | true =>
        have same : l.stream now op = l := if_pos off
        rw [same]
        simp [room]
    · rw [stream_full now active first (not_lt.mp room)]
      simp [room]

theorem waits_streams {l : Link} (formed : l.Formed) (ops : List Op) :
    l.Waits (ops.foldl (stream now) l) := by
  induction ops generalizing l with
  | nil => exact .refl formed
  | cons op ops ih =>
    have first := waits_stream now formed op
    exact first.trans (ih first.formed)

/-! ## Receiving -/

/-- An acknowledgement opens the window for something that waits. -/
def ackSends (l : Link) (ack : Fin 8) : Bool :=
  match l.unacked with
  | [] => false
  | first :: _ =>
    let d := (ack - first.seq).val
    d ≤ l.unacked.length && l.active && l.unacked.length - d < h5Window && l.txq ≠ []

/-- What an acknowledgement of the window's first packets comes to. -/
def ackedThen (l : Link) (ack : Fin 8) (f : Nat → Bool) : Bool :=
  match l.unacked with
  | [] => false
  | first :: _ => (ack - first.seq).val ≤ l.unacked.length && f (ack - first.seq).val

/-- An acknowledgement of the window's first `d` packets, or of none. -/
theorem h5Acked_cases (ack : Fin 8) :
    (l.h5Acked now ack = l ∧ ∀ f, l.ackedThen ack f = false) ∨
      ∃ d, l.h5Acked now ack = { l with unacked := l.unacked.drop d }.h5Pump now ∧
        ∀ f, l.ackedThen ack f = f d := by
  match waiting : l.unacked with
  | [] =>
    exact .inl ⟨by simp only [h5Acked, waiting], by simp only [ackedThen, waiting, implies_true]⟩
  | first :: rest =>
    by_cases inside : (ack - first.seq).val ≤ (first :: rest).length
    · refine .inr ⟨(ack - first.seq).val, ?_, fun f => ?_⟩
      · simp only [h5Acked, waiting, if_pos inside]
      · simp only [ackedThen, waiting, inside, decide_true, Bool.true_and]
    · refine .inl ⟨?_, fun f => ?_⟩
      · simp only [h5Acked, waiting, if_neg inside]
      · simp only [ackedThen, waiting, inside, decide_false, Bool.false_and]

theorem ackSends_eq (ack : Fin 8) : l.ackSends ack = l.ackedThen ack fun d =>
    l.active && (l.unacked.length - d < h5Window && l.txq ≠ [] : Bool) := by
  unfold ackSends ackedThen
  split
  · rfl
  · simp only [Bool.and_assoc]

theorem sends_h5Acked {l : Link} (formed : l.Formed) (ack : Fin 8) :
    l.Sends (l.h5Acked now ack) (l.ackSends ack = true) ∧ l.Waits (l.h5Acked now ack) := by
  rcases h5Acked_cases l now ack with ⟨same, silent⟩ | ⟨d, pumped, sends⟩
  · rw [same, ackSends_eq, silent]
    exact ⟨(Sends.nothing rfl rfl).iff (by simp), .refl formed⟩
  have formed' : Formed { l with unacked := l.unacked.drop d } := formed
  have opened : l.Sends { l with unacked := l.unacked.drop d } False := .nothing rfl rfl
  obtain ⟨sent, waits⟩ := h5Pump_spec now formed'
  rw [pumped, ackSends_eq, sends]
  refine ⟨(opened.trans sent).iff ?_, waits.formed, waits.active⟩
  simp [length_drop]

/-- `SYNC` and `CONFIG` are answered. -/
def controlReplies (p : H5Buf) : Bool := p.data 4 = 0x01 || p.data 4 = 0x03

theorem sends_h5LinkControl {l : Link} (formed : l.Formed) (p : H5Buf) :
    l.Sends (l.h5LinkControl now p) (controlReplies p = true) ∧
      l.Waits (l.h5LinkControl now p) := by
  have kept : ∀ (l : Link) (data : Bytes), l.Formed → data.length ≤ h5MaxPayload →
      l.Waits (l.h5SendPkt now h5TypeLink false 0 data) := by
    intro l data formed small
    unfold h5SendPkt
    rw [if_neg (not_lt.mpr small)]
    exact ⟨formed, fun active => active⟩
  unfold h5LinkControl controlReplies
  split
  · next sync =>
    exact ⟨(sends_h5SendPkt l now h5TypeLink false 0 (by simp [h5MaxPayload])).iff (by simp [sync]),
      kept l _ formed (by simp [h5MaxPayload])⟩
  split
  · next notSync config =>
    let given := 3 ≤ payloadLen p
    let l₁ : Link := { l with crc := given && p.data 6 &&& 0x10 ≠ 0 }
    let cfg : UInt8 := if given then p.data 6 else 7
    have sent : l.Sends (l₁.h5SendPkt now h5TypeLink false 0 [0x04, 0x7b, cfg]) True :=
      sends_h5SendPkt l₁ now h5TypeLink false 0 (by simp [h5MaxPayload])
    have sized := kept l₁ [0x04, 0x7b, cfg] formed (by simp [h5MaxPayload])
    have ready : Formed { l₁.h5SendPkt now h5TypeLink false 0 [0x04, 0x7b, cfg] with
      active := true } := sized.formed
    obtain ⟨pumped, waits⟩ := h5Pump_spec now ready
    exact ⟨((sent.congr rfl rfl).thenAny pumped).iff (by simp [config]), waits.formed,
      fun _ => waits.active rfl⟩
  · next notSync notConfig =>
    exact ⟨(Sends.nothing rfl rfl).iff (by simp [notSync, notConfig]), .refl formed⟩

/-- A packet makes the link send something before its payload is looked at. -/
def replies (l : Link) (p : H5Buf) : Bool :=
  H5Buf.ok p && (l.ackSends (H5Buf.ack p) || (H5Buf.type p = h5TypeLink && controlReplies p))

/-- A new reliable data packet. -/
def accepts (l : Link) (p : H5Buf) : Bool :=
  H5Buf.ok p && l.active && H5Buf.type p = h5TypeData && H5Buf.reliable p && H5Buf.seq p = l.rxNext

theorem h5RxPkt_cases {l : Link} (formed : l.Formed) (active : l.active = true) (p : H5Buf) :
    l.Waits (l.h5RxPkt now p).1 ∧
      ((l.accepts p = true ∧ (l.h5RxPkt now p).2 = some (payload p) ∧
          (l.h5RxPkt now p).1 = { l.h5Acked now (ack p) with
            rxNext := (l.h5Acked now (ack p)).rxNext + 1 } ∧
          l.Sends (l.h5Acked now (ack p)) (l.replies p = true)) ∨
        (l.accepts p = false ∧ (l.h5RxPkt now p).2 = none ∧
          l.Sends (l.h5RxPkt now p).1 (l.replies p = true))) := by
  obtain ⟨acked, waits⟩ := sends_h5Acked now formed (ack p)
  have active' := waits.active active
  have rxNext := acked.1
  unfold h5RxPkt accepts replies
  by_cases ok : ok p
  · simp only [ok, if_true, Bool.true_and, active]
    by_cases control : type p = h5TypeLink
    · obtain ⟨sent, settled⟩ := sends_h5LinkControl now waits.formed p
      rw [if_pos control]
      refine ⟨waits.trans settled, .inr ⟨?_, rfl, (acked.trans sent).iff ?_⟩⟩
      · simp [control, h5TypeLink, h5TypeData]
      · simp [control]
    rw [if_neg control, if_neg (by simp [active'])]
    have replied : l.Sends (l.h5Acked now (ack p))
        ((l.ackSends (ack p) || (decide (type p = h5TypeLink) && controlReplies p)) =
          true) := acked.iff (by simp [control])
    by_cases other : (type p ≠ h5TypeData || !reliable p) = true
    · rw [if_pos other]
      refine ⟨waits, .inr ⟨?_, rfl, replied⟩⟩
      rcases Bool.or_eq_true_iff.mp other with notData | notReliable
      · simp [of_decide_eq_true notData]
      · simp [(Bool.not_eq_true' _).mp notReliable]
    rw [if_neg other]
    obtain ⟨isData, isReliable⟩ : type p = h5TypeData ∧ reliable p = true := by
      simpa using other
    by_cases next : seq p = (l.h5Acked now (ack p)).rxNext
    · rw [if_pos next]
      refine ⟨⟨waits.formed, waits.active⟩, .inl ⟨?_, rfl, rfl, replied⟩⟩
      simp [isData, isReliable, next, rxNext]
    rw [if_neg next]
    refine ⟨⟨waits.formed, waits.active⟩, .inr ⟨?_, rfl, replied.congr rfl rfl⟩⟩
    rw [rxNext] at next
    simp [next]
  · rw [if_neg ok]
    refine ⟨.refl formed, .inr ⟨by simp [ok], rfl, (Sends.nothing rfl rfl).iff (by simp [ok])⟩⟩

/-- The acknowledgement numbers on what went out. -/
def Told (l l' : Link) (numbers : Fin 8 → Prop) : Prop :=
  ∃ new, l'.out = l.out ++ new ∧ ∀ r, (∃ wire ∈ new, wire.ack? = some r) ↔ numbers r

theorem Sends.told {l l' : Link} {p : Prop} (sends : Sends l l' p) :
    Told l l' fun r => p ∧ l.rxNext = r := by
  obtain ⟨-, new, out, all, any⟩ := sends
  refine ⟨new, out, fun r => ?_⟩
  rw [← any]
  constructor
  · rintro ⟨wire, inside, number⟩
    exact ⟨ne_nil_of_mem inside, Option.some.inj ((all wire inside).symm.trans number)⟩
  · rintro ⟨nonempty, rfl⟩
    obtain ⟨wire, inside⟩ := exists_mem_of_ne_nil new nonempty
    exact ⟨wire, inside, all wire inside⟩

theorem Told.trans {l₁ l₂ l₃ : Link} {p q : Fin 8 → Prop} (first : Told l₁ l₂ p)
    (second : Told l₂ l₃ q) : Told l₁ l₃ fun r => p r ∨ q r := by
  obtain ⟨new, out, numbers⟩ := first
  obtain ⟨new', out', numbers'⟩ := second
  refine ⟨new ++ new', by rw [out', out, append_assoc], fun r => ?_⟩
  show _ ↔ p r ∨ q r
  rw [← numbers, ← numbers']
  simp only [mem_append, or_and_right, exists_or]

theorem Told.iff {l l' : Link} {p q : Fin 8 → Prop} (told : Told l l' p) (same : ∀ r, p r ↔ q r) :
    Told l l' q := by
  obtain ⟨new, out, numbers⟩ := told
  exact ⟨new, out, fun r => (numbers r).trans (same r)⟩

end Link

variable (host : Host)

namespace Core

/-- H5 with an active link. -/
structure Linked (c : Core) : Prop where
  h5 : c.h5 = true
  active : c.link.active = true
  formed : c.link.Formed

/-- The payload of an accepted packet is replied to while the window has room. -/
def answers (c : Core) (p : H5Buf) : Bool :=
  (c.link.h5Acked c.now (H5Buf.ack p)).unacked.length < h5Window &&
    (c.withLink (c.link.h5RxPkt c.now p).1).payloadReplies host (H5Buf.payload p)

/-- A packet makes the link acknowledge this number: the present one with what goes out before
the payload, the next one with what the payload makes it send. -/
def pktTells (c : Core) (r : Fin 8) (p : H5Buf) : Bool :=
  (c.link.replies p && c.link.rxNext = r) ||
    (c.link.accepts p && c.answers host p && c.link.rxNext + 1 = r)

theorem linked_h5RxPayload {c : Core} (linked : c.Linked) (data : Bytes) :
    (c.h5RxPayload host data).Linked ∧
      c.link.Sends (c.h5RxPayload host data).link
        (c.payloadReplies host data = true ∧ c.link.unacked.length < h5Window) := by
  obtain ⟨c', ops, plays, h5, heard⟩ := speaks_h5RxPayload host c data
  obtain ⟨inH5, allH5⟩ := h5 linked.h5
  have same : c.h5RxPayload host data = c'.withLink (ops.foldl (stream c.now) c.link) :=
    plays.eq
  have waits := waits_streams c.now linked.formed ops
  have sends := sends_streams c.now linked.formed linked.active allH5
  rw [same, ← heard]
  exact ⟨⟨inH5, waits.active linked.active, waits.formed⟩, sends⟩

/-- One packet. -/
theorem told_h5RxPkt {c : Core} (linked : c.Linked) (p : H5Buf) :
    (c.h5RxPkt host p).Linked ∧
      c.link.Told (c.h5RxPkt host p).link (fun r => c.pktTells host r p = true) ∧
      (c.h5RxPkt host p).link.rxNext =
        c.link.rxNext + if c.link.accepts p then 1 else 0 := by
  obtain ⟨waits, cases'⟩ := h5RxPkt_cases c.now linked.formed linked.active p
  have taken : (c.withLink (c.link.h5RxPkt c.now p).1).Linked :=
    ⟨linked.h5, waits.active linked.active, waits.formed⟩
  rcases cases' with ⟨accepts, payload, link, acked⟩ | ⟨refuses, payload, sent⟩
  · have run : c.h5RxPkt host p =
        (c.withLink (c.link.h5RxPkt c.now p).1).h5RxPayload host (H5Buf.payload p) := by
      rw [h5RxPkt_eq, payload]
    obtain ⟨linked', sent⟩ := linked_h5RxPayload host taken (H5Buf.payload p)
    have counted : c.link.Told (c.link.h5RxPkt c.now p).1
        (fun r => c.link.replies p = true ∧ c.link.rxNext = r) := by
      obtain ⟨new, out, numbers⟩ := acked.told
      exact ⟨new, by rw [link]; exact out, numbers⟩
    have number : (c.link.h5RxPkt c.now p).1.rxNext = c.link.rxNext + 1 := by
      rw [link, ← acked.1]
    have window : (c.link.h5RxPkt c.now p).1.unacked = (c.link.h5Acked c.now (ack p)).unacked := by
      rw [link]
    rw [run]
    refine ⟨linked', (counted.trans sent.told).iff fun r => ?_, ?_⟩
    · show _ ∨ (_ ∧ (c.link.h5RxPkt c.now p).1.rxNext = r) ↔ _
      simp only [pktTells, answers, accepts, withLink, number, window, Bool.or_eq_true,
        Bool.and_eq_true, decide_eq_true_eq, true_and]
      tauto
    · rw [sent.1, accepts, if_pos rfl]
      exact number
  · have run : c.h5RxPkt host p = c.withLink (c.link.h5RxPkt c.now p).1 := by
      rw [h5RxPkt_eq, payload]
    rw [run]
    refine ⟨taken, sent.told.iff fun r => ?_, ?_⟩
    · simp [pktTells, refuses]
    · rw [refuses]
      exact sent.1.trans (add_zero _).symm

/-! ## A call -/

def byteTells (c : Core) (r : Fin 8) (b : UInt8) : Bool :=
  match (c.rx.step b).2 with
  | some p => { c with rx := (c.rx.step b).1 }.pktTells host r p
  | none => false

/-- The byte completes a new reliable data packet. -/
def byteAccepts (c : Core) (b : UInt8) : Bool :=
  match (c.rx.step b).2 with
  | some p => c.link.accepts p
  | none => false

theorem told_h5Byte {c : Core} (linked : c.Linked) (b : UInt8) :
    (c.h5Byte host b).Linked ∧
      c.link.Told (c.h5Byte host b).link (fun r => c.byteTells host r b = true) ∧
      (c.h5Byte host b).link.rxNext = c.link.rxNext + if c.byteAccepts b then 1 else 0 := by
  unfold h5Byte byteTells byteAccepts
  dsimp only
  match (c.rx.step b).2 with
  | some p =>
    have taken : Core.Linked { c with rx := (c.rx.step b).1 } :=
      ⟨linked.h5, linked.active, linked.formed⟩
    exact told_h5RxPkt host taken p
  | none =>
    refine ⟨⟨linked.h5, linked.active, linked.formed⟩, ⟨[], (append_nil _).symm, ?_⟩, ?_⟩
    · simp
    · simp

/-- A call acknowledges this number: one of its bytes, in the state before it, makes the link
send it, or an acknowledgement of it is still owed at the end. -/
def tells (host : Host) (r : Fin 8) : Bytes → Core → Bool
  | [], c => c.link.needAck && c.link.rxNext = r
  | b :: rest, c => c.byteTells host r b || tells host r rest (c.h5Byte host b)

/-- How many new reliable data packets a call takes. -/
def accepted (host : Host) : Bytes → Core → Nat
  | [], _ => 0
  | b :: rest, c => (c.byteAccepts b).toNat + accepted host rest (c.h5Byte host b)

theorem told_pendingAck {c : Core} (linked : c.Linked) :
    c.link.Told c.pendingAck.link (fun r => (c.link.needAck && c.link.rxNext = r) = true) ∧
      c.pendingAck.link.rxNext = c.link.rxNext := by
  unfold pendingAck
  split
  · next owes =>
    have sent : c.link.Sends (c.link.h5SendAck c.now) True := by
      unfold h5SendAck
      rw [if_pos linked.active]
      exact (sends_h5SendPkt c.link c.now h5TypeAck false 0 (by simp)).congr rfl rfl
    exact ⟨sent.told.iff fun r => by simp [owes], sent.1⟩
  · next settled =>
    have silent : c.link.Sends c.link False := .nothing rfl rfl
    exact ⟨silent.told.iff fun r => by simp [settled], rfl⟩

theorem told_h5Input (data : Bytes) {c : Core} (linked : c.Linked) :
    c.link.Told (c.h5Input host data).pendingAck.link (fun r => tells host r data c = true) ∧
      (c.h5Input host data).pendingAck.link.rxNext =
        c.link.rxNext + Fin.ofNat 8 (accepted host data c) := by
  induction data generalizing c with
  | nil =>
    obtain ⟨told, number⟩ := told_pendingAck linked
    exact ⟨told, number.trans (add_zero _).symm⟩
  | cons b rest ih =>
    obtain ⟨linked', told, number⟩ := told_h5Byte host linked b
    obtain ⟨told', number'⟩ := ih linked'
    refine ⟨(told.trans told').iff fun r => ?_, ?_⟩
    · rw [tells, Bool.or_eq_true]
    · have later : ((b :: rest).foldl (h5Byte host) c).pendingAck.link.rxNext =
          (c.h5Byte host b).link.rxNext + Fin.ofNat 8 (accepted host rest (c.h5Byte host b)) :=
        number'
      show ((b :: rest).foldl (h5Byte host) c).pendingAck.link.rxNext = _
      rw [later, number, accepted]
      cases c.byteAccepts b
      · simp
      rw [if_pos rfl, add_assoc]
      congr 1
      ext
      simp [Fin.val_add]

end Core

/-- A call of `ios_bb_input` in H5 with an active link that takes new reliable data acknowledges
the last of it, exactly if what came in makes the modem send something with that number. -/
theorem accepted_packet_acknowledged_iff (c : Core) (linked : c.Linked)
    (data : Bytes) :
    (c.off = false ∧ 0 < Core.accepted host data c →
        ∃ wire ∈ (c.iosBbInput host data).link.out.drop c.link.out.length,
          wire.ack? = some (c.iosBbInput host data).link.rxNext) ↔
      (c.off = false ∧ 0 < Core.accepted host data c →
        Core.tells host (c.link.rxNext + Fin.ofNat 8 (Core.accepted host data c)) data c =
          true) := by
  refine imp_congr_right fun ⟨on, _⟩ => ?_
  have run : c.iosBbInput host data = (c.h5Input host data).pendingAck := by
    rw [iosBbInput_of_on host on]
    simp [modeInput, linked.h5]
  obtain ⟨⟨new, out, numbers⟩, number⟩ := told_h5Input host data linked
  rw [run, out, drop_left, number]
  exact numbers _

/-- In every run the queue holds whole records. -/
theorem formed_run (m : Modem) (events : List Event) :
    ((iosBbInit m).run host events).link.Formed := by
  obtain ⟨s, follows⟩ := follows_run host m events
  exact follows.formed

/-- The host configures the link. -/
def configured : Core :=
  (Core.iosBbInit {}).run bareHost
    [.input 0 (Wire.packet (h5Packet h5TypeLink false false 0 0 [0x03, 0xfc, 0x07])).bytes]

theorem linked_configured : configured.Linked :=
  ⟨by decide +kernel, by decide +kernel, formed_run _ _ _⟩

/-- A command in one packet is acknowledged with its answer. -/
theorem command_packet_acknowledged :
    ∃ wire ∈ (configured.iosBbInput bareHost
        (Wire.packet (h5Packet h5TypeData true false 0 0 (ascii "AT\r"))).bytes).link.out.drop
          configured.link.out.length,
      wire.ack? = some (configured.iosBbInput bareHost
        (Wire.packet (h5Packet h5TypeData true false 0 0 (ascii "AT\r"))).bytes).link.rxNext :=
  (accepted_packet_acknowledged_iff _ configured linked_configured _).mpr
    (fun _ => by decide +kernel) (by decide +kernel)

/-- Half a command is accepted, and nothing that goes out acknowledges it. -/
theorem half_command_not_acknowledged :
    0 < Core.accepted bareHost
        (Wire.packet (h5Packet h5TypeData true false 0 0 (ascii "A"))).bytes configured ∧
      ¬ ∃ wire ∈ (configured.iosBbInput bareHost
          (Wire.packet (h5Packet h5TypeData true false 0 0 (ascii "A"))).bytes).link.out.drop
            configured.link.out.length,
        wire.ack? = some (configured.iosBbInput bareHost
          (Wire.packet (h5Packet h5TypeData true false 0 0 (ascii "A"))).bytes).link.rxNext := by
  decide +kernel

end QemuIos.Baseband

import QemuIos.Baseband.Proofs.Snapshot

/-!
# A restored device goes on as the core does

`Restored` runs the transport on whatever a snapshot may bring, with a check at every copy. On a
state that the core itself can be in, each of its functions gives what the core's function of the
same name makes of it, so a whole run does.
-/

namespace QemuIos.Baseband
open CText Baseband.Core

/-- The core with another link as a restored device; what was sent went through the framing. -/
def Core.linked (ifx : Option Ifx) (c : Core) (l : Link) : Restored Modem where
  engine := c.modem
  off := c.off
  h5 := c.h5
  active := l.active
  crc := l.crc
  rx := c.rx
  txSeq := UInt8.ofNat l.txSeq
  rxNext := UInt8.ofNat l.rxNext
  needAck := l.needAck
  unacked := l.unacked.map fun p => (UInt8.ofNat p.seq, p.data)
  lastTxMs := l.lastTxMs
  txq := l.txq
  mux := c.mux
  muxLeave := c.muxLeave
  muxLost := false
  muxrx := c.muxrx
  ipRx := c.ipRx
  ifx := ifx.map fun x => l.out.foldl (fun x wire => x.queue wire.bytes) x

def Core.restored (ifx : Option Ifx) (c : Core) : Restored Modem := c.linked ifx c.link

def Event.later : Event → Restored.Later HostEvent
  | .input now bytes => .input now bytes
  | .tick now => .tick now
  | .call number => .event (.call number)
  | .sms number text => .event (.sms number text)
  | .data packet => .data packet
  | .remoteAnswer => .event .remoteAnswer
  | .remoteHangup => .event .remoteHangup
  | .control change => .event (.control change)

namespace Restored

/-! ## Sequence numbers -/

theorem next_seq (seq : Fin 8) : (UInt8.ofNat seq + 1) &&& 7 = UInt8.ofNat (seq + 1 : Fin 8) := by
  decide +revert

theorem seq_sub (a b : Fin 8) : ((UInt8.ofNat a - UInt8.ofNat b) &&& 7).toNat = (a - b).val := by
  decide +revert

theorem seq_inj {a b : Fin 8} : UInt8.ofNat a = UInt8.ofNat b ↔ a = b := by
  decide +revert

theorem low_bits (x : UInt8) : x &&& 7 = UInt8.ofNat (Fin.ofNat 8 x.toNat) := by
  rw [← UInt8.toNat_inj]
  simp [Nat.and_two_pow_sub_one_eq_mod x.toNat 3]
  omega

theorem high_bits (x : UInt8) : x >>> 3 &&& 7 = UInt8.ofNat (Fin.ofNat 8 (x.toNat / 8)) := by
  rw [low_bits, UInt8.toNat_shiftRight]
  simp [Nat.shiftRight_eq_div_pow]

variable {host : Host} {ifx : Option Ifx} {c : Core} {l : Link} {s : Restored Modem}

/-! ## The link -/

theorem out_linked (wire : Wire) :
    (c.linked ifx l).out wire.bytes = c.linked ifx (l.emit wire) := by
  simp [out, linked, Link.emit, Function.comp_def]

theorem h5SendPkt_linked (same : s = c.linked ifx l) (type : Fin 16) (reliable : Bool) (seq : Fin 8)
    (data : Bytes) : s.h5SendPkt (modemEngine host) type reliable (UInt8.ofNat seq) data =
      c.linked ifx (l.h5SendPkt c.now type reliable seq data) := by
  subst same
  unfold h5SendPkt Link.h5SendPkt
  split
  · rfl
  · have sent : (c.linked ifx l).out _ = _ := out_linked
      (.packet (h5Packet type reliable (l.crc && type ≠ h5TypeLink) seq l.rxNext data))
    exact congrArg (fun s : Restored Modem => { s with needAck := false, lastTxMs := c.now }) sent

theorem h5SendAck_linked :
    (c.linked ifx l).h5SendAck (modemEngine host) = c.linked ifx (l.h5SendAck c.now) := by
  unfold h5SendAck Link.h5SendAck
  rw [show (c.linked ifx l).active = l.active from rfl]
  split
  · exact congrArg (fun s : Restored Modem => { s with needAck := false })
      (h5SendPkt_linked rfl h5TypeAck false 0 [])
  · rfl

theorem h5Retransmit_linked :
    (c.linked ifx l).h5Retransmit (modemEngine host) = c.linked ifx (l.h5Retransmit c.now) := by
  show List.foldl _ _ (List.map _ _) = _
  rw [List.foldl_map]
  exact List.foldl_hom (c.linked ifx) fun l p => h5SendPkt_linked rfl h5TypeData true p.seq p.data

theorem gives_copyTo (cap : Nat) (dest : Overrun) (held data : Bytes) :
    Gives (held ++ data) (copyTo cap dest held data) := by
  unfold copyTo
  split
  · exact .ok
  · exact .error _

theorem gives_h5Queue (data : Bytes) :
    Gives (c.linked ifx (l.h5Queue data)) ((c.linked ifx l).h5Queue data) :=
  .ite (fun _ => .ok) fun _ => (gives_copyTo _ _ _ _).bind ((gives_copyTo _ _ _ _).bind .ok)

theorem gives_h5SendOneUnacked (data : Bytes) :
    Gives (c.linked ifx (l.h5SendOneUnacked c.now data))
      ((c.linked ifx l).h5SendOneUnacked (modemEngine host) data) := by
  unfold h5SendOneUnacked
  split
  · exact .error _
  refine (gives_copyTo _ _ _ _).bind (.of_eq ?_)
  have kept : { c.linked ifx l with
      unacked := (c.linked ifx l).unacked ++ [(UInt8.ofNat l.txSeq, [] ++ data)] } =
      c.linked ifx { l with unacked := l.unacked ++ [H5Pkt.mk l.txSeq data] } := by
    simp [linked]
  refine (congrArg (fun s : Restored Modem => { s with txSeq := (UInt8.ofNat l.txSeq + 1) &&& 7 })
    (h5SendPkt_linked kept h5TypeData true l.txSeq data)).trans ?_
  rw [next_seq]
  rfl

theorem h5SendOneUnacked_txq (now : Int) (data txq : Bytes) :
    { l.h5SendOneUnacked now data with txq } = { l with txq }.h5SendOneUnacked now data := by
  unfold Link.h5SendOneUnacked Link.h5SendPkt
  dsimp only
  split
  · rfl
  · rfl

theorem gives_h5PumpFrom (left : Nat) :
    Gives (c.linked ifx (Link.h5PumpFrom c.now left l))
      (h5PumpFrom (modemEngine host) left (c.linked ifx l)) := by
  induction left generalizing l with
  | zero => exact .ok
  | succ left ih =>
    unfold h5PumpFrom Link.h5PumpFrom
    rw [show (c.linked ifx l).txq = l.txq from rfl]
    rcases l.txq with _ | ⟨lo, _ | ⟨hi, rest⟩⟩
    · exact .ok
    · exact .ok
    · refine .ite (fun _ => .ok) fun _ => (gives_h5SendOneUnacked _).bind ?_
      rw [← h5SendOneUnacked_txq]
      exact ih

theorem gives_h5Pump (same : s = c.linked ifx l) :
    Gives (c.linked ifx (l.h5Pump c.now)) (s.h5Pump (modemEngine host)) := by
  subst same
  refine .ite (fun _ => ?_) fun _ => .ok
  rw [show (c.linked ifx l).unacked.length = l.unacked.length from List.length_map _]
  exact gives_h5PumpFrom _

theorem gives_h5Acked (ack : Fin 8) : Gives (c.linked ifx (l.h5Acked c.now ack))
    ((c.linked ifx l).h5Acked (modemEngine host) (UInt8.ofNat ack)) := by
  unfold h5Acked Link.h5Acked
  rw [show (c.linked ifx l).unacked = l.unacked.map fun p => (UInt8.ofNat p.seq, p.data) from rfl]
  cases l.unacked with
  | nil => exact .ok
  | cons first rest =>
    set window := first :: rest
    show Gives _ (if ((UInt8.ofNat ack - UInt8.ofNat first.seq) &&& 7).toNat ≤ (window.map _).length
      then h5Pump _ { c.linked ifx l with unacked := (window.map _).drop _ } else _)
    rw [seq_sub, List.length_map, ← List.map_drop]
    exact .ite (fun _ => gives_h5Pump rfl) fun _ => .ok

theorem gives_h5LinkControl (p : H5Buf) : Gives (c.linked ifx (l.h5LinkControl c.now p))
    ((c.linked ifx l).h5LinkControl (modemEngine host) p) := by
  refine .ite (fun _ => .of_eq (h5SendPkt_linked rfl h5TypeLink false 0 _)) fun _ =>
    .ite (fun _ => gives_h5Pump ?_) fun _ => .ok
  exact congrArg (fun s : Restored Modem => { s with active := true })
    (h5SendPkt_linked (l := { l with crc := _ }) rfl h5TypeLink false 0 _)

/-! ## Output -/

variable (c)

/-- A function of the device gives what a function of the core makes of the same state. -/
abbrev Follows (host : Host) (ifx : Option Ifx) (c : Core) (g : Core → Core)
    (f : Engine Modem HostEvent → Restored Modem → Checked (Restored Modem)) : Prop :=
  Gives ((g c).restored ifx) (f (modemEngine host) (c.restored ifx))

theorem follows_h5Stream (data : Bytes) :
    Follows host ifx c (·.h5Stream data) (h5Stream · · data) :=
  .ite (fun _ => .ok) fun _ => .ite (fun _ => .of_eq (out_linked (.raw data))) fun _ =>
    .ite (fun _ => gives_h5Queue data) fun _ => (gives_h5Queue data).bind (gives_h5Pump rfl)

theorem follows_act (act : Act) : Follows host ifx c (·.runAct act) (Restored.act · · act) := by
  cases act with
  | write ch text => exact .ite (fun _ => follows_h5Stream c _) fun _ => follows_h5Stream c _
  | msc dlci dv => exact follows_h5Stream c _
  | _ => exact .ok

theorem follows_runOut (o : Out) : Follows host ifx c (·.runOut o) (runOut · · o) := by
  unfold runOut
  dsimp only [Follows]
  split
  · exact .foldlM follows_act { c with modem := o.1 } o.2
  · exact .error _

/-! ## Channels -/

theorem gives_dataChanFrom (fuel : Nat) (data : Bytes) :
    Gives ((Core.dataChanFrom fuel c data).restored ifx)
      (dataChanFrom fuel (c.restored ifx) data) := by
  induction fuel generalizing c data with
  | zero => exact .ok
  | succ fuel ih => exact .ite (fun _ => .ok) fun _ => (gives_copyTo _ _ _ _).bind (ih _ _)

theorem follows_atBytes (ch : Nat) (fromMux zeroed : Bool) (data : Bytes) :
    Follows host ifx c (Core.atBytes host ch fromMux zeroed data ·)
      (atBytes · ch fromMux zeroed data ·) := by
  induction data generalizing zeroed c with
  | nil => exact .ok
  | cons b rest ih => exact (follows_runOut c _).bind (ih _ _)

theorem follows_atChanInput (ch : Nat) (fromMux : Bool) (data : Bytes) :
    Follows host ifx c (·.atChanInput host ch fromMux data)
      (atChanInput · · ch fromMux data) := by
  dsimp only [Follows, atChanInput]
  split
  · exact .error _
  · exact .ite (fun _ => gives_dataChanFrom c _ data)
      fun _ => follows_atBytes c ch fromMux false data

/-! ## The multiplexer -/

theorem follows_mxControl (data : Bytes) :
    Follows host ifx c (·.mxControl data) (mxControl · · data) := by
  rcases data with _ | ⟨type, _ | ⟨len, rest⟩⟩
  · exact .ok
  · exact .ok
  · have noted : (c.restored ifx).noteClose type = (c.noteClose type).restored ifx := by
      unfold noteClose Core.noteClose
      split
      · rfl
      · rfl
    refine .ite (fun _ => .ok) fun _ => ?_
    rw [noted]
    exact (follows_h5Stream _ _).bind (.ite (fun _ => follows_h5Stream _ _) fun _ => .ok)

variable {c} in
theorem modem_restored {p : Prop} [Decidable p] (m : Modem) :
    { c.restored ifx with engine := if p then m else c.modem } =
      (if p then { c with modem := m } else c).restored ifx := by
  split
  · rfl
  · rfl

variable {c} in
theorem follows_mxSendFrameCanned (same : s = c.restored ifx) (dlci : Nat) (ctrl : UInt8) :
    Gives ((c.mxSendFrameCanned dlci ctrl).restored ifx)
      (s.mxSendFrameCanned (modemEngine host) dlci ctrl) :=
  same ▸ follows_h5Stream c _

theorem follows_mxRxFrame (addr ctrl : UInt8) (data : Bytes) :
    Follows host ifx c (·.mxRxFrame host addr ctrl data) (mxRxFrame · · addr ctrl data) := by
  refine .ite (fun _ => ?_) fun _ => .ite (fun _ => ?_) fun _ => .ite (fun _ => ?_) fun _ => .ok
  · refine (follows_mxSendFrameCanned (modem_restored _) _ _).bind (.of_eq ?_)
    exact modem_restored _
  · exact follows_mxSendFrameCanned (modem_restored _) _ _
  · refine .ite (fun _ => follows_mxControl c data) fun _ => .ite (fun _ => .ok) fun _ => ?_
    exact .ite (fun _ => follows_atChanInput c _ true data) fun _ => follows_h5Stream c _

theorem follows_mxEvent (event : Option MuxEvent) :
    Follows host ifx c (·.mxEvent host event) (mxEvent · · event) := by
  rcases event with _ | _ | _
  · exact .ok
  · exact follows_h5Stream c _
  · exact follows_mxRxFrame c _ _ _

theorem follows_mxByte (b : UInt8) : Follows host ifx c (·.mxByte host b) (mxByte · · b) :=
  (follows_mxEvent { c with muxrx := (c.muxrx.step b).1 } _).bind (.ok_ite rfl rfl)

/-! ## Input -/

theorem follows_h5RxPayload (data : Bytes) :
    Follows host ifx c (·.h5RxPayload host data) (h5RxPayload · · data) :=
  .ite (fun _ => .foldlM follows_mxByte c data) fun _ => follows_atChanInput c 0 false data

/-- The link after a packet, and its payload to the core. -/
def received (host : Host) (ifx : Option Ifx) (r : Link × Option Bytes) : Restored Modem :=
  Core.restored ifx <| match r.2 with
    | some data => { c with link := r.1 }.h5RxPayload host data
    | none => { c with link := r.1 }

theorem follows_h5RxPkt (p : H5Buf) :
    Follows host ifx c (·.h5RxPkt host p) (h5RxPkt · · p) := by
  show Gives (received c host ifx (c.link.h5RxPkt c.now p)) _
  refine .ite (fun _ => ?_) fun _ => .ok
  rw [high_bits]
  refine (gives_h5Acked (H5Buf.ack p)).bind ?_
  generalize c.link.h5Acked c.now (H5Buf.ack p) = l
  refine .ite (fun _ => gives_h5LinkControl p) fun _ => .ite (fun _ => .ok) fun _ => ?_
  refine .ite (fun _ => .ok) fun _ => ?_
  rw [show p.data 0 &&& 7 = UInt8.ofNat (H5Buf.seq p) from low_bits _, next_seq]
  have same : UInt8.ofNat (H5Buf.seq p) = (c.linked ifx l).rxNext ↔ H5Buf.seq p = l.rxNext :=
    seq_inj
  by_cases next : H5Buf.seq p = l.rxNext
  · rw [if_pos next, if_pos (same.mpr next), next]
    exact follows_h5RxPayload { c with link := { l with rxNext := _ } } _
  · rw [if_neg next, if_neg (same.not.mpr next)]
    exact .ok

theorem follows_h5Byte (b : UInt8) : Follows host ifx c (·.h5Byte host b) (h5Byte · · b) := by
  unfold h5Byte Core.h5Byte
  dsimp only [Follows]
  rw [show (c.restored ifx).rx = c.rx from rfl]
  rcases c.rx.step b with ⟨rx, _ | p⟩
  · exact .ok
  · exact follows_h5RxPkt { c with rx } p

theorem follows_rawFrames (frames : Bytes) : Follows host ifx c
    (fun c => if frames = [] then c else { c with h5 := true }.h5Input host frames)
    (rawFrames · · frames) :=
  .ite (fun _ => .ok) fun _ => .foldlM follows_h5Byte { c with h5 := true } frames

theorem follows_rawInput (data : Bytes) :
    Follows host ifx c (·.rawInput host data) (rawInput · · data) :=
  Gives.bind (.ite (fun _ => .ok) fun _ => follows_atChanInput c 0 false _) (follows_rawFrames _ _)

theorem follows_iosBbInput (data : Bytes) :
    Follows host ifx c (·.iosBbInput host data) (iosBbInput · · data) :=
  .ite (fun _ => .ok) fun _ => Gives.bind (.ite (fun _ => .foldlM follows_mxByte c data)
    fun _ => .ite (fun _ => follows_rawInput c data) fun _ => .foldlM follows_h5Byte c data)
    (.ok_ite h5SendAck_linked rfl)

theorem follows_iosBbDataInput (pkt : Bytes) :
    Follows host ifx c (·.iosBbDataInput pkt) (iosBbDataInput · · pkt) := by
  have carries : (fun i => (modemEngine host).isOpen (c.restored ifx).engine i &&
      (modemEngine host).dataCid (c.restored ifx).engine i ≠ 0) =
      fun i => (c.modem.chans i).isOpen && (c.modem.chans i).dataCid ≠ 0 := rfl
  unfold iosBbDataInput Core.iosBbDataInput
  dsimp only [Follows]
  rw [carries]
  rcases List.find? _ _ with _ | i
  · exact .ok
  · exact .foldlM (fun c k => follows_h5Stream c (mxEncode (mxFrame (mxAddr i false) mxUih
      ((pkt.drop (k * 1500)).take 1500)))) c _

theorem retransmit_restored :
    (c.restored ifx).retransmit (modemEngine host) = c.retransmit.restored ifx := by
  have waiting : (c.restored ifx).unacked ≠ [] ↔ c.link.unacked ≠ [] := List.map_eq_nil_iff.not
  have since : (modemEngine host).now (c.restored ifx).engine - (c.restored ifx).lastTxMs =
      c.now - c.link.lastTxMs := rfl
  unfold retransmit Core.retransmit
  simp only [waiting, since]
  split
  · exact congrArg (fun s : Restored Modem => { s with lastTxMs := c.now }) h5Retransmit_linked
  · rfl

/-- The engine's part of a tick is any. -/
theorem follows_ticked (o : Out) : Follows host ifx c
    (fun c => (c.runOut o).retransmit.runOut (gpsPoll host (c.runOut o).retransmit.modem))
    (fun engine s => do
      let s ← s.runOut engine o
      let s := s.retransmit engine
      s.runOut engine (engine.gps s.engine)) := by
  refine (follows_runOut c o).bind ?_
  rw [retransmit_restored]
  exact follows_runOut _ _

theorem follows_iosBbTick (now : Int) :
    Follows host ifx c (·.iosBbTick host now) (iosBbTick · · now) := by
  let c' : Core := { c with modem := { c.modem with nowMs := now } }
  exact .ite (fun _ => .ok) fun _ => follows_ticked c' (modemTick host c'.modem)

theorem follows_attempt (o : Option Out) :
    Follows host ifx c (·.attempt o) (runOut · · (o.getD (c.modem, []))) := by
  cases o with
  | none => exact follows_runOut c (c.modem, [])
  | some o => exact follows_runOut c o

theorem follows_handle (e : Event) : Follows host ifx c (·.handle host e) (handle · · e.later) := by
  cases e with
  | input now => exact follows_iosBbInput { c with modem := { c.modem with nowMs := now } } _
  | tick => exact follows_iosBbTick c _
  | call | sms | control => exact follows_attempt c _
  | data => exact follows_iosBbDataInput c _
  | remoteAnswer | remoteHangup => exact follows_runOut c _

end Restored

theorem Core.iosBbReset_restored (host : Host) (c : Core) :
    (c.restored none).iosBbReset (modemEngine host) = c.iosBbReset.restored none := rfl

/-- A device that is restored in a state of the core goes on as the core does. -/
theorem Core.run_restored {host : Host} {ifx : Option Ifx} {c : Core}
    (inv : (c.restored ifx).Inv (modemEngine host)) (events : List Event) :
    (c.restored ifx).run (modemEngine host) (events.map Event.later) =
      .ok ((c.run host events).restored ifx) := by
  have ends := Restored.ends_run (lawful_modemEngine host) (.inl inv) (events.map Event.later)
  refine Gives.of_ends ?_ ends
  unfold Restored.run
  rw [List.foldlM_map]
  exact .foldlM Restored.follows_handle c events

example (host : Host) (events : List Event) :
    (({} : Core).restored none).run (modemEngine host) (events.map Event.later) =
      .ok ((({} : Core).run host events).restored none) := by
  have channels : (modemEngine host).ChannelsOk {} := by
    rw [channelsOk_modem]
    unfold Channels
    decide
  exact run_restored ⟨⟨channels, by decide, by decide, by decide⟩, [], by decide, rfl⟩ events

end QemuIos.Baseband

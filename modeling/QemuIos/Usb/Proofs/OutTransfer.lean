import QemuIos.Usb.Proofs.InTransfer

/-!
# OUT transfers

An armed OUT transfer takes the host's transactions one behind the other, and completes with a short
packet or when its size or its packets run out. A bus event that comes with an endpoint's address
gets to the endpoint as well.
-/

namespace QemuIos.Usb
open QemuIos.Field List Nat

/-- The endpoint's largest packet. -/
def Ep.mps (e : Ep) : Nat := (e.control &&& epconMpsMask).toNat

namespace Otg

variable {s₀ : Otg} {c : Nat}

/-- An OUT request on an endpoint. -/
def Transaction.isOut (q : Transaction) (ep : Nat) : Bool :=
  !q.header.dirIn && q.header.number == ep

/-- The bytes an endpoint has taken, by the counts of its answers. -/
def accepted (ep : Nat) : Otg → List Transaction → Nat
  | _, [] => 0
  | s, q :: rest =>
    let r := s.serve q
    (if q.isOut ep then r.ret.toNat else 0) + accepted ep r.device rest

variable {s t : Otg} {ep len : Nat} {h : Header} {b : Mem}

/-- A transaction of whole packets short of the transfer's size and its packet count. -/
def GoesOn (e : Ep) (amt : Nat) : Prop :=
  e.mps ≠ 0 ∧ amt ≠ 0 ∧ amt % e.mps = 0 ∧ amt < e.armed ∧ amt / e.mps < e.pktcnt.toNat

/-- What an OUT into an armed bulk transfer makes of its endpoint. -/
structure EpMoved (e : Ep) (amt : Nat) (e' : Ep) : Prop where
  armed : e'.armed = e.armed - amt
  dmaAddress : e.dmaAddress ≠ 0 → e'.dmaAddress = e.dmaAddress + UInt64.ofNat amt
  stall : e'.is epconStall = e.is epconStall
  mps : e'.mps = e.mps
  goesOn : GoesOn e amt → e'.is epconEnable = true ∧ e'.interruptStatus = e.interruptStatus ∧
    e'.pktcnt = e.pktcnt - UInt32.ofNat (amt / e.mps)
  ends : ¬ GoesOn e amt → e'.is epconEnable = false ∧ e'.interruptStatus &&& epintXferCompl ≠ 0

/-- What it leaves. -/
structure OutMoved (s : Otg) (ep amt : Nat) (b : Mem) (r : Reply Otg) : Prop extends
    EpMoved (s.outEps ep) amt (r.device.outEps ep) where
  ret : r.ret = amt
  mem : r.device.mem = if 0 < amt ∧ (s.outEps ep).dmaAddress ≠ 0
    then s.mem.blit (s.outEps ep).dmaAddress.toNat amt b else s.mem

/-- The end of a transfer leaves its endpoint as it was disabled. -/
theorem outEnd_spec {sz amt : Nat} {e : Ep} (setup : Bool) (small : sz - amt < 2 ^ 17) :
    let e' := (s.outEnd ep sz amt setup e).outEps ep
    e'.armed = sz - amt ∧ e'.is epconEnable = e.is epconEnable ∧ e'.dmaAddress = e.dmaAddress ∧
      (setup = false → e'.control = e.control ∧
        e'.interruptStatus = e.interruptStatus ||| epintXferCompl) := by
  unfold outEnd
  extract_lets mps pkts e₁ zero inEps e₂ e₃ used e₄ e'
  have here : e' = e₄ := Function.update_self ..
  have same : e₂.is epconEnable = e.is epconEnable ∧ e₂.dmaAddress = e.dmaAddress ∧
      (setup = false → e₂.control = e.control ∧
        e₂.interruptStatus = e.interruptStatus ||| epintXferCompl) := by
    unfold e₂ e₁
    cases setup with
    | false => exact ⟨rfl, rfl, fun _ => ⟨rfl, rfl⟩⟩
    | true =>
      split
      · exact ⟨Ep.is_clear _ (by decide), rfl, nofun⟩
      · exact ⟨rfl, rfl, nofun⟩
  have armed : e₃.armed = sz - amt := e₂.armed_setArmed small
  have left : pkts - UInt32.ofNat used ≤ pktcntMask := by
    have le : UInt32.ofNat used ≤ pkts := by
      rw [UInt32.le_iff_toNat_le, UInt32.toNat_ofNat']
      exact le_trans (mod_le _ _) (min_le_left _ _)
    exact UInt32.le_trans (UInt32.sub_le le) e.pktcnt_le
  rw [here]
  unfold e₄
  split
  · exact ⟨(e₃.armed_setPktcnt left).trans armed, same⟩
  · exact ⟨armed, same⟩

theorem outTransfer_moved (bulk : ep ≠ 0) (plain : h.flags &&& tcpUsbSetup = 0) :
    OutMoved s ep (min (s.outEps ep).armed len) b (s.outTransfer ep len h b) := by
  unfold outTransfer
  extract_lets e setup sz amt wrote t e₁ mps pkts e₂ e₃
  have noSetup : setup = false := by simp only [setup, plain, bne_self_eq_false]
  have small : sz - amt < 2 ^ 17 := lt_of_le_of_lt (sub_le _ _) e.armed_lt
  have packet : mps = (s.outEps ep).mps := by
    have same : e₁.control = e.control := by
      unfold e₁
      split
      · rfl
      · rfl
    simp only [mps, same, e, Ep.clear,
      and_clear_of_apart _ (by decide : epconEnable &&& epconMpsMask = 0)]
    rfl
  have taken : e₁.control = (s.outEps ep).control &&& ~~~epconEnable ∧
      e₁.interruptStatus = (s.outEps ep).interruptStatus ∧ e₁.pktcnt = (s.outEps ep).pktcnt ∧
      ((s.outEps ep).dmaAddress ≠ 0 →
        e₁.dmaAddress = (s.outEps ep).dmaAddress + UInt64.ofNat amt) := by
    unfold e₁
    split
    · exact ⟨rfl, rfl, rfl, fun _ => rfl⟩
    rename_i nothing
    refine ⟨rfl, rfl, rfl, fun addressed => ?_⟩
    have zero : amt = 0 := by
      by_contra more
      exact nothing (decide_eq_true ⟨pos_of_ne_zero more, addressed⟩)
    rw [zero]
    exact (UInt64.add_zero _).symm
  obtain ⟨control, status, count, address⟩ := taken
  have count : pkts = (s.outEps ep).pktcnt := count
  have stored : t.mem = if 0 < amt ∧ (s.outEps ep).dmaAddress ≠ 0
      then s.mem.blit (s.outEps ep).dmaAddress.toNat amt b else s.mem := by
    simp only [t, wrote, decide_eq_true_eq]
    split
    · next stores => exact (if_pos stores).symm
    · next skips => exact (if_neg skips).symm
  have condition : (ep ≠ 0 ∧ ¬ setup = true ∧ mps ≠ 0 ∧ amt ≠ 0 ∧ amt % mps = 0 ∧ amt < sz ∧
      amt / mps < pkts.toNat) ↔ GoesOn (s.outEps ep) amt := by
    rw [packet, count]
    simp only [noSetup, Bool.false_eq_true, not_false_eq_true, bulk, ne_eq, true_and]
    rfl
  by_cases on : GoesOn (s.outEps ep) amt
  · rw [if_pos (condition.mpr on)]
    have quiet := quiet_updateIrq { t with outEps := Function.update t.outEps ep e₃ }
    have here : (updateIrq { t with outEps := Function.update t.outEps ep e₃ }).outEps ep = e₃ := by
      rw [quiet.outEps]
      exact Function.update_self ..
    have fewer := on.2.2.2.2
    have le : UInt32.ofNat (amt / mps) ≤ pkts := by
      rw [UInt32.le_iff_toNat_le, UInt32.toNat_ofNat', packet, count]
      exact le_trans (mod_le _ _) (le_of_lt fewer)
    have left : pkts - UInt32.ofNat (amt / mps) ≤ pktcntMask :=
      UInt32.le_trans (UInt32.sub_le le) e₁.pktcnt_le
    refine ⟨⟨?_, ?_, ?_, ?_, fun _ => ⟨?_, ?_, ?_⟩, fun not => absurd on not⟩, rfl,
      quiet.mem.trans stored⟩
    all_goals dsimp only
    all_goals rw [here]
    · exact (Ep.armed_setPktcnt _ left).trans (e₂.armed_setArmed small)
    · exact address
    · change ((e₁.control ||| epconEnable) &&& epconStall != 0) = _
      rw [control, and_set_of_apart _ (by decide), and_clear_of_apart _ (by decide)]
      rfl
    · change ((e₁.control ||| epconEnable) &&& epconMpsMask).toNat = _
      rw [control, and_set_of_apart _ (by decide), and_clear_of_apart _ (by decide)]
      rfl
    · change ((e₁.control ||| epconEnable) &&& epconEnable != 0) = true
      rw [and_set]
      decide
    · exact status
    · rw [← packet, ← count]
      exact Ep.pktcnt_setPktcnt _ left
  · rw [if_neg (mt condition.mp on), noSetup]
    have quiet := quiet_updateIrq (t.outEnd ep sz amt false e₁)
    obtain ⟨armed', _, address', rest⟩ :
        ((t.outEnd ep sz amt false e₁).outEps ep).armed = _ ∧ _ ∧ _ ∧ _ := outEnd_spec false small
    obtain ⟨control', status'⟩ := rest rfl
    have same : (t.outEnd ep sz amt false e₁).mem = t.mem := rfl
    refine ⟨⟨?_, ?_, ?_, ?_, fun yes => absurd yes on, fun _ => ⟨?_, ?_⟩⟩, rfl,
      (quiet.mem.trans same).trans stored⟩
    all_goals dsimp only
    all_goals rw [quiet.outEps]
    · exact armed'
    · intro addressed
      rw [address']
      exact address addressed
    · rw [Ep.is, control', control, and_clear_of_apart _ (by decide)]
      rfl
    · rw [Ep.mps, control', control, and_clear_of_apart _ (by decide)]
      rfl
    · rw [Ep.is, control', control, and_clear]
      rfl
    · rw [status', and_set]
      decide

/-- A request is an OUT token for the endpoint, or leaves it alone. -/
theorem serve_out (s : Otg) (ep : Nat) (q : Transaction) :
    (q.isOut ep = true ∧ ∃ t h', Quiet s t ∧ h'.flags = q.header.flags ∧
      s.serve q = t.outToken ep q.header.payloadLen h' q.buffer) ∨
    ((s.serve q).device.outEps ep = s.outEps ep ∧
      (q.isOut ep = true → ¬ Reaches s q.header q.buffer ∧
        (ep < usbNumEndpoints → (s.serve q).ret ≤ 0))) := by
  have how := s.serve_served q
  generalize s.serve q = r at how
  cases how with
  | aside _ quiet not empty =>
    refine .inr ⟨congrFun quiet.outEps ep, fun asked => ⟨not, ?_⟩⟩
    simp only [Transaction.isOut, Bool.and_eq_true, beq_iff_eq] at asked
    rw [← asked.2]
    exact empty
  | inward t h' quiet _ dir =>
    have touched := inToken_touched t q.header.number q.header.payloadLen h' q.buffer
    refine .inr ⟨?_, fun asked => ?_⟩
    · rw [touched.outEps, quiet.outEps]
    · simp [Transaction.isOut, dir] at asked
  | outward t h' quiet _ dir flags =>
    by_cases mine : q.header.number = ep
    · refine .inl ⟨?_, t, h', quiet, flags, by rw [mine]⟩
      simp only [Transaction.isOut, dir, mine, beq_self_eq_true, Bool.not_false, Bool.and_self]
    have touched := outToken_touched t q.header.number q.header.payloadLen h' q.buffer
    refine .inr ⟨?_, fun asked => ?_⟩
    · rw [touched.others ep (Ne.symm mine), quiet.outEps]
    · simp [Transaction.isOut, mine] at asked

/-- An endpoint `c` bytes into the transfer that was armed as `e₀`. -/
structure Taken (e₀ : Ep) (c : Nat) (e : Ep) : Prop where
  packets : c % e₀.mps = 0
  short : c = 0 ∨ c < e₀.armed ∧ c / e₀.mps < e₀.pktcnt.toNat
  armed : e.armed = e₀.armed - c
  pktcnt : e.pktcnt.toNat = e₀.pktcnt.toNat - c / e₀.mps
  dmaAddress : e.dmaAddress.toNat = e₀.dmaAddress.toNat + c
  stall : e.is epconStall = false
  enable : e.is epconEnable = true
  complete : e.interruptStatus &&& epintXferCompl = 0
  mps : e.mps = e₀.mps

/-- A transaction of `len` bytes that ends the transfer after `c` bytes: not a positive multiple of
the packet size, or as much as the size or the packet count has left. -/
def Ends (s₀ : Otg) (ep c len : Nat) : Prop :=
  len = 0 ∨ len % (s₀.outEps ep).mps ≠ 0 ∨ (s₀.outEps ep).armed - c ≤ len ∨
    (s₀.outEps ep).pktcnt.toNat - c / (s₀.outEps ep).mps ≤ len / (s₀.outEps ep).mps

/-- A transaction that goes on leaves the endpoint so many bytes further. -/
theorem Taken.next {e₀ e e' : Ep} {n : Nat} (taken : Taken e₀ c e) (moved : EpMoved e n e')
    (on : GoesOn e n) (addressed : e.dmaAddress ≠ 0) (low : e₀.dmaAddress.toNat < 2 ^ 32) :
    Taken e₀ (c + n) e' := by
  have going := moved.goesOn on
  obtain ⟨_, _, whole, less, fewer⟩ := on
  rw [taken.mps] at whole fewer going
  rw [taken.armed] at less
  rw [taken.pktcnt] at fewer
  have fits : c / e₀.mps + n / e₀.mps < e₀.pktcnt.toNat := by
    generalize n / e₀.mps = i at fewer
    omega
  have packets : (c + n) / e₀.mps = c / e₀.mps + n / e₀.mps :=
    Nat.add_div_of_dvd_right (Nat.dvd_of_mod_eq_zero taken.packets)
  refine ⟨?_, .inr ⟨by omega, by rw [packets]; exact fits⟩, ?_, ?_, ?_,
    moved.stall.trans taken.stall,
    going.1, by rw [going.2.1]; exact taken.complete, moved.mps.trans taken.mps⟩
  · rw [Nat.add_mod, taken.packets, whole]
    rfl
  · rw [moved.armed, taken.armed, Nat.sub_sub]
  · have small : n / e₀.mps < 2 ^ 32 := by
      have := e₀.pktcnt.toNat_lt
      exact lt_of_le_of_lt (le_trans (le_add_left _ _) (le_of_lt fits)) this
    have count : (UInt32.ofNat (n / e₀.mps)).toNat = n / e₀.mps := by
      rw [UInt32.toNat_ofNat', mod_eq_of_lt small]
    have le : UInt32.ofNat (n / e₀.mps) ≤ e.pktcnt := by
      rw [UInt32.le_iff_toNat_le, count, taken.pktcnt]
      omega
    rw [going.2.2, UInt32.toNat_sub_of_le _ _ le, count, taken.pktcnt, packets, Nat.sub_sub]
  · have small := e₀.armed_lt
    rw [moved.dmaAddress addressed, UInt64.toNat_add, taken.dmaAddress, UInt64.toNat_ofNat']
    omega

theorem Taken.goesOn {e : Ep} (packet : 0 < (s₀.outEps ep).mps) (taken : Taken (s₀.outEps ep) c e) :
    GoesOn e (min ((s₀.outEps ep).armed - c) len) ↔ ¬ Ends s₀ ep c len := by
  rw [GoesOn, taken.mps, taken.armed, taken.pktcnt, Ends]
  rcases lt_or_ge len ((s₀.outEps ep).armed - c) with less | all
  · rw [min_eq_right (le_of_lt less)]
    simp only [not_or, not_not]
    omega
  · rw [min_eq_left all]
    exact iff_of_false (fun on => lt_irrefl _ on.2.2.2.1) (not_not_intro (.inr (.inr (.inl all))))

theorem Taken.addressed {e₀ e : Ep} (taken : Taken e₀ c e) (addressed : e₀.dmaAddress ≠ 0) :
    e.dmaAddress ≠ 0 := by
  intro zero
  have address := taken.dmaAddress
  rw [zero, UInt64.toNat_zero] at address
  exact addressed (UInt64.toNat_inj.mp (by rw [UInt64.toNat_zero]; omega))

section Bulk

variable {e₀ : Ep} {c : Nat} (bulk : ep ≠ 0)

include bulk in
theorem Taken.outToken (taken : Taken e₀ c (s.outEps ep)) (plain : h.flags &&& tcpUsbSetup = 0) :
    OutMoved s ep (min (e₀.armed - c) len) b (s.outToken ep len h b) := by
  have arrives : s.outToken ep len h b = s.outTransfer ep len h b := by
    simp only [Otg.outToken, taken.stall, taken.enable, Bool.false_eq_true, if_false, if_true]
  rw [arrives, ← taken.armed]
  exact outTransfer_moved bulk plain

include bulk in
/-- A request that is no SETUP for this endpoint: the transfer is complete then, or so many bytes
further. -/
theorem Taken.serve (inside : ep < usbNumEndpoints) (taken : Taken e₀ c (s.outEps ep))
    (placed : e₀.armed = 0 ∨ e₀.dmaAddress ≠ 0) (low : e₀.dmaAddress.toNat < 2 ^ 32)
    (q : Transaction)
    (plain : q.isOut ep = true → q.header.flags &&& tcpUsbSetup = 0) :
    ((s.serve q).device.outEps ep).interruptStatus &&& epintXferCompl ≠ 0 ∨
      Taken e₀ (c + if q.isOut ep then (s.serve q).ret.toNat else 0)
        ((s.serve q).device.outEps ep) := by
  rcases serve_out s ep q with ⟨asked, t, h', quiet, flags, eq⟩ | ⟨same, unasked⟩
  · rw [← quiet.outEps] at taken
    have moved : OutMoved t ep (min (e₀.armed - c) q.header.payloadLen) q.buffer
        (t.outToken ep q.header.payloadLen h' q.buffer) :=
      taken.outToken bulk (by rw [flags]; exact plain asked)
    rw [eq, if_pos asked]
    by_cases on : GoesOn (t.outEps ep) (min (e₀.armed - c) q.header.payloadLen)
    · right
      have more : e₀.armed ≠ 0 := by
        have less := on.2.2.2.1
        rw [taken.armed] at less
        omega
      rw [moved.ret]
      exact taken.next moved.toEpMoved on (taken.addressed (placed.resolve_left more)) low
    · exact .inl (moved.ends on).2
  · right
    have nothing : (if q.isOut ep then (s.serve q).ret.toNat else 0) = 0 := by
      split
      · rename_i asked
        exact Int.toNat_of_nonpos ((unasked asked).2 inside)
      · rfl
    rw [nothing, same]
    exact taken

theorem completed_serve (done : (s.outEps ep).interruptStatus &&& epintXferCompl ≠ 0)
    (q : Transaction) : ((s.serve q).device.outEps ep).interruptStatus &&& epintXferCompl ≠ 0 := by
  rcases serve_out s ep q with ⟨_, t, h', quiet, _, eq⟩ | ⟨same, _⟩
  · obtain ⟨bits, status⟩ := (outToken_touched t ep q.header.payloadLen h' q.buffer).status
    rw [eq, status, quiet.outEps]
    exact or_and_ne_zero done bits
  · rw [same]
    exact done

/-- The transfer has a DMA address, if it needs one. -/
def Placed (s₀ : Otg) (ep : Nat) : Prop :=
  (s₀.outEps ep).armed = 0 ∨ (s₀.outEps ep).dmaAddress ≠ 0

include bulk in
theorem Taken.serveAll (inside : ep < usbNumEndpoints) (placed : Placed s₀ ep)
    (low : (s₀.outEps ep).dmaAddress.toNat < 2 ^ 32) (ts : List Transaction)
    (plain : ∀ q ∈ ts, q.isOut ep = true → q.header.flags &&& tcpUsbSetup = 0)
    (taken : Taken (s₀.outEps ep) c (s.outEps ep)) :
    ((s.serveAll ts).outEps ep).interruptStatus &&& epintXferCompl ≠ 0 ∨
      Taken (s₀.outEps ep) (c + accepted ep s ts) ((s.serveAll ts).outEps ep) := by
  induction ts generalizing c s with
  | nil => exact .inr taken
  | cons q ts ih =>
    rcases taken.serve bulk inside placed low q (plain q (mem_cons_self ..)) with done | next
    · left
      have stays : ∀ (ts : List Transaction) (t : Otg),
          (t.outEps ep).interruptStatus &&& epintXferCompl ≠ 0 →
          ((t.serveAll ts).outEps ep).interruptStatus &&& epintXferCompl ≠ 0 := by
        intro ts
        induction ts with
        | nil => exact fun _ done => done
        | cons q' ts ih' => exact fun t done => ih' _ (completed_serve done q')
      exact stays ts _ done
    · rcases ih (fun q' mem => plain q' (mem_cons_of_mem q mem)) next with done | last
      · exact .inl done
      · right
        rw [accepted, ← add_assoc]
        exact last

end Bulk

/-- An OUT transfer armed on a bulk endpoint, at the address the guest wrote. -/
structure ArmedOut (s : Otg) (ep : Nat) : Prop where
  bulk : ep ≠ 0
  inside : ep < usbNumEndpoints
  packet : 0 < (s.outEps ep).mps
  enable : (s.outEps ep).is epconEnable = true
  stall : (s.outEps ep).is epconStall = false
  complete : (s.outEps ep).interruptStatus &&& epintXferCompl = 0
  address : ∃ dma : UInt32, (s.outEps ep).dmaAddress = dma.toUInt64
  on : s.phyReset = false

theorem ArmedOut.low (armed : ArmedOut s ep) : (s.outEps ep).dmaAddress.toNat < 2 ^ 32 := by
  obtain ⟨dma, written⟩ := armed.address
  rw [written, UInt32.toNat_toUInt64]
  exact dma.toNat_lt

theorem ArmedOut.taken (armed : ArmedOut s ep) : Taken (s.outEps ep) 0 (s.outEps ep) := by
  refine ⟨Nat.zero_mod _, .inl rfl, rfl, ?_, rfl, armed.stall, armed.enable, armed.complete, rfl⟩
  rw [Nat.zero_div, Nat.sub_zero]

/-- What a transaction for the transfer armed in `s₀` does when `c` bytes are taken. -/
structure OutExact (s₀ : Otg) (ep c : Nat) (s : Otg) (q : Transaction) : Prop where
  ret : (s.serve q).ret = min ((s₀.outEps ep).armed - c) q.header.payloadLen
  stored : (s.serve q).device.mem =
    s.mem.blit ((s₀.outEps ep).dmaAddress.toNat + c)
      (min ((s₀.outEps ep).armed - c) q.header.payloadLen) q.buffer
  complete : ((s.serve q).device.outEps ep).interruptStatus &&& epintXferCompl ≠ 0 ↔
    Ends s₀ ep c q.header.payloadLen
  disabled : ((s.serve q).device.outEps ep).is epconEnable = false ↔
    Ends s₀ ep c q.header.payloadLen
  size : (s₀.outEps ep).armed - ((s.serve q).device.outEps ep).armed =
    c + min ((s₀.outEps ep).armed - c) q.header.payloadLen

section Exact

variable {s₀ : Otg} {c : Nat} {q : Transaction} (armed : ArmedOut s₀ ep) (on : s.phyReset = false)
  (taken : Taken (s₀.outEps ep) c (s.outEps ep))
include armed on taken

/-- A transaction for the endpoint, `c` bytes into its transfer. -/
theorem Taken.moved (asked : q.isOut ep = true) (plain : q.header.Plain) :
    ∃ t, Quiet s t ∧ OutMoved t ep (min ((s₀.outEps ep).armed - c) q.header.payloadLen) q.buffer
      (s.serve q) := by
  rcases serve_out s ep q with ⟨_, t, h', quiet, flags, eq⟩ | ⟨_, unasked⟩
  · rw [← quiet.outEps] at taken
    rw [eq]
    exact ⟨t, quiet, taken.outToken armed.bulk (by rw [flags]; exact plain.setup)⟩
  refine absurd (reaches_of_plain plain on ?_ q.buffer) (unasked asked).1
  simp only [Transaction.isOut, Bool.and_eq_true, beq_iff_eq] at asked
  rw [asked.2]
  exact armed.inside

theorem Taken.exact (placed : Placed s₀ ep) (asked : q.isOut ep = true) (plain : q.header.Plain) :
    OutExact s₀ ep c s q := by
  obtain ⟨t, quiet, moved⟩ := taken.moved armed on asked plain
  have there : Taken (s₀.outEps ep) c (t.outEps ep) := by rwa [quiet.outEps]
  have goesOn : GoesOn (t.outEps ep) (min ((s₀.outEps ep).armed - c) q.header.payloadLen) ↔
    ¬ Ends s₀ ep c q.header.payloadLen := there.goesOn armed.packet
  have within : c + min ((s₀.outEps ep).armed - c) q.header.payloadLen ≤ (s₀.outEps ep).armed := by
    rcases taken.short with zero | ⟨less, _⟩
    · omega
    · omega
  refine ⟨moved.ret, ?_, ?_, ?_, ?_⟩
  · rw [moved.mem, quiet.mem]
    rcases placed with empty | addressed
    · rw [empty, Nat.zero_sub, Nat.zero_min, if_neg (fun h => Nat.lt_irrefl 0 h.1), Mem.blit_zero]
    · rw [there.dmaAddress]
      split
      · rfl
      · rename_i nothing
        have zero : min ((s₀.outEps ep).armed - c) q.header.payloadLen = 0 := by
          by_contra more
          exact nothing ⟨pos_of_ne_zero more, there.addressed addressed⟩
        rw [zero, Mem.blit_zero]
  · by_cases on : GoesOn (t.outEps ep) (min ((s₀.outEps ep).armed - c) q.header.payloadLen)
    · rw [(moved.goesOn on).2.1]
      exact iff_of_false (not_not_intro there.complete) (goesOn.mp on)
    · exact iff_of_true (moved.ends on).2 (not_not.mp (mt goesOn.mpr on))
  · by_cases on : GoesOn (t.outEps ep) (min ((s₀.outEps ep).armed - c) q.header.payloadLen)
    · rw [(moved.goesOn on).1]
      exact iff_of_false (by decide) (goesOn.mp on)
    · exact iff_of_true (moved.ends on).1 (not_not.mp (mt goesOn.mpr on))
  · rw [moved.armed, there.armed]
    omega

end Exact

/-- Every transaction of an armed transfer is exact, whatever has come before it while the transfer
was not complete. -/
def AllExact (s : Otg) (ep : Nat) : Prop :=
  ∀ ts, (∀ q ∈ ts, q.isOut ep = true → q.header.flags &&& tcpUsbSetup = 0) →
    ((s.serveAll ts).outEps ep).interruptStatus &&& epintXferCompl = 0 →
    ∀ q, q.isOut ep = true → q.header.Plain → OutExact s ep (accepted ep s ts) (s.serveAll ts) q

theorem all_exact (armed : ArmedOut s ep) (placed : Placed s ep) : AllExact s ep := by
  intro ts noSetup incomplete q asked plain
  rcases armed.taken.serveAll armed.bulk armed.inside placed armed.low ts noSetup with done | taken
  · exact absurd incomplete done
  · rw [zero_add] at taken
    exact taken.exact armed ((s.serveAll_phyReset ts).trans armed.on) placed asked plain

/-- An OUT of one byte. -/
def give (ep : Nat) (v : UInt8) : Transaction := ⟨⟨0, UInt8.ofNat ep, 0, 1⟩, fun _ => v⟩

theorem give_isOut (inside : ep < usbNumEndpoints) (v : UInt8) : (give ep v).isOut ep = true := by
  have address : ∀ ep < 8, (!(UInt8.ofNat ep &&& 0x80 != 0) &&
      (UInt8.ofNat ep &&& 0x7f).toNat == ep) = true := by decide
  exact address ep inside

/-- Without an address the first byte is counted and not stored. -/
theorem placed_of_exact (armed : ArmedOut s ep) (exactly : AllExact s ep) : Placed s ep := by
  by_contra bad
  obtain ⟨sized, unaddressed⟩ := not_or.mp bad
  rw [not_not] at unaddressed
  have : Nontrivial UInt8 := ⟨0, 1, by decide⟩
  obtain ⟨v, other⟩ : ∃ v, v ≠ s.mem ((s.outEps ep).dmaAddress.toNat + 0) := exists_ne _
  have asked := give_isOut armed.inside v
  have plain : (give ep v).header.Plain :=
    ⟨(by decide : (0 : UInt8) &&& tcpUsbReset = 0), (by decide : (0 : UInt8) &&& tcpUsbSetup = 0)⟩
  have stored := (exactly [] nofun armed.complete _ asked plain).stored
  obtain ⟨t, quiet, moved⟩ := armed.taken.moved armed armed.on asked plain
  have kept := moved.mem
  rw [quiet.outEps, if_neg fun wrote => wrote.2 unaddressed, quiet.mem] at kept
  have one : min ((s.outEps ep).armed - accepted ep s []) (give ep v).header.payloadLen = 1 :=
    min_eq_right (pos_of_ne_zero sized)
  rw [one] at stored
  refine other (Eq.symm ?_)
  rw [← kept]
  exact (congrFun stored _).trans (Mem.blit_of_inside _ _ _ _ (le_refl _) (lt_succ_self _))

/-! ## Bus events -/

/-- A reset, the end of the enumeration, or the handshake. -/
def IsEvent (h : Header) : Prop :=
  h.flags &&& tcpUsbReset ≠ 0 ∨ h.flags &&& tcpUsbEnumdone ≠ 0 ∨
    h.flags &&& tcpUsbHello ≠ 0 ∧ h.ep &&& 0x7f = tcpUsbEpControl

/-- The endpoint a request is for has nothing to answer it with. -/
def Idle (s : Otg) (h : Header) : Prop :=
  if h.dirIn then
    (s.inEps h.number).is epconStall = false ∧ ((s.inEps h.number).is epconNaksts = true ∨
      (s.inEps h.number).is epconEnable = false ∨ h.payloadLen = 0 ∧ 0 < (s.inEps h.number).armed)
  else (s.outEps h.number).is epconStall = false ∧ (s.outEps h.number).is epconEnable = false

/-- No endpoint register changes. -/
structure Unchanged (s s' : Otg) : Prop where
  inEps : s'.inEps = s.inEps
  outEps : s'.outEps = s.outEps

theorem Quiet.unchanged (quiet : Quiet s t) : Unchanged s t := ⟨quiet.inEps, quiet.outEps⟩

theorem Quiet.unchanged_iff {u : Otg} (quiet : Quiet s t) : Unchanged s u ↔ Unchanged t u :=
  ⟨fun same => ⟨same.inEps.trans quiet.inEps.symm, same.outEps.trans quiet.outEps.symm⟩,
    fun same => ⟨same.inEps.trans quiet.inEps, same.outEps.trans quiet.outEps⟩⟩

/-- An IN of no bytes of a transfer that has some. -/
theorem inTransfer_empty (nothing : len = 0) (sized : 0 < (s.inEps ep).armed) :
    Unchanged s (s.inTransfer ep len h b).device := by
  have still : (s.inTransfer ep len h b).device = s.updateIrq := by
    simp [nothing, inTransfer, Ep.setArmed_self, sized.ne']
  rw [still]
  exact (quiet_updateIrq s).unchanged

/-- Any other IN of an armed transfer moves bytes or completes it. -/
theorem inTransfer_changes (on : (s.inEps ep).is epconEnable = true)
    (asks : ¬ (len = 0 ∧ 0 < (s.inEps ep).armed)) :
    (s.inTransfer ep len h b).device.inEps ep ≠ s.inEps ep := by
  intro same
  by_cases zero : 0 < min (s.inEps ep).armed len ∧ (s.inEps ep).dmaAddress = 0
  · have off : ((s.inTransfer ep len h b).device.inEps ep).is epconEnable = false :=
      inTransfer_noDma zero.2 zero.1
    rw [same, on] at off
    cases off
  · have moved : InMoved s ep (min (s.inEps ep).armed len) b (s.inTransfer ep len h b) :=
      inTransfer_moved fun more unaddressed => zero ⟨more, unaddressed⟩
    by_cases all : min (s.inEps ep).armed len = (s.inEps ep).armed
    · have control := moved.control
      rw [if_pos all, same] at control
      rw [Ep.is, control, and_clear] at on
      cases on
    · have armed := moved.armed
      rw [same] at armed
      omega

/-- An OUT of an armed transfer moves bytes or completes it. -/
theorem outTransfer_changes (on : (s.outEps ep).is epconEnable = true) :
    (s.outTransfer ep len h b).device.outEps ep ≠ s.outEps ep := by
  intro same
  by_cases usual : ep ≠ 0 ∧ h.flags &&& tcpUsbSetup = 0
  · have moved : OutMoved s ep (min (s.outEps ep).armed len) b (s.outTransfer ep len h b) :=
      outTransfer_moved usual.1 usual.2
    by_cases goesOn : GoesOn (s.outEps ep) (min (s.outEps ep).armed len)
    · have armed := moved.armed
      rw [same] at armed
      obtain ⟨_, nonempty, _, less, _⟩ := goesOn
      omega
    · have off := (moved.ends goesOn).1
      rw [same, on] at off
      cases off
  · revert same
    unfold outTransfer
    extract_lets e setup sz amt wrote t e₁ mps pkts e₂ e₃
    have small : sz - amt < 2 ^ 17 := lt_of_le_of_lt (sub_le _ _) e.armed_lt
    have off : e₁.is epconEnable = false := by
      unfold e₁
      split
      · exact (s.outEps ep).is_clear_self
      · exact (s.outEps ep).is_clear_self
    rw [if_neg fun goesOn => usual ⟨goesOn.1, by simpa [setup] using goesOn.2.1⟩]
    dsimp only
    rw [(quiet_updateIrq _).outEps]
    intro same
    have ended : ((t.outEnd ep sz amt setup e₁).outEps ep).is epconEnable = e₁.is epconEnable :=
      (outEnd_spec setup small).2.1
    rw [same, on, off] at ended
    cases ended

theorem inToken_unchanged : Unchanged s (s.inToken ep len h b).device ↔
    (s.inEps ep).is epconStall = false ∧ ((s.inEps ep).is epconNaksts = true ∨
      (s.inEps ep).is epconEnable = false ∨ len = 0 ∧ 0 < (s.inEps ep).armed) := by
  have irq := (quiet_updateIrq s).unchanged
  unfold inToken
  dsimp only
  by_cases stall : (s.inEps ep).is epconStall = true
  · rw [if_pos stall]
    refine iff_of_false (fun same => (s.inEps ep).clear_ne stall ?_) fun idle => by
      rw [stall] at idle
      cases idle.1
    have kept := congrFun ((quiet_updateIrq _).inEps.symm.trans same.inEps) ep
    exact (Function.update_self ..).symm.trans kept
  rw [if_neg stall]
  have noStall : (s.inEps ep).is epconStall = false := Bool.eq_false_iff.mpr stall
  by_cases nak : (s.inEps ep).is epconNaksts = true
  · rw [if_pos nak]
    exact iff_of_true irq ⟨noStall, .inl nak⟩
  rw [if_neg nak]
  by_cases on : (s.inEps ep).is epconEnable = true
  · rw [if_pos on]
    by_cases empty : len = 0 ∧ 0 < (s.inEps ep).armed
    · exact iff_of_true (inTransfer_empty empty.1 empty.2) ⟨noStall, .inr (.inr empty)⟩
    refine iff_of_false (fun same => ?_) fun idle => ?_
    · exact inTransfer_changes on empty (congrFun same.inEps ep)
    · rcases idle.2 with nak' | off | empty'
      · exact nak nak'
      · rw [on] at off
        cases off
      · exact empty empty'
  · rw [if_neg on]
    exact iff_of_true irq ⟨noStall, .inr (.inl (Bool.eq_false_iff.mpr on))⟩

theorem outToken_unchanged : Unchanged s (s.outToken ep len h b).device ↔
    (s.outEps ep).is epconStall = false ∧ (s.outEps ep).is epconEnable = false := by
  have irq := (quiet_updateIrq s).unchanged
  unfold outToken
  dsimp only
  by_cases stall : (s.outEps ep).is epconStall = true
  · rw [if_pos stall]
    refine iff_of_false (fun same => (s.outEps ep).clear_ne stall ?_) fun idle => by
      rw [stall] at idle
      cases idle.1
    have kept := congrFun ((quiet_updateIrq _).outEps.symm.trans same.outEps) ep
    exact (Function.update_self ..).symm.trans kept
  rw [if_neg stall]
  by_cases on : (s.outEps ep).is epconEnable = true
  · rw [if_pos on]
    refine iff_of_false (fun same => ?_) fun idle => by rw [on] at idle; cases idle.2
    exact outTransfer_changes on (congrFun same.outEps ep)
  · rw [if_neg on]
    exact iff_of_true irq ⟨Bool.eq_false_iff.mpr stall, Bool.eq_false_iff.mpr on⟩

/-- A request leaves the endpoints alone exactly if it gets to none or to one that has nothing to
answer it with. -/
theorem unchanged_iff (s : Otg) (q : Transaction) :
    Unchanged s (s.serve q).device ↔ ¬ Reaches s q.header q.buffer ∨ Idle s q.header := by
  have how := served s q.header q.buffer
  unfold Otg.serve
  generalize tcpCallback s q.header q.buffer = r at how
  cases how with
  | aside _ quiet not => exact iff_of_true quiet.unchanged (.inl not)
  | inward t h' quiet reaches dir =>
    rw [or_iff_right (not_not_intro reaches), Idle, if_pos dir, quiet.unchanged_iff, ← quiet.inEps]
    exact inToken_unchanged
  | outward t h' quiet reaches dir =>
    rw [or_iff_right (not_not_intro reaches), Idle, if_neg (Bool.eq_false_iff.mp dir),
      quiet.unchanged_iff, ← quiet.outEps]
    exact outToken_unchanged

/-- The transactions of an armed bulk OUT transfer are exact exactly if it has a DMA address or no
bytes; and a bus event leaves every endpoint alone exactly if it does not come with the
address of an endpoint that has something to answer it with. -/
theorem out_exact_iff (s : Otg) (ep : Nat) (armed : ArmedOut s ep) :
    (AllExact s ep ↔ Placed s ep) ∧
    ∀ (s' : Otg) (q : Transaction), IsEvent q.header →
      (Unchanged s' (s'.serve q).device ↔ ¬ Reaches s' q.header q.buffer ∨ Idle s' q.header) :=
  ⟨⟨placed_of_exact armed, all_exact armed⟩, fun s' q _ => unchanged_iff s' q⟩

/-- The guest arms a transfer of 1024 bytes and two packets on OUT endpoint 1. -/
def readyAt (dma : UInt32) : Otg :=
  ((idle.outEpWrite 1 0x14 dma).outEpWrite 1 0x10 ((2 : UInt32) <<< 19 ||| 1024)).outEpWrite 1 0x00
    (epconEnable ||| 512)

/-- Two packets that end past 4 GiB. -/
theorem ready_transfer_exact : ArmedOut (readyAt 0xFFFFFF00) 1 ∧
    AllExact (readyAt 0xFFFFFF00) 1 := by
  have armed : ArmedOut (readyAt 0xFFFFFF00) 1 :=
    ⟨by decide, by decide, by decide, by decide, by decide, by decide, ⟨_, rfl⟩, rfl⟩
  exact ⟨armed, (out_exact_iff (readyAt 0xFFFFFF00) 1 armed).1.mpr (.inr (by decide))⟩

/-- Without a DMA address an OUT of four bytes is answered with the count four, and nothing is
stored; and the end of the enumeration, which the host tells with the address of endpoint 0 and no
bytes, completes the transfer that is armed there for the first SETUP. -/
theorem unstored_and_completed :
    let q : Transaction := ⟨⟨0, 1, 0, 4⟩, fun _ => 7⟩
    let enumdone : Transaction := ⟨⟨0, 0, tcpUsbEnumdone, 0⟩, fun _ => 0⟩
    let zero := ((idle.outEpWrite 0 0x14 0x8000000).outEpWrite 0 0x10
      ((1 : UInt32) <<< 19 ||| 64)).outEpWrite 0 0x00 epconEnable
    (((readyAt 0).serve q).ret = 4 ∧ ((readyAt 0).serve q).device.mem 0 = 0) ∧
      ((zero.serve enumdone).device.outEps 0).interruptStatus &&& epintXferCompl ≠ 0 ∧
      ((zero.serve enumdone).device.outEps 0).is epconEnable = false := by
  decide +kernel

end Otg

end QemuIos.Usb

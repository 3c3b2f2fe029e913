import QemuIos.Usb.Proofs.Transfer

/-!
# IN transfers

An armed IN transfer goes out in the pieces the host asks for, and completes with its last byte.
-/

namespace QemuIos.Usb

open List Nat

/-- The bytes that follow the header of a response. -/
def Reply.payload (r : Reply Otg) : List UInt8 := (List.range r.ret.toNat).map r.buffer

namespace Otg

variable {j k : Nat} {s₀ : Otg}

/-- An IN request on an endpoint. -/
def Transaction.isIn (t : Transaction) (ep : Nat) : Bool := t.header.dirIn && t.header.number == ep

/-- The payloads an endpoint returns, one after the other. -/
def returned (ep : Nat) : Otg → List Transaction → List UInt8
  | _, [] => []
  | s, t :: rest =>
    let r := s.serve t
    (if t.isIn ep then r.payload else []) ++ returned ep r.device rest

/-- The transactions leave the memory of a transfer as it is and its endpoint without a NAK. -/
def Undisturbed (ep dma z : Nat) : Otg → List Transaction → Prop
  | _, [] => True
  | s, t :: rest =>
    let s' := (s.serve t).device
    (∀ i < z, s'.mem (dma + i) = s.mem (dma + i)) ∧ (s'.inEps ep).is epconNaksts = false ∧
      Undisturbed ep dma z s' rest

variable {s t : Otg} {ep len : Nat} {h : Header} {b : Mem}

/-- What an IN of an armed transfer leaves. -/
structure InMoved (s : Otg) (ep amt : Nat) (b : Mem) (r : Reply Otg) : Prop where
  ret : r.ret = amt
  buffer : r.buffer = b.blit 0 amt (s.mem.slice (s.inEps ep).dmaAddress.toNat)
  armed : (r.device.inEps ep).armed = (s.inEps ep).armed - amt
  dmaAddress : (r.device.inEps ep).dmaAddress = (s.inEps ep).dmaAddress + UInt64.ofNat amt
  control : (r.device.inEps ep).control = if amt = (s.inEps ep).armed
    then (s.inEps ep).control &&& ~~~epconEnable else (s.inEps ep).control
  interruptStatus : (r.device.inEps ep).interruptStatus = if amt = (s.inEps ep).armed
    then (s.inEps ep).interruptStatus ||| epintXferCompl else (s.inEps ep).interruptStatus
  mem : r.device.mem = s.mem

theorem inTransfer_moved
    (addressed : 0 < min (s.inEps ep).armed len → (s.inEps ep).dmaAddress ≠ 0) :
    InMoved s ep (min (s.inEps ep).armed len) b (s.inTransfer ep len h b) := by
  unfold inTransfer
  extract_lets e sz asked noDma amt buffer e₁ left e₂ mps sent e₃ e₄
  have dma : noDma = false := decide_eq_false fun h => addressed h.1 h.2
  have moved : amt = asked := by
    simp only [amt, dma, Bool.false_eq_true, if_false]
  have quiet := quiet_updateIrq { s with inEps := Function.update s.inEps ep e₄ }
  have here : (updateIrq { s with inEps := Function.update s.inEps ep e₄ }).inEps ep = e₄ := by
    rw [quiet.inEps]
    exact Function.update_self ..
  have small : left < 2 ^ 17 := lt_of_le_of_lt (sub_le _ _) e.armed_lt
  have counted : e₃.armed = left ∧ e₃.dmaAddress = e₁.dmaAddress ∧ e₃.control = e.control ∧
      e₃.interruptStatus = e.interruptStatus := by
    have armed : e₂.armed = left := e₁.armed_setArmed small
    have fits : (if sent < e₂.pktcnt then e₂.pktcnt - sent else 0) ≤ pktcntMask := by
      split
      · rename_i more
        exact UInt32.le_trans (UInt32.sub_le (UInt32.le_of_lt more)) e₂.pktcnt_le
      · exact UInt32.le_iff_toNat_le.mpr (zero_le _)
    unfold e₃
    split
    · exact ⟨(e₂.armed_setPktcnt fits).trans armed, rfl, rfl, rfl⟩
    · exact ⟨armed, rfl, rfl, rfl⟩
  obtain ⟨armed, address, control, status⟩ := counted
  have whole : (left = 0 ∨ noDma = true) ↔ min (s.inEps ep).armed len = (s.inEps ep).armed := by
    simp only [dma, Bool.false_eq_true, or_false, left, moved, asked, sz, e]
    omega
  have last : e₄.armed = left ∧ e₄.dmaAddress = e₁.dmaAddress ∧
      e₄.control = (if min (s.inEps ep).armed len = (s.inEps ep).armed
        then (s.inEps ep).control &&& ~~~epconEnable else (s.inEps ep).control) ∧
      e₄.interruptStatus = (if min (s.inEps ep).armed len = (s.inEps ep).armed
        then (s.inEps ep).interruptStatus ||| epintXferCompl
        else (s.inEps ep).interruptStatus) := by
    unfold e₄
    by_cases drained : left = 0 ∨ noDma = true
    · rw [if_pos drained, if_pos (whole.mp drained), if_pos (whole.mp drained)]
      exact ⟨armed, address, congrArg (· &&& ~~~epconEnable) control,
        congrArg (· ||| epintXferCompl) status⟩
    · rw [if_neg drained, if_neg (mt whole.mpr drained), if_neg (mt whole.mpr drained)]
      exact ⟨armed, address, control, status⟩
  clear armed address control status
  obtain ⟨armed, address, control, status⟩ := last
  refine ⟨by rw [moved], ?_, ?_, ?_, ?_, ?_, quiet.mem⟩
  · simp only [buffer, moved]
    rfl
  · rw [here, armed]
    simp only [left, moved]
    rfl
  · rw [here, address]
    simp only [e₁, moved]
    rfl
  · rw [here, control]
  · rw [here, status]

/-- A request is an IN token for the endpoint, or leaves it alone. -/
theorem serve_in (q : Transaction) :
    (q.isIn ep = true ∧ ∃ t h', Quiet s t ∧
      s.serve q = t.inToken ep q.header.payloadLen h' q.buffer) ∨
    ((((s.serve q).device.inEps ep).is epconNaksts = false →
        (s.serve q).device.inEps ep = s.inEps ep) ∧
      (q.isIn ep = true →
        ¬ Reaches s q.header q.buffer ∧ (ep < usbNumEndpoints → (s.serve q).ret ≤ 0))) := by
  have how := s.serve_served q
  generalize s.serve q = r at how
  cases how with
  | aside _ quiet not empty =>
    refine .inr ⟨fun _ => congrFun quiet.inEps ep, fun asked => ⟨not, ?_⟩⟩
    simp only [Transaction.isIn, Bool.and_eq_true, beq_iff_eq] at asked
    rw [← asked.2]
    exact empty
  | inward t h' quiet _ dir =>
    by_cases mine : q.header.number = ep
    · refine .inl ⟨?_, t, h', quiet, by rw [mine]⟩
      simp only [Transaction.isIn, dir, mine, beq_self_eq_true, Bool.and_self]
    have touched := inToken_touched t q.header.number q.header.payloadLen h' q.buffer
    refine .inr ⟨fun _ => ?_, fun asked => ?_⟩
    · rw [touched.others ep (Ne.symm mine), quiet.inEps]
    · simp [Transaction.isIn, mine] at asked
  | outward t h' quiet _ dir =>
    have touched := outToken_touched t q.header.number q.header.payloadLen h' q.buffer
    refine .inr ⟨fun clear => ?_, fun asked => ?_⟩
    · rw [touched.inEps ep clear, quiet.inEps]
    · simp [Transaction.isIn, dir] at asked

/-- An endpoint after `k` bytes of the transfer that was armed as `e₀`. -/
structure EpSent (e₀ : Ep) (k : Nat) (e : Ep) : Prop where
  le : k ≤ e₀.armed
  armed : e.armed = e₀.armed - k
  dmaAddress : e.dmaAddress.toNat = e₀.dmaAddress.toNat + k
  stall : e.is epconStall = false
  nak : e.is epconNaksts = false
  enable : e.is epconEnable = decide (k < e₀.armed)
  complete : e.interruptStatus &&& epintXferCompl ≠ 0 ↔ k = e₀.armed

/-- And the memory of the transfer is as it was. -/
structure Sent (s₀ : Otg) (ep k : Nat) (s : Otg) : Prop extends
    EpSent (s₀.inEps ep) k (s.inEps ep) where
  mem : ∀ i < (s₀.inEps ep).armed, s.mem ((s₀.inEps ep).dmaAddress.toNat + i) =
    s₀.mem ((s₀.inEps ep).dmaAddress.toNat + i)

/-- The bytes of the transfer from `k` on. -/
def inBytes (s₀ : Otg) (ep k n : Nat) : List UInt8 :=
  (List.range n).map fun i => s₀.mem ((s₀.inEps ep).dmaAddress.toNat + (k + i))

theorem inBytes_append (s₀ : Otg) (ep k n m : Nat) :
    inBytes s₀ ep k n ++ inBytes s₀ ep (k + n) m = inBytes s₀ ep k (n + m) := by
  rw [inBytes, inBytes, inBytes, range_add, map_append, map_map]
  congr 1
  refine map_congr_left fun i _ => ?_
  rw [Function.comp_apply, add_assoc]

/-- An endpoint that is not addressed keeps its place in its transfer. -/
theorem Sent.of_same (sent : Sent s₀ ep k s) (same : t.inEps ep = s.inEps ep)
    (mem : ∀ i < (s₀.inEps ep).armed, t.mem ((s₀.inEps ep).dmaAddress.toNat + i) =
      s.mem ((s₀.inEps ep).dmaAddress.toNat + i)) : Sent s₀ ep k t :=
  ⟨same ▸ sent.toEpSent, fun i inside => (mem i inside).trans (sent.mem i inside)⟩

section Addressed

variable (addressed : 0 < (s₀.inEps ep).dmaAddress.toNat)
  (low : (s₀.inEps ep).dmaAddress.toNat < 2 ^ 32)

include addressed low in
/-- A request on the endpoint of a transfer that is not drained. -/
theorem Sent.inToken (sent : Sent s₀ ep k s) (more : k < (s₀.inEps ep).armed) :
    let n := min ((s₀.inEps ep).armed - k) len
    Sent s₀ ep (k + n) (s.inToken ep len h b).device ∧
      (s.inToken ep len h b).payload = inBytes s₀ ep k n := by
  intro n
  have taken : s.inToken ep len h b = s.inTransfer ep len h b := by
    have on := sent.enable
    rw [decide_eq_true more] at on
    simp only [Otg.inToken, sent.stall, sent.nak, on, Bool.false_eq_true, if_false, if_true]
  have address := sent.dmaAddress
  have nonzero : (s.inEps ep).dmaAddress ≠ 0 := by
    intro zero
    rw [zero, UInt64.toNat_zero] at address
    omega
  have moved : InMoved s ep (min (s.inEps ep).armed len) b (s.inTransfer ep len h b) :=
    inTransfer_moved fun _ => nonzero
  rw [sent.armed] at moved
  rw [taken]
  have count : n ≤ (s₀.inEps ep).armed - k := min_le_left _ _
  have whole : n = (s.inEps ep).armed ↔ k + n = (s₀.inEps ep).armed := by
    rw [sent.armed]
    omega
  refine ⟨⟨⟨by omega, ?_, ?_, ?_, ?_, ?_, ?_⟩, ?_⟩, ?_⟩
  · rw [moved.armed, sent.armed, Nat.sub_sub]
  · have small := (s₀.inEps ep).armed_lt
    rw [moved.dmaAddress, UInt64.toNat_add, UInt64.toNat_ofNat', address]
    omega
  · rw [Ep.is, moved.control]
    split
    · rw [Field.and_clear_of_apart _ (by decide)]
      exact sent.stall
    · exact sent.stall
  · rw [Ep.is, moved.control]
    split
    · rw [Field.and_clear_of_apart _ (by decide)]
      exact sent.nak
    · exact sent.nak
  · rw [Ep.is, moved.control]
    by_cases last : n = (s.inEps ep).armed
    · rw [if_pos last, Field.and_clear, decide_eq_false (by rw [whole.mp last]; exact lt_irrefl _)]
      rfl
    have still : k + n < (s₀.inEps ep).armed := by
      have := mt whole.mpr last
      omega
    rw [if_neg last, decide_eq_true still]
    exact sent.enable.trans (decide_eq_true more)
  · rw [moved.interruptStatus]
    by_cases last : n = (s.inEps ep).armed
    · rw [if_pos last, Field.and_set]
      exact iff_of_true (by decide) (whole.mp last)
    · rw [if_neg last]
      exact iff_of_false (fun up => absurd (sent.complete.mp up) (Nat.ne_of_lt more))
        (mt whole.mpr last)
  · intro i inside
    rw [moved.mem]
    exact sent.mem i inside
  · rw [Reply.payload, moved.ret, moved.buffer, inBytes]
    refine map_congr_left fun i inside => ?_
    have short : i < n := mem_range.mp inside
    rw [Mem.blit_start _ _ _ short, Mem.slice, address, add_assoc, sent.mem (k + i) (by omega)]

/-- A request on the endpoint of a drained transfer. -/
theorem Sent.drained (sent : Sent s₀ ep (s₀.inEps ep).armed s) :
    s.inToken ep len h b = ⟨s.updateIrq, h, b, retNak⟩ := by
  have off := sent.enable
  rw [decide_eq_false (lt_irrefl _)] at off
  simp only [Otg.inToken, sent.stall, sent.nak, off, Bool.false_eq_true, if_false]

theorem payload_of_empty {r : Reply Otg} (empty : r.ret ≤ 0) : r.payload = [] := by
  rw [Reply.payload, Int.toNat_of_nonpos empty]
  rfl

theorem Sent.of_quiet (sent : Sent s₀ ep k s) (quiet : Quiet s t) : Sent s₀ ep k t :=
  sent.of_same (congrFun quiet.inEps ep) fun _ _ => by rw [quiet.mem]

variable (inside : ep < usbNumEndpoints)
include inside addressed low

/-- One transaction, on this endpoint or another one. -/
theorem Sent.serve (sent : Sent s₀ ep k s) (q : Transaction)
    (spared : ∀ i < (s₀.inEps ep).armed, (s.serve q).device.mem
      ((s₀.inEps ep).dmaAddress.toNat + i) = s.mem ((s₀.inEps ep).dmaAddress.toNat + i))
    (clear : ((s.serve q).device.inEps ep).is epconNaksts = false) :
    ∃ n, Sent s₀ ep (k + n) (s.serve q).device ∧
      (if q.isIn ep then (s.serve q).payload else []) = inBytes s₀ ep k n := by
  rcases serve_in q with ⟨asked, t, h', quiet, eq⟩ | ⟨same, unasked⟩
  · have there : Sent s₀ ep k t := sent.of_quiet quiet
    rw [if_pos asked, eq]
    rcases lt_or_eq_of_le sent.le with more | all
    · exact ⟨_, there.inToken addressed low more⟩
    · subst all
      rw [there.drained]
      exact ⟨0, there.of_quiet (quiet_updateIrq t), payload_of_empty (by decide : retNak ≤ 0)⟩
  · refine ⟨0, sent.of_same (same clear) spared, ?_⟩
    split
    · rename_i asked
      exact payload_of_empty ((unasked asked).2 inside)
    · rfl

theorem Sent.serveAll (ts : List Transaction) (sent : Sent s₀ ep k s)
    (alone : Undisturbed ep (s₀.inEps ep).dmaAddress.toNat (s₀.inEps ep).armed s ts) :
    ∃ n, Sent s₀ ep (k + n) (s.serveAll ts) ∧ returned ep s ts = inBytes s₀ ep k n := by
  induction ts generalizing k s with
  | nil => exact ⟨0, sent, rfl⟩
  | cons q ts ih =>
    obtain ⟨spared, clear, rest⟩ := alone
    obtain ⟨n, next, bytes⟩ := sent.serve addressed low inside q spared clear
    obtain ⟨m, last, bytes'⟩ := ih next rest
    refine ⟨n + m, by rw [← add_assoc]; exact last, ?_⟩
    rw [returned, bytes, bytes', inBytes_append]

end Addressed

/-- An IN transfer armed on an endpoint, at the address the guest wrote. -/
structure ArmedIn (s : Otg) (ep : Nat) : Prop where
  inside : ep < usbNumEndpoints
  enable : (s.inEps ep).is epconEnable = true
  stall : (s.inEps ep).is epconStall = false
  nak : (s.inEps ep).is epconNaksts = false
  size : 0 < (s.inEps ep).armed
  address : ∃ dma : UInt32, dma ≠ 0 ∧ (s.inEps ep).dmaAddress = dma.toUInt64
  complete : (s.inEps ep).interruptStatus &&& epintXferCompl = 0

theorem ArmedIn.addressed (armed : ArmedIn s ep) :
    0 < (s.inEps ep).dmaAddress.toNat ∧ (s.inEps ep).dmaAddress.toNat < 2 ^ 32 := by
  obtain ⟨dma, nonzero, written⟩ := armed.address
  rw [written, UInt32.toNat_toUInt64]
  exact ⟨Nat.pos_of_ne_zero fun zero => nonzero (UInt32.toNat_inj.mp zero), dma.toNat_lt⟩

theorem ArmedIn.sent (armed : ArmedIn s ep) : Sent s ep 0 s := by
  refine ⟨⟨zero_le _, rfl, rfl, armed.stall, armed.nak, ?_, ?_⟩, fun _ _ => rfl⟩
  · rw [armed.enable, decide_eq_true armed.size]
  · exact iff_of_false (not_not_intro armed.complete) (Nat.ne_of_lt armed.size)

/-- What a transfer armed in `s₀` is like when its endpoint has returned the bytes `sent`. -/
structure InExact (s₀ : Otg) (ep : Nat) (sent : List UInt8) (s : Otg) : Prop where
  bytes : sent <+: inBytes s₀ ep 0 (s₀.inEps ep).armed
  size : (s.inEps ep).armed = (s₀.inEps ep).armed - sent.length
  complete : (s.inEps ep).interruptStatus &&& epintXferCompl ≠ 0 ↔ sent.length = (s₀.inEps ep).armed
  enable : (s.inEps ep).is epconEnable = true ↔ sent.length ≠ (s₀.inEps ep).armed
  nak : sent.length = (s₀.inEps ep).armed → ∀ q : Transaction, q.isIn ep = true → q.header.Plain →
    (s.serve q).ret = retNak

theorem serve_held (held : s.phyReset = true) (q : Transaction)
    (near : q.header.number < usbNumEndpoints) : s.serve q = ⟨s, { q.header with
      addr := UInt8.ofNat ((s.dcfg &&& (0x7F : UInt32) <<< 4) >>> 4).toNat }, q.buffer,
        retNak⟩ := by
  have other : (q.header.ep &&& 0x7f == tcpUsbEpControl) = false := by
    rw [beq_eq_false_iff_ne]
    intro same
    have number : q.header.number = 0x7f := congrArg UInt8.toNat same
    rw [number] at near
    exact absurd near (by decide)
  simp only [Otg.serve, tcpCallback, held, other, Bool.and_false, Bool.not_false, Bool.and_true,
    if_true]

/-- A plain request gets to its endpoint unless the PHY is held in reset. -/
theorem reaches_of_plain (plain : h.Plain) (on : s.phyReset = false)
    (near : h.number < usbNumEndpoints) (b : Mem) : Reaches s h b := by
  refine ⟨on, plain.reset, near, ?_⟩
  simp only [withheld, plain.setup, bne_self_eq_false, Bool.and_false, Bool.false_and]

theorem serve_reaches {q : Transaction} (asked : q.isIn ep = true) (plain : q.header.Plain)
    (on : s.phyReset = false) (inside : ep < usbNumEndpoints) :
    ∃ t h', Quiet s t ∧ s.serve q = t.inToken ep q.header.payloadLen h' q.buffer := by
  rcases serve_in q with ⟨_, t, h', quiet, eq⟩ | ⟨_, unasked⟩
  · exact ⟨t, h', quiet, eq⟩
  refine absurd (reaches_of_plain plain on ?_ q.buffer) (unasked asked).1
  simp only [Transaction.isIn, Bool.and_eq_true, beq_iff_eq] at asked
  rw [asked.2]
  exact inside

theorem Sent.exact (inside : ep < usbNumEndpoints) (sent : Sent s₀ ep k s) :
    InExact s₀ ep (inBytes s₀ ep 0 k) s := by
  have length : (inBytes s₀ ep 0 k).length = k := by
    rw [inBytes, length_map, length_range]
  refine ⟨?_, by rw [length]; exact sent.armed, by rw [length]; exact sent.complete, ?_, ?_⟩
  · have whole := inBytes_append s₀ ep 0 k ((s₀.inEps ep).armed - k)
    rw [Nat.add_sub_cancel' sent.le] at whole
    rw [← whole]
    exact prefix_append _ _
  · rw [length, sent.enable, decide_eq_true_iff]
    have := sent.le
    omega
  · intro all q asked plain
    rw [length] at all
    subst all
    cases held : s.phyReset with
    | true =>
      simp only [Transaction.isIn, Bool.and_eq_true, beq_iff_eq] at asked
      rw [serve_held held q (by rw [asked.2]; exact inside)]
    | false =>
      obtain ⟨t, h', quiet, eq⟩ := serve_reaches asked plain held inside
      rw [eq, (sent.of_quiet quiet).drained]

theorem inTransfer_noDma (zero : (s.inEps ep).dmaAddress = 0)
    (asks : 0 < min (s.inEps ep).armed len) :
    ((s.inTransfer ep len h b).device.inEps ep).is epconEnable = false := by
  unfold inTransfer
  extract_lets e sz asked noDma amt buffer e₁ left e₂ mps sent e₃ e₄
  have unaddressed : noDma = true := decide_eq_true ⟨asks, zero⟩
  have quiet := quiet_updateIrq { s with inEps := Function.update s.inEps ep e₄ }
  have retired : e₄ = (e₃.clear epconEnable).raise epintXferCompl := if_pos (.inr unaddressed)
  have here := (congrFun quiet.inEps ep).trans (Function.update_self ep e₄ s.inEps)
  rw [here, retired, Ep.raise]
  exact e₃.is_clear_self

/-- An armed IN transfer is exact in every sequence of transactions that leaves its memory and its
NAK alone. -/
theorem in_exact (s : Otg) (ep : Nat) (armed : ArmedIn s ep) (ts : List Transaction)
    (alone : Undisturbed ep (s.inEps ep).dmaAddress.toNat (s.inEps ep).armed s ts) :
    InExact s ep (returned ep s ts) (s.serveAll ts) := by
  obtain ⟨addressed, low⟩ := armed.addressed
  obtain ⟨n, sent, bytes⟩ := armed.sent.serveAll addressed low armed.inside ts alone
  rw [zero_add] at sent
  rw [bytes]
  exact sent.exact armed.inside

theorem serve_in_mem {q : Transaction} (dir : q.header.dirIn = true) :
    (s.serve q).device.mem = s.mem := by
  have how := s.serve_served q
  generalize s.serve q = r at how
  cases how with
  | aside _ quiet => exact quiet.mem
  | inward t h' quiet => exact (inToken_touched ..).mem.trans quiet.mem
  | outward t h' quiet _ out => cases dir.symm.trans out

/-- A controller with nothing armed, and memory that counts. -/
def idle : Otg where
  dcfg := 0
  gintsts := 0
  gintmsk := 0
  gotgint := 0
  gahbcfg := 0
  daintsts := 0
  daintmsk := 0
  doepmsk := 0
  diepmsk := 0
  phyReset := false
  withholdCharge := false
  inEps := fun _ => ⟨0, 0, 0, 0⟩
  outEps := fun _ => ⟨0, 0, 0, 0⟩
  irq := false
  mem := UInt8.ofNat

/-- The guest arms a transfer of 512 bytes on IN endpoint 1. -/
def armedAt (dma : UInt32) : Otg :=
  ((idle.inEpWrite 1 0x14 dma).inEpWrite 1 0x10 ((1 : UInt32) <<< 19 ||| 512)).inEpWrite 1 0x00
    (epconEnable ||| 512)

/-- The host asks for 300 bytes, gets a hello answered, and asks for 300 bytes more: the transfer
ends past 4 GiB, and all of it is returned. -/
theorem armed_transfer_exact :
    let s := armedAt 0xFFFFFF00
    let q : Transaction := ⟨⟨0, 0x81, 0, 300⟩, fun _ => 0⟩
    let ts := [q, ⟨⟨0, 0xff, tcpUsbHello, 12⟩, fun _ => 0⟩, q]
    ArmedIn s 1 ∧ (returned 1 s ts).length = 512 ∧
      InExact s 1 (returned 1 s ts) (s.serveAll ts) := by
  intro s q ts
  have armed : ArmedIn s 1 :=
    ⟨by decide, by decide, by decide, by decide, by decide, ⟨0xFFFFFF00, by decide, rfl⟩, by decide⟩
  refine ⟨armed, by decide +kernel, in_exact s 1 armed ts ?_⟩
  have still (t : Otg) (q' : Transaction) (dir : q'.header.dirIn = true) (i : Nat) :
      (t.serve q').device.mem i = t.mem i := congrFun (serve_in_mem dir) i
  exact ⟨fun i _ => still _ _ (by decide) _, by decide +kernel, fun i _ => still _ _ (by decide) _,
    by decide +kernel, fun i _ => still _ _ (by decide) _, by decide +kernel, trivial⟩

end Otg

end QemuIos.Usb

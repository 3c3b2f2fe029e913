import QemuIos.Lib.Field
import QemuIos.Usb.Otg

/-!
# Transfers

A transfer is armed once and moved in as many transactions as the host likes. What is left of it is
in the endpoint's size field and its DMA address; the invariant ties both to the bytes moved so far.
-/

namespace QemuIos.Usb
open Nat Bool

namespace Ep

variable (e : Ep) {n : Nat} {p bit other : UInt32}

theorem armed_lt : e.armed < 2 ^ 17 := by
  unfold armed xfersizMask
  rw [UInt32.toNat_and]
  exact lt_of_le_of_lt and_le_right (by decide)

theorem armed_setArmed (small : n < 2 ^ 17) : (e.setArmed n).armed = n := by
  have mask : xfersizMask.toNat = 2 ^ 17 - 1 := by decide
  rw [armed, setArmed, Field.and_write, UInt32.toNat_and, mask, and_two_pow_sub_one_eq_mod,
    UInt32.toNat_ofNat']
  omega

/-- The packet count, under its mask. -/
theorem pktcnt_eq : e.pktcnt = (e.txSize &&& pktcntMask <<< pktcntShift) >>> pktcntShift := by
  unfold pktcnt
  refine Field.ext fun i small => ?_
  have masks : ∀ i < 32, pktcntMask.toBitVec.getLsbD i =
      (pktcntMask <<< pktcntShift).toBitVec.getLsbD (19 + i) := by decide
  have shift : ∀ x : UInt32, (x >>> pktcntShift).toBitVec.getLsbD i =
      x.toBitVec.getLsbD (19 + i) := by
    intro x
    rw [UInt32.toBitVec_shiftRight]
    exact BitVec.getLsbD_ushiftRight ..
  rw [UInt32.toBitVec_and, BitVec.getLsbD_and, shift, shift, UInt32.toBitVec_and,
    BitVec.getLsbD_and, masks i small]

theorem setArmed_self : e.setArmed e.armed = e := by
  have same : UInt32.ofNat e.armed &&& xfersizMask = e.txSize &&& xfersizMask := by
    rw [armed, UInt32.ofNat_toNat, UInt32.and_assoc, UInt32.and_self]
  rw [setArmed, same, Field.write_self]

/-- A count in its field. -/
theorem pktcnt_masked (small : p ≤ pktcntMask) :
    p <<< pktcntShift &&& pktcntMask <<< pktcntShift = p <<< pktcntShift := by
  have within : p &&& pktcntMask = p := by
    have mask : pktcntMask.toNat = 2 ^ 10 - 1 := by decide
    have le := UInt32.le_iff_toNat_le.mp small
    apply UInt32.toNat_inj.mp
    rw [UInt32.toNat_and, mask, and_two_pow_sub_one_eq_mod]
    omega
  rw [← UInt32.shiftLeft_and, within]

theorem armed_setPktcnt (small : p ≤ pktcntMask) : (e.setPktcnt p).armed = e.armed := by
  rw [armed, setPktcnt, ← pktcnt_masked small, Field.and_write_of_apart _ _ (by decide), armed]

theorem pktcnt_setPktcnt (small : p ≤ pktcntMask) : (e.setPktcnt p).pktcnt = p := by
  rw [pktcnt_eq, setPktcnt, ← pktcnt_masked small, Field.and_write, pktcnt_masked small]
  have le : p.toNat ≤ 1023 := UInt32.le_iff_toNat_le.mp small
  have shift : pktcntShift.toNat % 32 = 19 := by decide
  apply UInt32.toNat_inj.mp
  rw [UInt32.toNat_shiftRight, UInt32.toNat_shiftLeft, shift, shiftLeft_eq,
    shiftRight_eq_div_pow]
  omega

theorem pktcnt_le : e.pktcnt ≤ pktcntMask := by
  rw [UInt32.le_iff_toNat_le, pktcnt, UInt32.toNat_and]
  exact and_le_right

theorem is_clear (apart : bit &&& other = 0) : (e.clear bit).is other = e.is other := by
  rw [is, clear, Field.and_clear_of_apart _ apart, is]

theorem is_clear_self : (e.clear bit).is bit = false := by
  rw [is, clear, Field.and_clear]
  rfl

theorem clear_ne (set : e.is bit = true) : e.clear bit ≠ e := by
  intro same
  have cleared : (e.clear bit).is bit = false := e.is_clear_self
  rw [same, set] at cleared
  cases cleared

end Ep

namespace Otg

/-- A change to nothing but the interrupt state. -/
structure Quiet (s s' : Otg) : Prop where
  inEps : s'.inEps = s.inEps
  outEps : s'.outEps = s.outEps
  mem : s'.mem = s.mem
  phyReset : s'.phyReset = s.phyReset
  withholdCharge : s'.withholdCharge = s.withholdCharge

theorem Quiet.refl (s : Otg) : Quiet s s := ⟨rfl, rfl, rfl, rfl, rfl⟩

theorem Quiet.trans {s s' s'' : Otg} (first : Quiet s s') (second : Quiet s' s'') : Quiet s s'' :=
  ⟨second.inEps.trans first.inEps, second.outEps.trans first.outEps, second.mem.trans first.mem,
    second.phyReset.trans first.phyReset, second.withholdCharge.trans first.withholdCharge⟩

theorem Quiet.ite {s t t' : Otg} {p : Prop} [Decidable p] (yes : Quiet s t) (no : Quiet s t') :
    Quiet s (if p then t else t') := by
  split
  · exact yes
  · exact no

theorem quiet_epIrq (s : Otg) (i : Nat) : Quiet s (s.epIrq i) := by
  unfold epIrq
  extract_lets outBit inBit t
  have first : Quiet s t := .ite ⟨rfl, rfl, rfl, rfl, rfl⟩ (.refl s)
  exact first.trans (.ite ⟨rfl, rfl, rfl, rfl, rfl⟩ (.refl t))

theorem quiet_updateIrq (s : Otg) : Quiet s s.updateIrq := by
  have all : ∀ (l : List Nat) (s : Otg), Quiet s (l.foldl epIrq s) := by
    intro l
    induction l with
    | nil => exact .refl
    | cons i l ih => exact fun s => (quiet_epIrq s i).trans (ih (s.epIrq i))
  have rest := all (List.range usbNumEndpoints) { s with
    daintsts := 0
    gintsts := if s.gotgint ≠ 0 then
      s.gintsts &&& ~~~(gintmskOep ||| gintmskInep ||| gintmskOtg) ||| gintmskOtg
      else s.gintsts &&& ~~~(gintmskOep ||| gintmskInep ||| gintmskOtg) }
  exact ⟨rest.inEps, rest.outEps, rest.mem, rest.phyReset, rest.withholdCharge⟩

variable {s t t' : Otg} {ep len : Nat} {h : Header} {b : Mem}

/-- What an IN token leaves: at most its endpoint changes. -/
structure InTouched (s : Otg) (ep : Nat) (s' : Otg) : Prop where
  others : ∀ j ≠ ep, s'.inEps j = s.inEps j
  outEps : s'.outEps = s.outEps
  mem : s'.mem = s.mem
  phyReset : s'.phyReset = s.phyReset

theorem inTouched_update (e : Ep) :
    InTouched s ep (updateIrq { s with inEps := Function.update s.inEps ep e }) := by
  have quiet := quiet_updateIrq { s with inEps := Function.update s.inEps ep e }
  refine ⟨fun j other => ?_, quiet.outEps, quiet.mem, quiet.phyReset⟩
  rw [quiet.inEps]
  exact Function.update_of_ne other _ _

theorem Quiet.inTouched (quiet : Quiet s t) : InTouched s ep t :=
  ⟨fun j _ => congrFun quiet.inEps j, quiet.outEps, quiet.mem, quiet.phyReset⟩

theorem inToken_touched (s : Otg) (ep len : Nat) (h : Header) (b : Mem) :
    InTouched s ep (s.inToken ep len h b).device := by
  unfold inToken
  dsimp only
  split
  · exact inTouched_update _
  split
  · exact (quiet_updateIrq s).inTouched
  · split
    · exact inTouched_update _
    · exact (quiet_updateIrq s).inTouched

/-- What an OUT token leaves: at most its endpoint changes, which drops no interrupt, and a SETUP
puts a NAK on an IN endpoint. -/
structure OutTouched (s : Otg) (ep : Nat) (s' : Otg) : Prop where
  others : ∀ j ≠ ep, s'.outEps j = s.outEps j
  status : ∃ bits, (s'.outEps ep).interruptStatus = (s.outEps ep).interruptStatus ||| bits
  inEps : ∀ j, (s'.inEps j).is epconNaksts = false → s'.inEps j = s.inEps j
  phyReset : s'.phyReset = s.phyReset

theorem outTouched_update (e : Ep) (bits : UInt32)
    (outEps : t.outEps = Function.update s.outEps ep e)
    (status : e.interruptStatus = (s.outEps ep).interruptStatus ||| bits)
    (inEps : ∀ j, (t.inEps j).is epconNaksts = false → t.inEps j = s.inEps j)
    (phyReset : t.phyReset = s.phyReset) : OutTouched s ep t.updateIrq := by
  have quiet := quiet_updateIrq t
  rw [← quiet.outEps] at outEps
  rw [← quiet.inEps] at inEps
  refine ⟨fun j other => ?_, ⟨bits, ?_⟩, inEps, quiet.phyReset.trans phyReset⟩
  · rw [outEps]
    exact Function.update_of_ne other _ _
  · rw [outEps, Function.update_self, status]

theorem outEnd_inEps {sz amt : Nat} {setup : Bool} {e : Ep} (j : Nat)
    (clear : ((s.outEnd ep sz amt setup e).inEps j).is epconNaksts = false) :
    (s.outEnd ep sz amt setup e).inEps j = s.inEps j := by
  unfold outEnd at clear ⊢
  dsimp only at clear ⊢
  split at clear
  · rename_i zero
    rw [if_pos zero]
    refine Function.update_of_ne (fun here => ?_) _ _
    rw [here, Function.update_self, Ep.is, Field.and_set] at clear
    exact absurd clear (by decide)
  · rename_i other
    rw [if_neg other]

theorem outTransfer_touched : OutTouched s ep (s.outTransfer ep len h b).device := by
  unfold outTransfer
  extract_lets e setup sz amt wrote t e₁ mps pkts e₂ e₃
  have stored : t.outEps = s.outEps ∧ t.inEps = s.inEps ∧ t.phyReset = s.phyReset := by
    unfold t
    split
    · exact ⟨rfl, rfl, rfl⟩
    · exact ⟨rfl, rfl, rfl⟩
  have kept : e₁.interruptStatus = (s.outEps ep).interruptStatus := by
    unfold e₁
    split
    · rfl
    · rfl
  obtain ⟨outEps, inEps, phyReset⟩ := stored
  split
  · exact outTouched_update e₃ 0 (congrArg (Function.update · ep e₃) outEps)
      (kept.trans UInt32.or_zero.symm) (fun j _ => congrFun inEps j) phyReset
  refine outTouched_update _ (if setup then epintSetUp else epintXferCompl)
    (congrArg (Function.update · ep _) outEps) ?_
      (fun j clear => (outEnd_inEps j clear).trans (congrFun inEps j)) phyReset
  rw [← kept]
  repeat' split
  all_goals rfl

theorem outToken_touched (s : Otg) (ep len : Nat) (h : Header) (b : Mem) :
    OutTouched s ep (s.outToken ep len h b).device := by
  have still : OutTouched s ep s.updateIrq :=
    outTouched_update _ 0 (Function.update_eq_self ep s.outEps).symm UInt32.or_zero.symm
      (fun _ _ => rfl) rfl
  unfold outToken
  dsimp only
  split
  · exact outTouched_update _ 0 rfl UInt32.or_zero.symm (fun _ _ => rfl) rfl
  · split
    · exact outTransfer_touched
    · exact still

end Otg

namespace Header

/-- The endpoint's number. -/
def number (h : Header) : Nat := (h.ep &&& 0x7f).toNat

/-- Neither a bus event nor a SETUP. -/
structure Plain (h : Header) : Prop where
  reset : h.flags &&& tcpUsbReset = 0
  setup : h.flags &&& tcpUsbSetup = 0

end Header

namespace Otg

/-- A refused charge request: it does not get to the guest. -/
def withheld (s : Otg) (h : Header) (b : Mem) : Bool :=
  s.withholdCharge && h.ep &&& 0x7f == 0 && (h.flags &&& tcpUsbSetup != 0) &&
    decide (2 ≤ h.payloadLen) && b 0 == 0x40 && b 1 == 0x40

/-- A request that gets to an endpoint. -/
structure Reaches (s : Otg) (h : Header) (b : Mem) : Prop where
  on : s.phyReset = false
  reset : h.flags &&& tcpUsbReset = 0
  exists' : h.number < usbNumEndpoints
  charge : s.withheld h b = false

/-- How a request is served. -/
inductive Served (s : Otg) (h : Header) (b : Mem) : Reply Otg → Prop
  | aside (r : Reply Otg) (quiet : Quiet s r.device) (not : ¬ Reaches s h b)
      (empty : h.number < usbNumEndpoints → r.ret ≤ 0) : Served s h b r
  | inward (t : Otg) (h' : Header) (quiet : Quiet s t) (reaches : Reaches s h b)
      (dir : h.dirIn = true) : Served s h b (t.inToken h.number h.payloadLen h' b)
  | outward (t : Otg) (h' : Header) (quiet : Quiet s t) (reaches : Reaches s h b)
      (dir : h.dirIn = false) (same : h'.flags = h.flags) :
    Served s h b (t.outToken h.number h.payloadLen h' b)

theorem served (s : Otg) (h : Header) (b : Mem) : Served s h b (tcpCallback s h b) := by
  have nak : retNak ≤ 0 := by decide
  have stall : retStall ≤ 0 := by decide
  unfold tcpCallback
  extract_lets h' ep hello len u
  have greets : hello = true → h.number = 0x7f := by
    intro on
    simp only [hello, and_eq_true, beq_iff_eq] at on
    exact congrArg UInt8.toNat on.2
  have far : hello = true → ¬ h.number < usbNumEndpoints := by
    intro on
    rw [greets on]
    decide
  split
  · rename_i held
    refine .aside _ (.refl s) (fun reaches => ?_) fun _ => nak
    simp [reaches.on] at held
  · rename_i taken
    split
    · rename_i event
      have marked : Quiet s { s with gintsts := s.gintsts ||| gintmskReset } :=
        ⟨rfl, rfl, rfl, rfl, rfl⟩
      refine .aside _ (marked.trans (quiet_updateIrq _)) (fun reaches => ?_) fun _ => Int.le_refl 0
      have clear : h'.flags &&& tcpUsbReset = 0 := reaches.reset
      simp [clear] at event
    · rename_i event
      have quiet : Quiet s u := .ite ⟨rfl, rfl, rfl, rfl, rfl⟩ (.refl s)
      split
      · rename_i on
        split
        · exact .aside _ quiet (fun reaches => far on reaches.exists') fun near =>
            absurd near (far on)
        · exact .aside _ quiet (fun reaches => far on reaches.exists') fun near =>
            absurd near (far on)
      · rename_i other
        have on : s.phyReset = false := by
          cases held : s.phyReset with
          | false => rfl
          | true => simp [held, other] at taken
        have reset : h.flags &&& tcpUsbReset = 0 := by simpa using event
        split
        · rename_i outside
          refine .aside _ (quiet.trans (quiet_updateIrq u)) (fun reaches => ?_) fun _ => stall
          exact not_lt.mpr outside reaches.exists'
        · rename_i inside
          split
          · rename_i refused
            refine .aside _ quiet (fun reaches => ?_) fun _ => stall
            rw [quiet.withholdCharge] at refused
            exact false_ne_true (reaches.charge.symm.trans refused)
          · rename_i taken'
            rw [quiet.withholdCharge] at taken'
            have reaches : Reaches s h b :=
              ⟨on, reset, not_le.mp inside, eq_false_iff.mpr taken'⟩
            split
            · rename_i dir
              exact .inward u h' quiet reaches dir
            · rename_i dir
              exact .outward u h' quiet reaches (eq_false_iff.mpr dir) rfl

/-- A request of the host with the buffer its answer goes to. -/
structure Transaction where
  header : Header
  buffer : Mem

def serve (s : Otg) (t : Transaction) : Reply Otg := tcpCallback s t.header t.buffer

def serveAll (s : Otg) (ts : List Transaction) : Otg := ts.foldl (fun s t => (s.serve t).device) s

theorem serve_served (s : Otg) (q : Transaction) : Served s q.header q.buffer (s.serve q) :=
  served s q.header q.buffer

theorem serve_phyReset (s : Otg) (q : Transaction) : (s.serve q).device.phyReset = s.phyReset := by
  have how := s.serve_served q
  generalize s.serve q = r at how
  cases how with
  | aside _ quiet => exact quiet.phyReset
  | inward t h' quiet => exact (inToken_touched ..).phyReset.trans quiet.phyReset
  | outward t h' quiet => exact (outToken_touched ..).phyReset.trans quiet.phyReset

theorem serveAll_phyReset (s : Otg) (ts : List Transaction) :
    (s.serveAll ts).phyReset = s.phyReset := by
  induction ts generalizing s with
  | nil => rfl
  | cons q ts ih => exact (ih _).trans (s.serve_phyReset q)

end Otg

end QemuIos.Usb

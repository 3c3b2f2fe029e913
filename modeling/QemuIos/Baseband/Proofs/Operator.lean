import QemuIos.Baseband.Proofs.SimLock

/-!
# The operator's number

The number of the network over AT lines, controls and the search for a cell, and the location the
SIM keeps of it. Only a selection by hand breaks it: three octets of the number are read.
-/

namespace QemuIos.Baseband
open CText Relation List Option

variable {line p : Bytes} {host : Host}

theorem plmnOk_digits {plmn : Bytes} (ok : plmnOk plmn = true) :
    (plmn.length = 5 ∨ plmn.length = 6) ∧ ∀ c ∈ plmn, isDigit 10 c = true := by
  simpa [plmnOk] using ok

/-! ## Hex digits -/

theorem hexValue_digit {c : UInt8} (digit : isDigit 10 c = true) :
    hexValue (hexDigit (c.toNat / 16)) = some (c.toNat / 16) ∧
      hexValue (hexDigit (c.toNat % 16)) = some (c.toNat % 16) := by
  have all : ∀ n < 58, 48 ≤ n → hexValue (hexDigit (n / 16)) = some (n / 16) ∧
      hexValue (hexDigit (n % 16)) = some (n % 16) := by decide
  simp only [isDigit, Bool.and_eq_true, decide_eq_true_eq] at digit
  exact all c.toNat (by omega) (by omega)

/-- Hex digits are read back, as many octets as there is room for. -/
theorem hexNibbles_bytesToHex {max : Nat} (rest : Bytes) :
    ∀ {digits out : Bytes}, (∀ c ∈ digits, isDigit 10 c = true) → out.length ≤ max →
      max ≤ out.length + digits.length →
      hexNibbles max (bytesToHex digits ++ rest) out = out ++ digits.take (max - out.length) := by
  intro digits
  induction digits with
  | nil =>
    intro out _ room full
    rw [length_nil, Nat.add_zero] at full
    rw [take_nil, append_nil]
    cases rest with
    | nil => rfl
    | cons c rest =>
      show hexNibbles max (c :: rest) out = out
      rw [hexNibbles, if_neg (by omega)]
  | cons c digits ih =>
    intro out allDigits room full
    obtain ⟨high, low⟩ := hexValue_digit (allDigits c mem_cons_self)
    rw [length_cons] at full
    by_cases last : out.length = max
    · have full : max - out.length = 0 := by omega
      rw [full, take_zero, append_nil]
      show hexNibbles max (hexDigit (c.toNat / 16) :: _) out = out
      rw [hexNibbles, if_neg (by omega)]
    · have octet : UInt8.ofNat (c.toNat / 16 * 16 + c.toNat % 16) = c := by
        rw [Nat.div_add_mod', UInt8.ofNat_toNat]
      have turn : hexNibbles max (bytesToHex (c :: digits) ++ rest) out =
          hexNibbles max (bytesToHex digits ++ rest) (out ++ [c]) := by
        show hexNibbles max (hexDigit (c.toNat / 16) :: hexDigit (c.toNat % 16) ::
          (bytesToHex digits ++ rest)) out = _
        rw [hexNibbles, if_pos (by omega), high]
        dsimp only
        rw [low, getD_some, octet]
      have left : max - out.length = max - (out ++ [c]).length + 1 := by
        rw [length_append, length_singleton]
        omega
      rw [turn, ih (fun d inside => allDigits d (mem_cons_of_mem c inside))
        (by rw [length_append, length_singleton]; omega)
        (by rw [length_append, length_singleton]; omega), left, take_succ_cons,
        append_assoc]
      rfl

theorem length_bytesToHex (bytes : Bytes) : (bytesToHex bytes).length = 2 * bytes.length := by
  induction bytes with
  | nil => rfl
  | cons b bytes ih =>
    show (bytesToHex bytes).length + 2 = _
    rw [ih, length_cons]
    omega

/-! ## Selection by hand -/

theorem commandOf_quote (short : line.length < 599) :
    commandOf (line ++ ascii "\"") = line ++ ascii "\"" := by
  have last : (line ++ ascii "\"").getLast? = some 34 := getLast?_concat
  rw [commandOf, if_neg (by rw [last]; simp), take_of_length_le]
  rw [length_append]
  exact short

/-- The network a line selects by hand, if it names one. -/
def selectedByHand (host : Host) (line : Bytes) : Option Bytes :=
  match commandOf line with
  | 43 :: cmd => manualPlmn host cmd
  | _ => none

theorem handPlmn_length (digits : Bytes) : (handPlmn host digits).length = 3 := by
  simp [handPlmn]

theorem cstr_length_le (text : Bytes) : (cstr text).length ≤ text.length :=
  (takeWhile_sublist _).length_le

/-- No network's number is that short. -/
theorem plmnOk_selected {cmd : Bytes} (named : manualPlmn host cmd = some p) :
    plmnOk p = false := by
  obtain ⟨digits, -, isName⟩ := bind_eq_some_iff.mp named
  obtain ⟨-, isPlmn⟩ := ite_none_right_eq_some.mp isName
  obtain rfl := some.inj isPlmn
  have short := cstr_length_le (handPlmn host digits)
  rw [handPlmn_length] at short
  by_contra ok
  have length := (plmnOk_digits (Bool.not_eq_false _ ▸ ok)).1
  omega

theorem dispatch_cops (mode : Mode) (m : Modem) (ch : Nat) (digits : Bytes) :
    dispatch (commandTable host mode m ch) (ascii "cops=1,2,\"" ++ digits) =
      some (copsManual host m digits, [atOk ch]) := by
  rfl

theorem campUpdate_plmn (m : Modem) : (campUpdate m).reg.plmn = m.reg.plmn := by
  unfold campUpdate
  dsimp only
  repeat' split
  all_goals rfl

theorem regSchedule_plmn (m : Modem) : (regSchedule m).reg.plmn = m.reg.plmn := by
  unfold regSchedule
  split
  · rfl
  · rfl

theorem copsManual_plmn (m : Modem) {digits : Bytes}
    (named : (handPlmn host digits).getD 0 0 ≠ 0 ∧ (handPlmn host digits).getD 1 0 ≠ 0) :
    (copsManual host m digits).reg.plmn = cstr (handPlmn host digits) := by
  have set : copsManual host m digits =
      regSchedule { m with reg := { m.reg with plmn := cstr (handPlmn host digits) } } :=
    congrArg regSchedule (if_pos named)
  rw [set, regSchedule_plmn]

/-- A line that names a network by hand sets it. -/
theorem atCommand_selects (mode : Mode) (m : Modem) (ch : Nat)
    (selects : selectedByHand host line = some p) :
    (atCommand host mode m ch line).1.reg.plmn = p := by
  unfold selectedByHand at selects
  split at selects
  · next cmd isCmd =>
    obtain ⟨digits, isArg, isName⟩ := bind_eq_some_iff.mp selects
    obtain ⟨named, isPlmn⟩ := ite_none_right_eq_some.mp isName
    obtain rfl := some.inj isPlmn
    obtain rfl := argAfter_eq_some isArg
    have line' : atCommandLine host mode m ch line =
        plusCommand host mode m ch (ascii "cops=1,2,\"" ++ digits) := by
      unfold atCommandLine
      rw [isCmd]
      rfl
    show (campUpdate (atCommandLine host mode m ch line).1).reg.plmn = _
    rw [campUpdate_plmn, line', plusCommand, dispatch_cops]
    exact copsManual_plmn _ named
  · cases selects

/-- The digits of a network's number, selected by hand: the first three are taken. -/
theorem selectedByHand_plmn (ok : plmnOk p = true) :
    selectedByHand host (ascii "+cops=1,2,\"" ++ strToHexstr p 17 ++ ascii "\"") =
      some (p.take 3) := by
  obtain ⟨length, digits⟩ := plmnOk_digits ok
  have whole : strToHexstr p 17 = bytesToHex p := by
    rw [strToHexstr, take_of_length_le (by omega)]
  have read : hexNibbles 3 (bytesToHex p ++ ascii "\"") [] = p.take 3 :=
    hexNibbles_bytesToHex _ digits (Nat.zero_le 3) (by rw [length_nil]; omega)
  obtain ⟨a, b, c, rest, rfl⟩ : ∃ a b c rest, p = a :: b :: c :: rest := by
    match p, length with
    | a :: b :: c :: rest, _ => exact ⟨a, b, c, rest, rfl⟩
  have nonzero : ∀ d ∈ [a, b, c], d ≠ 0 := by
    rintro d inside rfl
    have digit := digits 0 (by simp only [mem_cons, mem_nil_iff] at inside ⊢; tauto)
    exact absurd digit (by decide)
  have name : handPlmn host (bytesToHex (a :: b :: c :: rest) ++ ascii "\"") = [a, b, c] := by
    rw [handPlmn, read]
    rfl
  have isCmd : commandOf (ascii "+cops=1,2,\"" ++ strToHexstr (a :: b :: c :: rest) 17 ++
      ascii "\"") = 43 :: (ascii "cops=1,2,\"" ++ (bytesToHex (a :: b :: c :: rest) ++
        ascii "\"")) := by
    rw [whole, commandOf_quote]
    · rfl
    · rw [length_append, length_bytesToHex]
      exact Nat.lt_of_le_of_lt (Nat.add_le_add_left (by omega : _ ≤ 12) _) (by decide)
  rw [selectedByHand, isCmd]
  show manualPlmn host _ = _
  rw [manualPlmn, argAfter_append, bind_some, name, if_pos ⟨nonzero a (by simp),
    nonzero b (by simp)⟩, cstr, takeWhile_eq_self_iff.mpr]
  · rfl
  · simpa using nonzero

/-! ## Runs -/

/-- The number stays one of a network, and so does the location the SIM learns. -/
structure Located (m m' : Modem) : Prop where
  plmn : plmnOk m.reg.plmn = true → plmnOk m'.reg.plmn = true
  loci : plmnOk m.reg.plmn = true →
    m'.sim.lociPlmn = m.sim.lociPlmn ∨ plmnOk m'.sim.lociPlmn = true

namespace Located

variable {m m' : Modem}

theorem of_same (reg : m'.reg.plmn = m.reg.plmn) (sim : m'.sim.lociPlmn = m.sim.lociPlmn) :
    Located m m' :=
  ⟨fun ok => reg ▸ ok, fun _ => .inl sim⟩

theorem of_board (same : SameBoard m m') : Located m m' := by
  have quiet := Quiet.of_board same
  exact of_same (congrArg Reg.plmn quiet.reg) (congrArg Sim.lociPlmn quiet.sim)

theorem trans {m₁ m₂ m₃ : Modem} (first : Located m₁ m₂) (second : Located m₂ m₃) :
    Located m₁ m₃ where
  plmn ok := second.plmn (first.plmn ok)
  loci ok := by
    rcases second.loci (first.plmn ok) with same | written
    · rw [same]
      exact first.loci ok
    · exact .inr written

theorem walk (ch : Nat) : FullWalk ch Located where
  refl m := of_same rfl rfl
  trans := trans
  rest same _ _ := of_board same
  chan _ _ _ _ _ := of_same rfl rfl
  release _ _ := of_same rfl rfl
  temperature _ _ := of_same rfl rfl
  zone _ _ := of_same rfl rfl
  reg m r _ _ named := ⟨fun ok => named.elim (fun same => same ▸ ok) id, fun _ => .inl rfl⟩
  startMux _ := of_same rfl rfl
  sim m s located := ⟨id, fun ok => located.imp id fun written => by
    rw [show s.lociPlmn = m.reg.plmn from written.trans (plmnOk_take ok)]
    exact ok⟩
  learn m cmd := by
    unfold learnChannel
    repeat' split
    all_goals exact of_same rfl rfl
  gps _ _ _ := of_same rfl rfl

end Located

/-- A line that does not name a network by hand, a control, time that passes, and the search of
a tick. -/
inductive Modem.OperatorStep (host : Host) : Modem → Modem → Prop where
  | line (m : Modem) (mode : Mode) (ch : Nat) {line : Bytes}
      (other : selectedByHand host line = none) :
      OperatorStep host m (atCommand host mode m ch line).1
  | control {m : Modem} {change : Control} {o : Out} (accepted : m.control change = some o) :
      OperatorStep host m o.1
  | clock (m : Modem) (now : Int) : OperatorStep host m { m with nowMs := now }
  | search (m : Modem) : OperatorStep host m (campUpdate m)

theorem located_atCommand (mode : Mode) (m : Modem) (ch : Nat)
    (other : selectedByHand host line = none) : Located m (atCommand host mode m ch line).1 := by
  refine (Located.walk ch).atCommand m .of_board mode fun cmd isCmd _ _ named => ?_
  rw [selectedByHand, isCmd] at other
  exact absurd (other.symm.trans named) (by simp)

theorem Modem.OperatorStep.located {m m' : Modem} (step : OperatorStep host m m') :
    Located m m' := by
  cases step with
  | line mode ch other => exact located_atCommand mode m ch other
  | control accepted => exact (Located.walk 0).control accepted
  | clock now => exact .of_same rfl rfl
  | search => exact (Located.walk 0).campUpdate m

/-! ## The location in the file -/

/-- A location is read back from its line. -/
theorem scanLoci_plmn (ok : plmnOk p = true) :
    scanLoci (10 :: (ascii "loci " ++ p ++ [10])) = some p := by
  obtain ⟨length, digits⟩ := plmnOk_digits ok
  obtain ⟨c, rest, rfl⟩ := exists_cons_of_length_pos (show 0 < p.length by omega)
  have first := isSpace_of_isDigit (by decide) (digits c mem_cons_self)
  have skipped : (32 :: (c :: rest ++ [10]) : Bytes).dropWhile isSpace = c :: rest ++ [10] := by
    rw [dropWhile_cons_of_pos (by decide), cons_append,
      dropWhile_cons_of_neg (by simp [first.1])]
  have taken : (c :: rest ++ [10]).takeWhile (isDigit 10) = c :: rest := by
    rw [takeWhile_append_of_pos digits]
    exact append_nil _
  have lit : litScan (ascii "loci")
      ((10 :: (ascii "loci " ++ (c :: rest) ++ [10])).dropWhile isSpace) =
      .ok (32 :: (c :: rest ++ [10])) := litScan_append (ascii "loci") _
  unfold scanLoci
  rw [lit]
  dsimp only
  rw [skipped, taken, plmnOk_take ok, if_pos (by omega)]

/-- What is saved of a card's location is loaded. -/
theorem Sim.load_lociPlmn {s : Sim} (codes : s.CodesOk) (ok : plmnOk s.lociPlmn = true) :
    (Sim.load { s with fileSet := true, file := some s.text }).lociPlmn = s.lociPlmn := by
  have nonempty : s.lociPlmn ≠ [] := by
    intro missing
    rw [missing] at ok
    exact absurd ok (by decide)
  rw [Sim.load_some rfl rfl, Sim.readFrom_text codes, if_neg nonempty, scanLoci_plmn ok]
  rfl

/-- A network selected by hand is cut to three digits and so never the one selected; a line keeps
the number one of a network exactly if it does not select one by hand; in every run without such
a line it stays one, every location the SIM learns is one, and a card with such a location is
read back from its file with it. -/
theorem manual_selection_cuts_plmn (host : Host) :
    (∀ mode m ch p, plmnOk p = true →
      (atCommand host mode m ch
        (ascii "+cops=1,2,\"" ++ strToHexstr p 17 ++ ascii "\"")).1.reg.plmn = p.take 3 ∧
      p.take 3 ≠ p) ∧
    (∀ mode m ch line, plmnOk m.reg.plmn = true →
      (plmnOk (atCommand host mode m ch line).1.reg.plmn = true ↔
        selectedByHand host line = none)) ∧
    (∀ m m', plmnOk m.reg.plmn = true → ReflTransGen (Modem.OperatorStep host) m m' →
      plmnOk m'.reg.plmn = true ∧
        (m'.sim.lociPlmn = m.sim.lociPlmn ∨ plmnOk m'.sim.lociPlmn = true)) ∧
    ∀ s : Sim, s.CodesOk → plmnOk s.lociPlmn = true →
      (Sim.load { s with fileSet := true, file := some s.text }).lociPlmn = s.lociPlmn := by
  refine ⟨?_, ?_, ?_, fun s codes ok => Sim.load_lociPlmn codes ok⟩
  · intro mode m ch p ok
    refine ⟨atCommand_selects mode m ch (selectedByHand_plmn ok), fun same => ?_⟩
    have length := (plmnOk_digits ok).1
    have cut := congrArg List.length same
    rw [List.length_take] at cut
    omega
  · intro mode m ch line ok
    cases selects : selectedByHand host line with
    | none => exact iff_of_true ((located_atCommand mode m ch selects).plmn ok) rfl
    | some p =>
      refine iff_of_false ?_ (by simp)
      rw [atCommand_selects mode m ch selects]
      unfold selectedByHand at selects
      split at selects
      · rw [plmnOk_selected selects]
        decide
      · cases selects
  · intro m m' ok steps
    have located : Located m m' := by
      induction steps with
      | refl => exact .of_same rfl rfl
      | tail _ step ih => exact ih.trans step.located
    exact ⟨located.plmn ok, located.loci ok⟩

/-- Selecting `310410` by hand leaves `310`, which is no network's number. -/
theorem plmn_310410_cut :
    ∃ (host : Host) (mode : Mode) (m : Modem), plmnOk m.reg.plmn = true ∧
      plmnOk (ascii "310410") = true ∧
      (atCommand host mode m 1
        (ascii "+cops=1,2,\"" ++ strToHexstr (ascii "310410") 17 ++ ascii "\"")).1.reg.plmn =
          ascii "310" ∧ plmnOk (ascii "310") = false := by
  refine ⟨bareHost, ⟨true, true⟩,
    { reg := { plmn := ascii "00101" } }, ?_⟩
  decide +kernel

end QemuIos.Baseband

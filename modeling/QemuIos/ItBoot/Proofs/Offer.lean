import QemuIos.ItBoot.Offer

/-!
# What a parsed offer holds

Every number of an accepted offer is a `long` that is not negative, every path is safe, and no
string of it holds a byte that ends a token. The facts are those of `parseLine` (`LineEffect`
says once what a line can do), carried over the lines of a text by `parseOffer_rule`.
-/

namespace QemuIos.ItBoot
open CText Option List

/-- A value of the guest's `long`. -/
def IsLong (n : Int) : Prop := -((longMax : Int) + 1) ≤ n ∧ n ≤ longMax

/-- A serial as `parse_long` reads it. -/
def IsSerial (n : Int) : Prop := 0 ≤ n ∧ n ≤ longMax

theorem IsSerial.isLong {n : Int} (serial : IsSerial n) : IsLong n := by
  obtain ⟨low, high⟩ := serial
  exact ⟨by omega, high⟩

theorem isLong_minus_one : IsLong (-1) := by
  unfold IsLong longMax
  omega

theorem saturate_isLong (n : Number) : IsLong (n.saturate longMax) := by
  unfold IsLong Number.saturate
  split <;> split <;> omega

theorem parseLong_le {s : Bytes} {n : Nat} (read : parseLong s = some n) : n ≤ longMax := by
  unfold parseLong at read
  split at read
  · cases read
  have range : IsLong (strtol longMax s).1 := by
    unfold strtol
    split
    · unfold IsLong longMax
      omega
    · exact saturate_isLong _
  rcases result : strtol longMax s with ⟨v, rest, erange⟩
  rw [result] at read range
  simp only at read
  split at read
  · cases read
  · cases read
    have high : v ≤ longMax := range.2
    omega

/-- A printed serial is read back. -/
theorem parseLong_decimal {n : Int} (serial : IsSerial n) :
    parseLong (decimal n) = some n.toNat := by
  have nonempty : decimal n ≠ [] := by
    cases n with
    | ofNat n => exact natDecimal_ne_nil n
    | negSucc n => simp [decimal]
  have read : strtol longMax (decimal n ++ []) = (n, [], false) :=
    strtol_decimal serial.isLong.1 serial.isLong.2 (by simp)
  rw [append_nil] at read
  have positive : ¬ n < 0 := by
    have := serial.1
    omega
  simp [parseLong, nonempty, read, positive]

/-- A byte that is part of a token of an offer. -/
def isTokenByte (c : UInt8) : Bool := c != 0 && c != 10 && !isBlank c

/-- What `parse_offer` checks of an entry, and that its strings are tokens. -/
structure Entry.Checked (e : Entry) : Prop where
  idx : e.idx ≤ longMax
  mode : e.mode ≤ 0o7777
  size : e.size ≤ fileMax
  path : safeRel e.path
  sha : isHex64 e.sha
  pathBytes : ∀ c ∈ e.path, isTokenByte c
  targetBytes : ∀ c ∈ e.target, isTokenByte c
  target : e.kind = .hook → safeAbs e.target
  plain : e.kind ≠ .hook → e.target = [] ∧ e.respring = false

/-- What one line after the header can do to an offer. -/
inductive LineEffect (o : Offer) (word : Bytes) (args : List Bytes) : Offer → Prop
  | ignored : LineEffect o word args o
  | build (build : Bytes) : LineEffect o word args { o with build }
  | serial (s : Nat) : s ≤ longMax → LineEffect o word args { o with serial := s }
  | good (s : Nat) : s ≤ longMax → o.good.length < maxSerials →
      LineEffect o word args { o with good := o.good ++ [(s : Int)] }
  | bad (s : Nat) : s ≤ longMax → o.bad.length < maxSerials →
      LineEffect o word args { o with bad := o.bad ++ [(s : Int)] }
  | entry (kind : Kind) (idx path mode size sha : Bytes) (more : List Bytes) (e : Entry) :
      Word.ofToken word = .payload kind → args = idx :: path :: mode :: size :: sha :: more →
      o.entries.length ≠ maxEnt → parseEntry kind idx path mode size sha more = some e →
      LineEffect o word args { o with entries := o.entries ++ [e] }

theorem parseLine_effect {o o' : Offer} {word : Bytes} {args : List Bytes}
    (taken : parseLine o word args = some o') : LineEffect o word args o' := by
  unfold parseLine at taken
  split at taken
  · cases taken
    exact .build _
  · obtain ⟨s, read, rfl⟩ := map_eq_some_iff.mp taken
    exact .serial s (parseLong_le read)
  · obtain ⟨s, read, taken⟩ := bind_eq_some_iff.mp taken
    split at taken
    · cases taken
      exact .good s (parseLong_le read) (by rename_i h; exact h.2)
    split at taken
    · cases taken
      exact .bad s (parseLong_le read) (by rename_i h; exact h.2)
    · cases taken
      exact .ignored
  · rename_i kind idx path mode size sha more isPayload
    obtain ⟨_, room, taken⟩ := bind_eq_some_iff.mp taken
    obtain ⟨e, read, taken⟩ := bind_eq_some_iff.mp taken
    cases taken
    exact .entry kind idx path mode size sha more e isPayload rfl (by simpa using room) read
  · cases taken
    exact .ignored

theorem parseEntry_inv {kind : Kind} {idx path mode size sha : Bytes} {more : List Bytes}
    {e : Entry} (read : parseEntry kind idx path mode size sha more = some e) :
    parseLong idx = some e.idx ∧ parseLong size = some e.size ∧ e.kind = kind ∧ e.path = path ∧
      e.sha = sha ∧ e.mode ≤ 0o7777 ∧ e.size ≤ fileMax ∧ safeRel path ∧ isHex64 sha ∧
      (kind ≠ .hook → e.target = [] ∧ e.respring = false) ∧
      (kind = .hook → ∃ flags, more = e.target :: flags ∧ safeAbs e.target) := by
  unfold parseEntry at read
  rcases result : strtoul ulongMax 8 mode with ⟨bits, modeEnd⟩
  rw [result] at read
  simp only at read
  obtain ⟨index, isIdx, read⟩ := bind_eq_some_iff.mp read
  obtain ⟨_, modeOk, read⟩ := bind_eq_some_iff.mp read
  obtain ⟨length, isSize, read⟩ := bind_eq_some_iff.mp read
  obtain ⟨_, fieldsOk, read⟩ := bind_eq_some_iff.mp read
  have modeOk : modeEnd = [] ∧ bits ≤ 0o7777 := by simpa using modeOk
  have fieldsOk : length ≤ fileMax ∧ safeRel path ∧ isHex64 sha := by simpa using fieldsOk
  obtain ⟨small, pathOk, shaOk⟩ := fieldsOk
  split at read
  · cases read
  · obtain ⟨_, targetOk, read⟩ := bind_eq_some_iff.mp read
    cases read
    exact ⟨isIdx, isSize, rfl, rfl, rfl, modeOk.2, small, pathOk, shaOk, by simp,
      fun _ => ⟨_, rfl, by simpa using targetOk⟩⟩
  · rename_i notEmpty notCons
    cases read
    refine ⟨isIdx, isSize, rfl, rfl, rfl, modeOk.2, small, pathOk, shaOk, by simp, ?_⟩
    intro isHook
    cases more with
    | nil => exact absurd rfl (notEmpty isHook)
    | cons target flags => exact absurd rfl (notCons target flags isHook)

theorem parseEntry_checked {kind : Kind} {idx path mode size sha : Bytes} {more : List Bytes}
    {e : Entry} (read : parseEntry kind idx path mode size sha more = some e)
    (pathBytes : ∀ c ∈ path, isTokenByte c) (moreBytes : ∀ t ∈ more, ∀ c ∈ t, isTokenByte c) :
    e.Checked := by
  obtain ⟨isIdx, -, isKind, isPath, isSha, modeOk, small, pathOk, shaOk, plain, hook⟩ :=
    parseEntry_inv read
  subst isPath isSha isKind
  refine ⟨parseLong_le isIdx, modeOk, small, pathOk, shaOk, pathBytes, ?_, ?_, plain⟩
  · intro c member
    by_cases isHook : e.kind = .hook
    · obtain ⟨flags, rfl, -⟩ := hook isHook
      exact moreBytes e.target (by simp) c member
    · rw [(plain isHook).1] at member
      cases member
  · intro isHook
    obtain ⟨_, -, safe⟩ := hook isHook
    exact safe

theorem lineTokens_bytes {text line : Bytes} (isLine : line ∈ tokens (· == 10) (cstr text)) :
    ∀ t ∈ lineTokens line, ∀ c ∈ t, isTokenByte c := by
  intro t isToken c inToken
  obtain ⟨-, noBlank, inLine⟩ := mem_tokens (mem_of_mem_take isToken)
  obtain ⟨-, noNewline, inText⟩ := mem_tokens isLine
  have notNul : (c != 0) = true := by
    have inString := inText c (inLine c inToken)
    simpa using mem_takeWhile_imp inString
  have notNewline := noNewline c (inLine c inToken)
  simp only [isTokenByte, notNul, noBlank c inToken, Bool.and_eq_true, Bool.not_false, and_true,
    true_and]
  simpa using notNewline

/-- What holds of the empty offer and is kept by every line holds of an accepted offer. -/
theorem parseOffer_rule {P : Offer → Prop} {text : Bytes} {o : Offer}
    (parsed : parseOffer text = some o) (init : P {})
    (step : ∀ o o' word args, (∀ t ∈ word :: args, ∀ c ∈ t, isTokenByte c) →
      LineEffect o word args o' → P o → P o') : P o ∧ 0 ≤ o.serial := by
  have lines : ∀ (ls : List Bytes) (seen seen' : Bool × Offer),
      (∀ line ∈ ls, ∀ t ∈ lineTokens line, ∀ c ∈ t, isTokenByte c) →
      ls.foldlM parseStep seen = some seen' → P seen.2 → P seen'.2 := by
    intro ls
    induction ls with
    | nil =>
      rintro seen _ - ⟨⟩ holds
      exact holds
    | cons line ls ih =>
      intro seen seen' bytes folded holds
      rw [foldlM_cons] at folded
      obtain ⟨next, stepped, folded⟩ := bind_eq_some_iff.mp folded
      refine ih next seen' (fun l member => bytes l (mem_cons_of_mem _ member)) folded ?_
      have lineBytes := bytes line mem_cons_self
      unfold parseStep at stepped
      split at stepped
      · cases stepped
        exact holds
      · rename_i word args isLine
        rw [isLine] at lineBytes
        split at stepped
        · obtain ⟨o', taken, rfl⟩ := map_eq_some_iff.mp stepped
          exact step _ _ word args lineBytes (parseLine_effect taken) holds
        · split at stepped
          · cases stepped
            exact holds
          · cases stepped
  unfold parseOffer at parsed
  obtain ⟨⟨header, o'⟩, folded, parsed⟩ := bind_eq_some_iff.mp parsed
  obtain ⟨_, accepted, parsed⟩ := bind_eq_some_iff.mp parsed
  cases parsed
  have serial : header = true ∧ 0 ≤ o.serial := by simpa using accepted
  exact ⟨lines _ _ _ (fun line isLine => lineTokens_bytes isLine) folded init, serial.2⟩

/-- What holds of every accepted offer. -/
structure Offer.Checked (o : Offer) : Prop where
  serial : IsSerial o.serial
  good : ∀ s ∈ o.good, IsSerial s
  bad : ∀ s ∈ o.bad, IsSerial s
  badCount : o.bad.length ≤ maxSerials
  entries : ∀ e ∈ o.entries, e.Checked

theorem parseOffer_checked {text : Bytes} {o : Offer} (parsed : parseOffer text = some o) :
    o.Checked := by
  have rule := parseOffer_rule parsed
    (P := fun o => o.serial ≤ longMax ∧ (∀ s ∈ o.good, IsSerial s) ∧ (∀ s ∈ o.bad, IsSerial s) ∧
      o.bad.length ≤ maxSerials ∧ ∀ e ∈ o.entries, e.Checked)
    (by simp [longMax]) ?_
  · obtain ⟨⟨high, good, bad, count, entries⟩, low⟩ := rule
    exact ⟨⟨low, high⟩, good, bad, count, entries⟩
  · rintro o o' word args bytes effect ⟨serial, good, bad, count, entries⟩
    cases effect with
    | ignored => exact ⟨serial, good, bad, count, entries⟩
    | build _ => exact ⟨serial, good, bad, count, entries⟩
    | serial s small => exact ⟨Int.ofNat_le.mpr small, good, bad, count, entries⟩
    | good s small room =>
      refine ⟨serial, ?_, bad, count, entries⟩
      rw [forall_mem_append]
      exact ⟨good, by simpa [IsSerial] using small⟩
    | bad s small room =>
      refine ⟨serial, good, ?_, by simpa using room, entries⟩
      rw [forall_mem_append]
      exact ⟨bad, by simpa [IsSerial] using small⟩
    | entry kind idx path mode size sha more e isPayload isArgs room read =>
      subst isArgs
      refine ⟨serial, good, bad, count, ?_⟩
      rw [forall_mem_append]
      refine ⟨entries, ?_⟩
      have checked : e.Checked :=
        parseEntry_checked read (bytes path (by simp)) fun t member => bytes t (by simp [member])
      simpa using checked

end QemuIos.ItBoot

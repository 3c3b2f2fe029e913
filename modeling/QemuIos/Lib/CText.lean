import Mathlib

/-!
# C text

Byte strings as the C library reads and writes them: `strtok_r` and `g_strsplit` loops,
`strtol`, `strtoul`, the conversions of `sscanf` and the `%ld` of `snprintf`. Nothing here
names a program; the widths of the integer types are parameters. The lemmas say how the
printers and the scanners undo each other and how two tokenizers over one text relate.
-/

namespace QemuIos.CText

open List UInt8 Nat

/-- A run of bytes: file contents, a path, a token. -/
abbrev Bytes := List UInt8

instance lawfulBEq_bytes : LawfulBEq Bytes := inferInstance

/-- The bytes of an ASCII literal. -/
def ascii (text : String) : Bytes := text.toList.map fun c => UInt8.ofNat c.toNat

/-- The C string at the start of a buffer: it ends at the first NUL. -/
def cstr (buffer : Bytes) : Bytes := buffer.takeWhile (· != 0)

/-- `isspace` in the C locale. -/
def isSpace (c : UInt8) : Bool := c == 32 || (9 ≤ c && c ≤ 13)

/-- The tokens a `strtok_r` loop visits: the maximal runs without a delimiter. The same list
is what remains of `g_strsplit_set` once its empty strings are skipped. -/
def tokens (delim : UInt8 → Bool) (text : Bytes) : List Bytes :=
  (text.splitOnP delim).filter fun token => !token.isEmpty

/-- A decimal or octal digit. -/
def isDigit (base : Nat) (c : UInt8) : Bool := 48 ≤ c.toNat && c.toNat < 48 + base

/-- The value of a run of digits. -/
def digitsValue (base : Nat) (digits : Bytes) : Nat :=
  digits.foldl (fun n c => base * n + (c.toNat - 48)) 0

/-- What `strtol` and `%d` find: a sign, a value, and the text behind the digits. -/
structure Number where
  neg : Bool
  value : Nat
  rest : Bytes
  deriving DecidableEq, Repr

/-- The optional sign of a number. -/
def scanSign : Bytes → Bool × Bytes
  | 45 :: rest => (true, rest)
  | 43 :: rest => (false, rest)
  | text => (false, text)

/-- The subject sequence of `strtol`: white space, a sign, then at least one digit. -/
def scanNumber (base : Nat) (text : Bytes) : Option Number :=
  let (neg, body) := scanSign (text.dropWhile isSpace)
  let digits := body.takeWhile (isDigit base)
  if digits.isEmpty then none
  else some ⟨neg, digitsValue base digits, body.dropWhile (isDigit base)⟩

/-- The integer a number stands for, saturated to a signed type whose maximum is `max`. -/
def Number.saturate (max : Nat) (n : Number) : Int :=
  if n.neg then (if n.value ≤ max + 1 then -(n.value : Int) else -((max : Int) + 1))
  else if n.value ≤ max then n.value else max

/-- Whether the conversion sets `errno` to `ERANGE`. -/
def Number.outOfRange (max : Nat) (n : Number) : Bool :=
  if n.neg then max + 1 < n.value else max < n.value

/-- `strtol(text, &end, 10)`: the value, the text at `end`, and whether `errno` is set. -/
def strtol (max : Nat) (text : Bytes) : Int × Bytes × Bool :=
  match scanNumber 10 text with
  | none => (0, text, false)
  | some n => (n.saturate max, n.rest, n.outOfRange max)

/-- `strtoul(text, &end, base)` for an unsigned type whose maximum is `max`: a minus sign
negates modulo the type, an overflow gives the maximum. -/
def strtoul (max base : Nat) (text : Bytes) : Nat × Bytes :=
  match scanNumber base text with
  | none => (0, text)
  | some n =>
    (if max < n.value then max else if n.neg then (max + 1 - n.value) % (max + 1) else n.value,
      n.rest)

/-- `%d` or `%ld`. -/
def scanInt (max : Nat) (text : Bytes) : Option (Int × Bytes) :=
  (scanNumber 10 text).map fun n => (n.saturate max, n.rest)

/-- `%<width>s`: white space is skipped, then one to `width` other bytes are taken. -/
def scanWord (width : Nat) (text : Bytes) : Option (Bytes × Bytes) :=
  let body := text.dropWhile isSpace
  let word := (body.takeWhile fun c => !isSpace c).take width
  if word.isEmpty then none else some (word, body.drop word.length)

/-- `%lu`. -/
def natDecimal (n : Nat) : Bytes := (Nat.toDigits 10 n).map fun c => UInt8.ofNat c.toNat

/-- `%ld`. -/
def decimal : Int → Bytes
  | .ofNat n => natDecimal n
  | .negSucc n => 45 :: natDecimal (n + 1)

/-! ## Tokens -/

variable {delim delim' : UInt8 → Bool}

@[simp] theorem tokens_nil : tokens delim [] = [] := by simp [tokens]

theorem tokens_append_cons (left right : Bytes) {sep : UInt8} (isSep : delim sep) :
    tokens delim (left ++ sep :: right) = tokens delim left ++ tokens delim right := by
  simp [tokens, splitOnP_append_cons _ _ isSep]

/-- A nonempty text without a delimiter is its own only token. -/
theorem tokens_single {word : Bytes} (nonempty : word ≠ [])
    (free : ∀ c ∈ word, delim c = false) : tokens delim word = [word] := by
  have notEmpty : word.isEmpty = false := by simpa using nonempty
  simp [tokens, splitOnP_eq_singleton free, notEmpty]

theorem tokens_word_cons {word : Bytes} (nonempty : word ≠ [])
    (free : ∀ c ∈ word, delim c = false) (rest : Bytes) {sep : UInt8} (isSep : delim sep) :
    tokens delim (word ++ sep :: rest) = word :: tokens delim rest := by
  rw [tokens_append_cons _ _ isSep, tokens_single nonempty free]
  rfl

/-- Every text is free of delimiters or splits at its first one. -/
theorem free_or_split (text : Bytes) :
    (∀ c ∈ text, delim c = false) ∨
      ∃ word sep rest, text = word ++ sep :: rest ∧ delim sep ∧ ∀ c ∈ word, delim c = false := by
  induction text with
  | nil => exact .inl (by simp)
  | cons c text ih =>
    cases isSep : delim c with
    | true => exact .inr ⟨[], c, text, rfl, isSep, by simp⟩
    | false =>
      rcases ih with free | ⟨word, sep, rest, rfl, isSep', free⟩
      · exact .inl (by simpa [isSep] using free)
      · exact .inr ⟨c :: word, sep, rest, rfl, isSep', by simpa [isSep] using free⟩

/-- Induction along the delimiters of a text. -/
theorem delim_induction {motive : Bytes → Prop}
    (last : ∀ word, (∀ c ∈ word, delim c = false) → motive word)
    (step : ∀ word sep rest, (∀ c ∈ word, delim c = false) → delim sep = true →
      motive rest → motive (word ++ sep :: rest)) (text : Bytes) : motive text := by
  induction size : text.length using Nat.strongRecOn generalizing text with
  | ind n ih =>
    rcases free_or_split text with free | ⟨word, sep, rest, rfl, isSep, free⟩
    · exact last text free
    · refine step word sep rest free isSep (ih rest.length ?_ rest rfl)
      simp only [length_append, length_cons] at size
      omega

/-- A token is a nonempty run without delimiters, of bytes of the text. -/
theorem mem_tokens {token text : Bytes} (member : token ∈ tokens delim text) :
    token ≠ [] ∧ (∀ c ∈ token, delim c = false) ∧ ∀ c ∈ token, c ∈ text := by
  induction text using delim_induction with
  | last word free =>
    by_cases empty : word = []
    · subst empty
      simp at member
    · rw [tokens_single empty free, mem_singleton] at member
      subst member
      exact ⟨empty, free, fun _ h => h⟩
  | step word sep rest free isSep ih =>
    rw [tokens_append_cons _ _ isSep, mem_append] at member
    rcases member with member | member
    · by_cases empty : word = []
      · subst empty
        simp at member
      · rw [tokens_single empty free, mem_singleton] at member
        subst member
        exact ⟨empty, free, fun c h => mem_append_left _ h⟩
    · obtain ⟨h1, h2, h3⟩ := ih member
      exact ⟨h1, h2, fun c h => mem_append_right _ (mem_cons_of_mem _ (h3 c h))⟩

theorem tokens_of_isPrefix {start text token : Bytes} (begins : start <+: text)
    (member : token ∈ tokens delim start) : ∃ whole ∈ tokens delim text, token <+: whole := by
  induction text using delim_induction generalizing start with
  | last word free =>
    have nonempty : start ≠ [] := by
      rintro rfl
      simp at member
    rw [tokens_single nonempty fun c h => free c (begins.subset h), mem_singleton] at member
    subst member
    have wordNonempty : word ≠ [] := by
      rintro rfl
      exact nonempty (prefix_nil.mp begins)
    exact ⟨word, by simp [tokens_single wordNonempty free], begins⟩
  | step word sep rest free isSep ih =>
    have whole : tokens delim (word ++ sep :: rest) = tokens delim word ++ tokens delim rest :=
      tokens_append_cons _ _ isSep
    -- `start` ends inside the first run, or reaches past its delimiter
    have firstRun : word ++ [sep] <+: word ++ sep :: rest := ⟨rest, by simp⟩
    rcases prefix_or_prefix_of_prefix begins firstRun with short | ⟨more, rfl⟩
    · rcases prefix_concat_iff.mp short with rfl | inWord
      · rw [tokens_append_cons _ _ isSep, tokens_nil, append_nil] at member
        exact ⟨token, by rw [whole]; exact mem_append_left _ member, prefix_rfl⟩
      have nonempty : start ≠ [] := by
        rintro rfl
        simp at member
      rw [tokens_single nonempty fun c h => free c (inWord.subset h),
        mem_singleton] at member
      subst member
      have wordNonempty : word ≠ [] := by
        rintro rfl
        exact nonempty (prefix_nil.mp inWord)
      exact ⟨word, by simp [whole, tokens_single wordNonempty free], inWord⟩
    · have begins' : more <+: rest := by simpa using begins
      rw [append_assoc, singleton_append, tokens_append_cons _ _ isSep,
        mem_append] at member
      rcases member with member | member
      · exact ⟨token, by rw [whole]; exact mem_append_left _ member, prefix_rfl⟩
      · obtain ⟨found, foundIn, isPrefix⟩ := ih begins' member
        exact ⟨found, by rw [whole]; exact mem_append_right _ foundIn, isPrefix⟩

/-! ## Numbers -/

theorem isDigit_natDecimal (n : Nat) : ∀ c ∈ natDecimal n, isDigit 10 c = true := by
  intro c member
  obtain ⟨d, digit, rfl⟩ := mem_map.mp member
  have ascii := isDigit_of_mem_toDigits (by decide) (by decide) digit
  simp only [Char.isDigit, Bool.and_eq_true, decide_eq_true_eq] at ascii
  have low : 48 ≤ d.toNat := ascii.1
  have high : d.toNat ≤ 57 := ascii.2
  have small : (ofNat d.toNat).toNat = d.toNat := by
    simp only [toNat_ofNat']
    omega
  simp only [isDigit, small, Bool.and_eq_true, decide_eq_true_eq]
  omega

theorem natDecimal_ne_nil (n : Nat) : natDecimal n ≠ [] := by
  simp [natDecimal, toDigits_ne_nil]

theorem digitsValue_natDecimal (n : Nat) : digitsValue 10 (natDecimal n) = n := by
  have value : ∀ (cs : List Char) (acc : Nat), (∀ c ∈ cs, c.toNat < 256) →
      (cs.map fun c => ofNat c.toNat).foldl (fun n c => 10 * n + (c.toNat - 48)) acc =
        ofDigitChars 10 cs acc := by
    intro cs
    induction cs with
    | nil => intros; rfl
    | cons c cs ih =>
      intro acc small
      have byte : (ofNat c.toNat).toNat = c.toNat := by
        simp only [toNat_ofNat']
        exact mod_eq_of_lt (small c (by simp))
      rw [map_cons, foldl_cons, ofDigitChars_cons, byte]
      exact ih _ fun d member => small d (mem_cons_of_mem _ member)
  rw [digitsValue, natDecimal, value, ofDigitChars_ten_toDigits]
  intro c member
  have ascii := isDigit_of_mem_toDigits (by decide) (by decide) member
  simp only [Char.isDigit, Bool.and_eq_true, decide_eq_true_eq] at ascii
  have high : c.toNat ≤ 57 := ascii.2
  omega

theorem isSpace_of_isDigit {base : Nat} (small : base ≤ 10) {c : UInt8} (digit : isDigit base c) :
    isSpace c = false ∧ c ≠ 45 ∧ c ≠ 43 := by
  simp only [isDigit, Bool.and_eq_true, decide_eq_true_eq] at digit
  refine ⟨?_, ?_, ?_⟩
  · simp only [isSpace, Bool.or_eq_false_iff, Bool.and_eq_false_iff, beq_eq_false_iff_ne,
      decide_eq_false_iff_not, UInt8.le_iff_toNat_le, ne_eq, ← UInt8.toNat_inj]
    have : (13 : UInt8).toNat = 13 := rfl
    have : (32 : UInt8).toNat = 32 := rfl
    omega
  · rintro rfl
    have : (45 : UInt8).toNat = 45 := rfl
    omega
  · rintro rfl
    have : (43 : UInt8).toNat = 43 := rfl
    omega

/-- A printed natural number is scanned back, up to the first byte that is no digit. -/
theorem takeWhile_natDecimal (n : Nat) {rest : Bytes}
    (stop : ∀ c ∈ rest.head?, isDigit 10 c = false) :
    (natDecimal n ++ rest).takeWhile (isDigit 10) = natDecimal n ∧
      (natDecimal n ++ rest).dropWhile (isDigit 10) = rest := by
  rw [takeWhile_append_of_pos (isDigit_natDecimal n),
    dropWhile_append_of_pos (isDigit_natDecimal n)]
  cases rest with
  | nil => simp
  | cons c rest => simp [stop c (by simp)]

theorem natDecimal_eq_cons (n : Nat) :
    ∃ c cs, natDecimal n = c :: cs ∧ isDigit 10 c := by
  cases digits : natDecimal n with
  | nil => exact absurd digits (natDecimal_ne_nil n)
  | cons c cs => exact ⟨c, cs, rfl, isDigit_natDecimal n c (by simp [digits])⟩

/-- `%ld` prints what `strtol` and `%ld` read: the sign and the value are found, and the text
behind the number is left. -/
theorem scanNumber_decimal (n : Int) {rest : Bytes}
    (stop : ∀ c ∈ rest.head?, isDigit 10 c = false) :
    scanNumber 10 (decimal n ++ rest) = some ⟨decide (n < 0), n.natAbs, rest⟩ := by
  cases n with
  | ofNat n =>
    obtain ⟨c, cs, eq, digit⟩ := natDecimal_eq_cons n
    obtain ⟨noSpace, noMinus, noPlus⟩ := isSpace_of_isDigit (by decide) digit
    obtain ⟨taken, dropped⟩ := takeWhile_natDecimal n stop
    have sign : scanSign ((natDecimal n ++ rest).dropWhile isSpace) =
        (false, natDecimal n ++ rest) := by
      rw [eq, cons_append, dropWhile_cons_of_neg (by simp [noSpace])]
      unfold scanSign
      split <;> simp_all
    have notEmpty : (natDecimal n).isEmpty = false := by simp [natDecimal_ne_nil]
    have natural : decide (Int.ofNat n < 0) = false := by simp
    simp only [scanNumber, decimal, sign, taken, dropped, notEmpty, digitsValue_natDecimal,
      natural]
    rfl
  | negSucc n =>
    obtain ⟨taken, dropped⟩ := takeWhile_natDecimal (n + 1) stop
    have sign : scanSign ((45 :: natDecimal (n + 1) ++ rest).dropWhile isSpace) =
        (true, natDecimal (n + 1) ++ rest) := by
      rw [cons_append, dropWhile_cons_of_neg (by decide)]
      rfl
    have notEmpty : (natDecimal (n + 1)).isEmpty = false := by simp [natDecimal_ne_nil]
    have negative : decide (Int.negSucc n < 0) = true := by simp [Int.negSucc_lt_zero]
    simp only [scanNumber, decimal, sign, taken, dropped, notEmpty, digitsValue_natDecimal,
      negative]
    rfl

/-- What is left behind a number is an end of the text. -/
theorem scanNumber_rest {base : Nat} {text : Bytes} {n : Number}
    (found : scanNumber base text = some n) : n.rest <:+ text := by
  have sign : ∀ body : Bytes, (scanSign body).2 <:+ body := by
    intro body
    unfold scanSign
    split
    · exact suffix_cons ..
    · exact suffix_cons ..
    · exact suffix_rfl
  unfold scanNumber at found
  simp only at found
  split at found
  · cases found
  · cases found
    exact ((dropWhile_suffix _).trans (sign _)).trans (dropWhile_suffix _)

/-- A value of the signed type is not changed by saturation. -/
theorem saturate_inRange {max : Nat} {n : Int} (low : -((max : Int) + 1) ≤ n) (high : n ≤ max)
    (rest : Bytes) :
    (Number.mk (decide (n < 0)) n.natAbs rest).saturate max = n ∧
      (Number.mk (decide (n < 0)) n.natAbs rest).outOfRange max = false := by
  by_cases neg : n < 0
  · simp only [Number.saturate, Number.outOfRange, neg, decide_true, if_true,
      decide_eq_false_iff_not]
    rw [if_pos (by omega)]
    omega
  · simp only [Number.saturate, Number.outOfRange, neg, decide_false, Bool.false_eq_true, if_false,
      decide_eq_false_iff_not]
    rw [if_pos (by omega)]
    omega

theorem strtol_decimal {max : Nat} {n : Int} (low : -((max : Int) + 1) ≤ n) (high : n ≤ max)
    {rest : Bytes} (stop : ∀ c ∈ rest.head?, isDigit 10 c = false) :
    strtol max (decimal n ++ rest) = (n, rest, false) := by
  obtain ⟨value, range⟩ := saturate_inRange low high rest
  simp only [strtol, scanNumber_decimal n stop, value, range]

theorem scanInt_decimal {max : Nat} {n : Int} (low : -((max : Int) + 1) ≤ n) (high : n ≤ max)
    {rest : Bytes} (stop : ∀ c ∈ rest.head?, isDigit 10 c = false) :
    scanInt max (decimal n ++ rest) = some (n, rest) := by
  simp only [scanInt, scanNumber_decimal n stop, Option.map_some,
    (saturate_inRange low high rest).1]

/-- What a number is printed with. -/
theorem mem_decimal {n : Int} {c : UInt8} (member : c ∈ decimal n) : isDigit 10 c ∨ c = 45 := by
  cases n with
  | ofNat n => exact .inl (isDigit_natDecimal n c member)
  | negSucc n =>
    rcases mem_cons.mp member with minus | digit
    · exact .inr minus
    · exact .inl (isDigit_natDecimal (n + 1) c digit)

/-- White space in front of a number is skipped. -/
theorem scanInt_space (max : Nat) {c : UInt8} (space : isSpace c) (text : Bytes) :
    scanInt max (c :: text) = scanInt max text := by
  rw [scanInt, scanInt, scanNumber, scanNumber, dropWhile_cons_of_pos space]

theorem scanWord_space (width : Nat) {c : UInt8} (space : isSpace c) (text : Bytes) :
    scanWord width (c :: text) = scanWord width text := by
  rw [scanWord, scanWord, dropWhile_cons_of_pos space]

/-- A word that ends at white space or at the end of the text is scanned whole. -/
theorem scanWord_append {width : Nat} {word rest : Bytes} (nonempty : word ≠ [])
    (fits : word.length ≤ width) (free : ∀ c ∈ word, isSpace c = false)
    (stop : ∀ c ∈ rest.head?, isSpace c = true) :
    scanWord width (word ++ rest) = some (word, rest) := by
  have skipped : (word ++ rest).dropWhile isSpace = word ++ rest := by
    cases word with
    | nil => exact absurd rfl nonempty
    | cons c word => simp [free c (by simp)]
  have taken : (word ++ rest).takeWhile (fun c => !isSpace c) = word := by
    rw [takeWhile_append_of_pos (by simpa using free)]
    cases rest with
    | nil => simp
    | cons c rest => simp [stop c (by simp)]
  have notEmpty : word.isEmpty = false := by simpa using nonempty
  simp only [scanWord, skipped, taken, take_of_length_le fits, notEmpty]
  simp

/-- The word found is made of at most `width` bytes other than white space. -/
theorem scanWord_spec {width : Nat} {text word rest : Bytes}
    (found : scanWord width text = some (word, rest)) :
    word ≠ [] ∧ word.length ≤ width ∧ (∀ c ∈ word, isSpace c = false) ∧ ∀ c ∈ word, c ∈ text := by
  simp only [scanWord] at found
  split at found
  · cases found
  rename_i notEmpty
  simp only [Option.some.injEq, Prod.mk.injEq] at found
  obtain ⟨rfl, -⟩ := found
  refine ⟨by simpa using notEmpty, by simp, ?_, ?_⟩
  · intro c member
    simpa using mem_takeWhile_imp (mem_of_mem_take member)
  · intro c member
    have inBody := (takeWhile_subset _) (mem_of_mem_take member)
    exact (dropWhile_suffix _).subset inBody

/-- A text that does not begin with white space begins with its first word. -/
theorem scanWord_head {width : Nat} {text word rest : Bytes} {c : UInt8}
    (found : scanWord width text = some (word, rest)) (head : text.head? = some c)
    (notSpace : isSpace c = false) : word.head? = some c := by
  obtain ⟨tail, rfl⟩ : ∃ tail, text = c :: tail := by
    cases text with
    | nil => cases head
    | cons d tail => exact ⟨tail, by cases head; rfl⟩
  have skipped : (c :: tail).dropWhile isSpace = c :: tail := by simp [notSpace]
  have taken : (c :: tail).takeWhile (fun c => !isSpace c) =
      c :: tail.takeWhile (fun c => !isSpace c) := by simp [notSpace]
  simp only [scanWord, skipped, taken] at found
  split at found
  · cases found
  rename_i notEmpty
  simp only [Option.some.injEq, Prod.mk.injEq] at found
  obtain ⟨rfl, -⟩ := found
  cases width with
  | zero => simp at notEmpty
  | succ width => simp

/-- The printed length of a number of a signed 32-bit type. -/
theorem length_decimal_le {n : Int} (low : -(2 ^ 31 : Int) ≤ n) (high : n < 2 ^ 31) :
    (decimal n).length ≤ 11 := by
  cases n with
  | ofNat n =>
    have : (toDigits 10 n).length ≤ 10 :=
      (length_toDigits_le_iff (by decide) (by decide)).mpr (by
        have : (n : Int) < 2 ^ 31 := high
        omega)
    simp only [decimal, natDecimal, length_map]
    omega
  | negSucc n =>
    have : (toDigits 10 (n + 1)).length ≤ 10 :=
      (length_toDigits_le_iff (by decide) (by decide)).mpr (by omega)
    simp only [decimal, natDecimal, length_cons, length_map]
    omega

end QemuIos.CText

import QemuIos.ItBoot.State
import QemuIos.ItBoot.Proofs.Offer

/-!
# The state file is read back

`load_state` finds the numbers and the bad list that `save_state` wrote, whatever hooks stand
behind them: the hook lines come last, and a line that begins with `h`, cut short or not, only
ever touches the hooks.
-/

namespace QemuIos.ItBoot
open CText List Option

variable {key : String} {c : UInt8} {h : Hook} {n : Int} {line text : Bytes} {st : State}

/-- A byte that can stand in a remembered target: no NUL and no line end. -/
def isLineByte (c : UInt8) : Bool := c != 0 && c != 10

/-- What holds of every target the loader remembers. -/
structure Hook.Sound (h : Hook) : Prop where
  bytes : ∀ c ∈ h.target, isLineByte c
  target : safeAbs h.target
  respring : IsLong h.respring

/-- What holds of every state a run works with. -/
structure State.Sound (st : State) : Prop where
  seed : IsLong st.seed
  previous : IsLong st.previous
  good : IsLong st.good
  tries : IsLong st.tries
  bad : ∀ s ∈ st.bad.items, IsLong s
  hooks : ∀ h ∈ st.hooks, h.Sound
  hookCount : st.hooks.length ≤ maxHooks

/-! ## The lines -/

/-- A line `key n`. -/
def keyLine (key : String) (n : Int) : Bytes := ascii key ++ 32 :: decimal n

/-- A line `hook respring target`. -/
def hookLine (h : Hook) : Bytes := ascii "hook " ++ decimal h.respring ++ 32 :: h.target

theorem stateText_eq :
    stateText st = keyLine "seed" st.seed ++ 10 :: (keyLine "previous" st.previous ++ 10 ::
      (keyLine "good" st.good ++ 10 :: (keyLine "tries" st.tries ++ 10 ::
        (st.bad.items.flatMap (fun s => keyLine "bad" s ++ [10]) ++
          st.hooks.flatMap fun h => hookLine h ++ [10])))) := by
  simp [stateText, keyLine, hookLine, ascii]

/-- A word `load_state` compares a key with. -/
structure IsKey (key : String) : Prop where
  nonempty : ascii key ≠ []
  short : (ascii key).length ≤ 15
  plain : (ascii key).all (fun c => !isSpace c && isLineByte c && c != 104) = true

theorem isKey_all : IsKey "seed" ∧ IsKey "previous" ∧ IsKey "good" ∧ IsKey "tries" ∧
    IsKey "bad" := by
  refine ⟨?_, ?_, ?_, ?_, ?_⟩ <;> constructor <;> decide

theorem IsKey.byte (isKey : IsKey key) (member : c ∈ ascii key) :
    isSpace c = false ∧ isLineByte c ∧ c ≠ 104 := by
  have := all_eq_true.mp isKey.plain c member
  simp only [Bool.and_eq_true, Bool.not_eq_true', bne_iff_ne, ne_eq] at this
  exact ⟨this.1.1, this.1.2, this.2⟩

theorem isLineByte_of_isDigit (printed : isDigit 10 c ∨ c = 45) : isLineByte c := by
  rcases printed with digit | rfl
  · have notNul : c ≠ 0 := by
      rintro rfl
      exact absurd digit (by decide)
    have notNewline : c ≠ 10 := by
      rintro rfl
      exact absurd digit (by decide)
    simp [isLineByte, notNul, notNewline]
  · decide

theorem keyLine_bytes (isKey : IsKey key) : ∀ c ∈ keyLine key n, isLineByte c := by
  intro c member
  rcases mem_append.mp member with inKey | inRest
  · exact (isKey.byte inKey).2.1
  · rcases mem_cons.mp inRest with rfl | inNumber
    · decide
    · exact isLineByte_of_isDigit (mem_decimal inNumber)

theorem hookLine_bytes (plain : ∀ c ∈ h.target, isLineByte c) : ∀ c ∈ hookLine h, isLineByte c := by
  have word : (ascii "hook ").all isLineByte = true := by decide
  intro c member
  rcases mem_append.mp member with inFront | inRest
  · rcases mem_append.mp inFront with inWord | inNumber
    · exact all_eq_true.mp word c inWord
    · exact isLineByte_of_isDigit (mem_decimal inNumber)
  · rcases mem_cons.mp inRest with rfl | inTarget
    · decide
    · exact plain c inTarget

/-! ## Reading a line -/

theorem scanKey_keyLine (isKey : IsKey key) (long : IsLong n) :
    scanKey (keyLine key n) = some (ascii key, n) := by
  have word : scanWord 15 (keyLine key n) = some (ascii key, 32 :: decimal n) :=
    scanWord_append isKey.nonempty isKey.short (fun c member => (isKey.byte member).1) (by
      intro c isHead
      cases isHead
      decide)
  have number : scanInt longMax (decimal n ++ []) = some (n, []) :=
    scanInt_decimal long.1 long.2 (by simp)
  rw [append_nil] at number
  simp only [scanKey, word, bind, Option.bind, scanInt_space longMax (show isSpace 32 by decide),
    number]
  rfl

theorem scanHook_keyLine (isKey : IsKey key) : scanHook (keyLine key n) = none := by
  unfold scanHook
  rw [if_neg]
  obtain ⟨c, rest, isCons⟩ := exists_cons_of_ne_nil isKey.nonempty
  have notH := (isKey.byte (c := c) (by simp [isCons])).2.2
  rw [keyLine, isCons]
  intro begins
  have same : (104 : UInt8) = c := (cons_prefix_cons.mp begins).1
  exact notH same.symm

theorem stateLine_keyLine (isKey : IsKey key) (long : IsLong n) :
    stateLine st (keyLine key n) = setKey st (ascii key) n := by
  have noHook : takenHook st (keyLine key n) = none := by
    rw [takenHook, scanHook_keyLine isKey]
    rfl
  simp only [stateLine, noHook, scanKey_keyLine isKey long]

theorem stateLine_hook (begins : line.head? = some 104) (st : State) :
    ∃ hooks, stateLine st line = { st with hooks } := by
  unfold stateLine
  split
  · exact ⟨_, rfl⟩
  split
  · rename_i key v found
    refine ⟨st.hooks, ?_⟩
    -- the key of such a line begins with `h` too, so it is none of the five
    have isH : key.head? = some 104 := by
      unfold scanKey at found
      obtain ⟨⟨word, rest⟩, isWord, found⟩ := bind_eq_some_iff.mp found
      obtain ⟨_, -, found⟩ := bind_eq_some_iff.mp found
      cases found
      exact scanWord_head isWord begins (by decide)
    have notKey : ∀ word : String, IsKey word → key ≠ ascii word := by
      rintro word isKey rfl
      cases bytes : ascii word with
      | nil => exact isKey.nonempty bytes
      | cons c rest =>
        rw [bytes] at isH
        cases isH
        exact (isKey.byte (c := 104) (by simp [bytes])).2.2 rfl
    obtain ⟨seed, previous, good, tries, bad⟩ := isKey_all
    simp [setKey, notKey _ seed, notKey _ previous, notKey _ good, notKey _ tries,
      notKey _ bad]
  · exact ⟨st.hooks, rfl⟩

/-! ## Reading the file -/

/-- Lines, each with its line end, are the tokens of their text. -/
theorem tokens_lines {α : Type} (line : α → Bytes) (xs : List α) (rest : Bytes)
    (nonempty : ∀ x ∈ xs, line x ≠ []) (bytes : ∀ x ∈ xs, ∀ c ∈ line x, isLineByte c) :
    tokens (· == 10) (xs.flatMap (fun x => line x ++ [10]) ++ rest) =
      xs.map line ++ tokens (· == 10) rest := by
  induction xs with
  | nil => simp
  | cons x xs ih =>
    have free : ∀ c ∈ line x, (c == 10) = false := by
      intro c member
      have := bytes x mem_cons_self c member
      simp only [isLineByte, Bool.and_eq_true, bne_iff_ne, ne_eq] at this
      simpa using this.2
    have shape : (x :: xs).flatMap (fun x => line x ++ [10]) ++ rest =
        line x ++ 10 :: (xs.flatMap (fun x => line x ++ [10]) ++ rest) := by simp
    rw [shape, tokens_word_cons (nonempty x mem_cons_self) free _ (by decide),
      ih (fun y member => nonempty y (mem_cons_of_mem _ member))
        (fun y member => bytes y (mem_cons_of_mem _ member))]
    rfl

theorem foldl_bad (items : List Int) (long : ∀ s ∈ items, IsLong s) :
    (items.map (keyLine "bad")).foldl stateLine st = { st with bad := st.bad.addAll items } := by
  induction items generalizing st with
  | nil => rfl
  | cons s items ih =>
    have isBad := isKey_all.2.2.2.2
    have key : setKey st (ascii "bad") s = addBad st s := by simp [setKey, ascii]
    rw [map_cons, foldl_cons, stateLine_keyLine isBad (long s mem_cons_self), key,
      ih fun x member => long x (mem_cons_of_mem _ member)]
    rfl

theorem foldl_hooks (lines : List Bytes) (begins : ∀ line ∈ lines, line.head? = some 104)
    (st : State) : ∃ hooks, lines.foldl stateLine st = { st with hooks } := by
  induction lines generalizing st with
  | nil => exact ⟨st.hooks, rfl⟩
  | cons line lines ih =>
    obtain ⟨hooks, one⟩ := stateLine_hook (begins line mem_cons_self) st
    obtain ⟨hooks', rest⟩ := ih (fun l member => begins l (mem_cons_of_mem _ member))
      { st with hooks }
    exact ⟨hooks', by rw [foldl_cons, one, rest]⟩

theorem hookLines_head {hooks : List Hook} (sound : ∀ h ∈ hooks, h.Sound)
    {start : Bytes} (begins : start <+: hooks.flatMap fun h => hookLine h ++ [10]) :
    ∀ line ∈ tokens (· == 10) start, line.head? = some 104 := by
  intro line member
  have all := tokens_lines hookLine hooks [] (by simp [hookLine, ascii])
    (fun h isHook => hookLine_bytes (sound h isHook).bytes)
  rw [append_nil, tokens_nil, append_nil] at all
  obtain ⟨whole, isLine, isStart⟩ := tokens_of_isPrefix begins member
  rw [all] at isLine
  obtain ⟨h, -, rfl⟩ := mem_map.mp isLine
  have nonempty := (mem_tokens member).1
  obtain ⟨c, rest, rfl⟩ := exists_cons_of_ne_nil nonempty
  have same : hookLine h = 104 :: (ascii "ook " ++ decimal h.respring ++ 32 :: h.target) := rfl
  rw [same] at isStart
  rw [(cons_prefix_cons.mp isStart).1]
  rfl

/-- The part of the file in front of the hooks. -/
def stateFront (st : State) : Bytes :=
  keyLine "seed" st.seed ++ 10 :: (keyLine "previous" st.previous ++ 10 ::
    (keyLine "good" st.good ++ 10 :: (keyLine "tries" st.tries ++ 10 ::
      st.bad.items.flatMap fun s => keyLine "bad" s ++ [10])))

theorem stateText_front (st : State) :
    stateText st = stateFront st ++ st.hooks.flatMap fun h => hookLine h ++ [10] := by
  simp [stateText_eq, stateFront]

theorem length_decimal_isLong (long : IsLong n) : (decimal n).length ≤ 11 := by
  obtain ⟨low, high⟩ := long
  have max : (longMax : Int) = 2 ^ 31 - 1 := by simp [longMax]
  apply length_decimal_le <;> omega

theorem length_keyLine (isKey : IsKey key) (long : IsLong n) : (keyLine key n).length ≤ 27 := by
  have number := length_decimal_isLong long
  have word := isKey.short
  simp only [keyLine, length_append, length_cons]
  omega

theorem length_hookLine (sound : h.Sound) : (hookLine h).length ≤ 256 := by
  have number := length_decimal_isLong sound.respring
  have target : h.target.length < 240 := by
    have safe := sound.target
    simp only [safeAbs, Bool.and_eq_true, decide_eq_true_eq] at safe
    exact safe.2
  have word : (ascii "hook ").length = 5 := rfl
  simp only [hookLine, length_append, length_cons, word]
  omega

theorem length_lines {α : Type} (line : α → Bytes) {k : Nat} (xs : List α)
    (short : ∀ x ∈ xs, (line x).length ≤ k) :
    (xs.flatMap fun x => line x ++ [10]).length ≤ (k + 1) * xs.length := by
  induction xs with
  | nil => simp
  | cons x xs ih =>
    have first := short x mem_cons_self
    have rest := ih fun y member => short y (mem_cons_of_mem _ member)
    simp only [flatMap_cons, length_append, length_cons, length_nil, Nat.mul_succ]
    omega

/-- The numbers and the bad list leave room in the reader's buffer. -/
theorem length_stateFront (sound : st.Sound) : (stateFront st).length ≤ 560 := by
  obtain ⟨isSeed, isPrevious, isGood, isTries, isBad⟩ := isKey_all
  have seed := length_keyLine isSeed sound.seed
  have previous := length_keyLine isPrevious sound.previous
  have good := length_keyLine isGood sound.good
  have tries := length_keyLine isTries sound.tries
  have bad := length_lines (keyLine "bad") st.bad.items
    fun s member => length_keyLine isBad (sound.bad s member)
  have room : st.bad.items.length ≤ 16 := st.bad.bound
  simp only [stateFront, length_append, length_cons]
  omega

/-- A state always fits into the writer's buffer. -/
theorem length_stateText (sound : st.Sound) : (stateText st).length < 16384 := by
  have front := length_stateFront sound
  have hooks := length_lines hookLine st.hooks fun h member =>
    length_hookLine (sound.hooks h member)
  have count : st.hooks.length ≤ 32 := sound.hookCount
  rw [stateText_front, length_append]
  omega

theorem cstr_of_bytes (noNul : ∀ c ∈ text, c ≠ 0) : cstr text = text := by
  rw [cstr, takeWhile_eq_self_iff]
  simpa using noNul

theorem lineByte_ne_nul (isLine : isLineByte c) : c ≠ 0 := by
  simp only [isLineByte, Bool.and_eq_true, bne_iff_ne, ne_eq] at isLine
  exact isLine.1

theorem stateText_noNul (sound : st.Sound) : ∀ c ∈ stateText st, c ≠ 0 := by
  obtain ⟨isSeed, isPrevious, isGood, isTries, isBad⟩ := isKey_all
  have key : ∀ {word : String}, IsKey word → ∀ n, ∀ c ∈ keyLine word n, c ≠ 0 :=
    fun isKey n c member => lineByte_ne_nul (keyLine_bytes isKey c member)
  have ends : (10 : UInt8) ≠ 0 := by decide
  intro c member
  rw [stateText_eq] at member
  simp only [mem_append, mem_cons, mem_flatMap, not_mem_nil, or_false] at member
  rcases member with h | rfl | h | rfl | h | rfl | h | rfl | ⟨s, -, h | rfl⟩
    | ⟨hook, isHook, h | rfl⟩
  · exact key isSeed _ c h
  · exact ends
  · exact key isPrevious _ c h
  · exact ends
  · exact key isGood _ c h
  · exact ends
  · exact key isTries _ c h
  · exact ends
  · exact key isBad _ c h
  · exact ends
  · exact lineByte_ne_nul (hookLine_bytes (sound.hooks hook isHook).bytes c h)
  · exact ends

theorem tokens_stateFront (rest : Bytes) :
    tokens (· == 10) (stateFront st ++ rest) =
      keyLine "seed" st.seed :: keyLine "previous" st.previous :: keyLine "good" st.good ::
        keyLine "tries" st.tries ::
          (st.bad.items.map (keyLine "bad") ++ tokens (· == 10) rest) := by
  obtain ⟨isSeed, isPrevious, isGood, isTries, isBad⟩ := isKey_all
  have nonempty : ∀ (word : String) (n : Int), keyLine word n ≠ [] := by simp [keyLine]
  have line : ∀ {word : String}, IsKey word → ∀ (n : Int) (more : Bytes),
      tokens (· == 10) (keyLine word n ++ 10 :: more) =
        keyLine word n :: tokens (· == 10) more := by
    intro word isKey n more
    have one := tokens_lines (keyLine word) [n] more (by simp [nonempty])
      (fun m _ => keyLine_bytes isKey)
    simpa using one
  rw [stateFront]
  simp only [append_assoc, cons_append]
  rw [line isSeed, line isPrevious, line isGood, line isTries,
    tokens_lines _ _ _ (fun s _ => nonempty "bad" s) fun s _ => keyLine_bytes isBad]

/-- The front part is read back, and then come the lines behind it. -/
theorem loadState_front (sound : st.Sound) {start : Bytes}
    (cut : text.take 8191 = stateFront st ++ start) (noNul : ∀ c ∈ text, c ≠ 0) :
    loadState (some text) =
      ((tokens (· == 10) start).foldl stateLine { st with hooks := [] }, true) := by
  obtain ⟨isSeed, isPrevious, isGood, isTries, -⟩ := isKey_all
  have whole : cstr (text.take 8191) = text.take 8191 :=
    cstr_of_bytes fun c member => noNul c (mem_of_mem_take member)
  have front : (st.bad.items.map (keyLine "bad")).foldl stateLine
      { seed := st.seed, previous := st.previous, good := st.good, tries := st.tries } =
      { st with hooks := [] } := by
    rw [foldl_bad _ sound.bad, Fifo.addAll_empty_items]
  simp only [loadState, whole]
  rw [cut, tokens_stateFront]
  simp only [foldl_cons, foldl_append, stateLine_keyLine isSeed sound.seed,
    stateLine_keyLine isPrevious sound.previous, stateLine_keyLine isGood sound.good,
    stateLine_keyLine isTries sound.tries]
  have keys : setKey (setKey (setKey (setKey {} (ascii "seed") st.seed) (ascii "previous")
      st.previous) (ascii "good") st.good) (ascii "tries") st.tries =
      { seed := st.seed, previous := st.previous, good := st.good, tries := st.tries } := by
    simp [setKey, ascii]
  rw [keys, front]

/-- What `save_state` wrote is loaded again, up to the hooks. -/
theorem loadState_stateText (sound : st.Sound) :
    ∃ hooks, loadState (some (stateText st)) = ({ st with hooks }, true) := by
  have room := (length_stateFront sound).trans (show 560 ≤ 8191 by decide)
  -- the buffer holds the front part and a beginning of the hook part
  obtain ⟨start, begins, cut⟩ : ∃ start, start <+: (st.hooks.flatMap fun h => hookLine h ++ [10]) ∧
      (stateText st).take 8191 = stateFront st ++ start := by
    refine ⟨_, take_prefix (8191 - (stateFront st).length) _, ?_⟩
    rw [stateText_front, take_append, take_of_length_le room]
  obtain ⟨hooks, tail⟩ := foldl_hooks (tokens (· == 10) start) (hookLines_head sound.hooks begins)
    { st with hooks := [] }
  refine ⟨hooks, ?_⟩
  rw [loadState_front sound cut (stateText_noNul sound), tail]

/-! ## The hooks are read back too -/

/-- A hook's line gives its number and what is scanned of its path. -/
theorem scanHook_word (respring : IsLong h.respring) {word rest : Bytes}
    (target : scanWord 255 h.target = some (word, rest)) :
    scanHook (hookLine h) = some { h with target := word } := by
  have begins : ascii "hook" <+: hookLine h := ⟨32 :: decimal h.respring ++ 32 :: h.target, by
    simp [hookLine, ascii]⟩
  have behind : (hookLine h).drop 4 = 32 :: (decimal h.respring ++ 32 :: h.target) := by
    simp [hookLine, ascii]
  have number : scanInt longMax (decimal h.respring ++ 32 :: h.target) =
      some (h.respring, 32 :: h.target) :=
    scanInt_decimal respring.1 respring.2 (by
      intro c isHead
      cases isHead
      decide)
  have space : isSpace 32 := by decide
  simp only [scanHook, if_pos begins, behind, scanInt_space longMax space, number, bind,
    Option.bind, scanWord_space 255 space, target]
  rfl

theorem scanHook_hookLine (sound : h.Sound) (word : ∀ c ∈ h.target, isSpace c = false) :
    scanHook (hookLine h) = some h := by
  have safe := sound.target
  simp only [safeAbs, Bool.and_eq_true, decide_eq_true_eq] at safe
  have nonempty : h.target ≠ [] := by
    intro empty
    rw [empty] at safe
    exact absurd safe.1.1.1 (by decide)
  have target : scanWord 255 (h.target ++ []) = some (h.target, []) :=
    scanWord_append nonempty (by omega) word (by simp)
  rw [append_nil] at target
  exact scanHook_word sound.respring target

theorem stateLine_hookLine (sound : h.Sound) (word : ∀ c ∈ h.target, isSpace c = false)
    (room : st.hooks.length < maxHooks) :
    stateLine st (hookLine h) = { st with hooks := st.hooks ++ [h] } := by
  simp [stateLine, takenHook, scanHook_hookLine sound word, sound.target, room, Option.filter]

theorem foldl_hookLines {hooks : List Hook} (sound : ∀ h ∈ hooks, h.Sound)
    (words : ∀ h ∈ hooks, ∀ c ∈ h.target, isSpace c = false)
    (room : st.hooks.length + hooks.length ≤ maxHooks) :
    (hooks.map hookLine).foldl stateLine st = { st with hooks := st.hooks ++ hooks } := by
  induction hooks generalizing st with
  | nil => simp
  | cons h hooks ih =>
    rw [length_cons] at room
    rw [map_cons, foldl_cons, stateLine_hookLine (sound h mem_cons_self)
      (words h mem_cons_self) (by omega), ih]
    · simp
    · exact fun x member => sound x (mem_cons_of_mem _ member)
    · exact fun x member => words x (mem_cons_of_mem _ member)
    · simp only [length_append, length_singleton]
      omega

/-! ## What is loaded is sound -/

theorem scanInt_isLong {rest : Bytes} {v : Int} (found : scanInt longMax text = some (v, rest)) :
    IsLong v := by
  obtain ⟨n, -, same⟩ := map_eq_some_iff.mp found
  cases same
  exact saturate_isLong n

theorem isLong_zero : IsLong 0 := by
  unfold IsLong longMax
  omega

theorem State.sound_empty : State.Sound {} :=
  ⟨isLong_minus_one, isLong_minus_one, isLong_minus_one, isLong_zero, by simp [Fifo.empty],
    by simp, by simp⟩

theorem addBad_sound (sound : st.Sound) {s : Int} (long : IsLong s) : (addBad st s).Sound := by
  refine { sound with bad := ?_ }
  intro x member
  rcases Fifo.mem_of_mem_add (Fifo.mem_iff.mpr member) with old | rfl
  · exact sound.bad x old
  · exact long

theorem setKey_sound (sound : st.Sound) (key : Bytes) {v : Int} (long : IsLong v) :
    (setKey st key v).Sound := by
  unfold setKey
  split
  · exact { sound with seed := long }
  · split
    · exact { sound with previous := long }
    · split
      · exact { sound with good := long }
      · split
        · exact { sound with tries := long }
        · split
          · exact addBad_sound sound long
          · exact sound

theorem scanHook_spec (found : scanHook line = some h) :
    IsLong h.respring ∧ ∀ c ∈ h.target, isSpace c = false ∧ c ∈ line := by
  unfold scanHook at found
  split at found
  · obtain ⟨⟨respring, rest⟩, isNumber, found⟩ := bind_eq_some_iff.mp found
    obtain ⟨⟨target, _⟩, isWord, found⟩ := bind_eq_some_iff.mp found
    cases found
    refine ⟨scanInt_isLong isNumber, ?_⟩
    obtain ⟨n, scanned, same⟩ := map_eq_some_iff.mp isNumber
    cases same
    obtain ⟨-, -, noSpace, inRest⟩ := scanWord_spec isWord
    intro c member
    refine ⟨noSpace c member, ?_⟩
    exact (drop_suffix 4 line).subset ((scanNumber_rest scanned).subset (inRest c member))
  · cases found

theorem stateLine_sound (sound : st.Sound) (noNul : ∀ c ∈ line, c ≠ 0) :
    (stateLine st line).Sound := by
  unfold stateLine
  split
  · rename_i hook taken
    obtain ⟨found, accepted⟩ := filter_eq_some_iff.mp taken
    rw [Bool.and_eq_true, decide_eq_true_eq] at accepted
    obtain ⟨respring, words⟩ := scanHook_spec found
    refine { sound with hooks := ?_, hookCount := ?_ }
    · rw [forall_mem_append, forall_mem_singleton]
      refine ⟨sound.hooks, ?_, accepted.1, respring⟩
      intro c member
      obtain ⟨noSpace, inLine⟩ := words c member
      have notNewline : c ≠ 10 := by
        rintro rfl
        exact absurd noSpace (by decide)
      simp [isLineByte, noNul c inLine, notNewline]
    · rw [length_append]
      exact accepted.2
  · split
    · rename_i key v found
      obtain ⟨⟨word, rest⟩, -, found⟩ := bind_eq_some_iff.mp found
      obtain ⟨⟨v', _⟩, isNumber, found⟩ := bind_eq_some_iff.mp found
      cases found
      exact setKey_sound sound _ (scanInt_isLong isNumber)
    · exact sound

/-- What every line keeps holds of what is loaded. -/
theorem loadState_rule {P : State → Prop} (file : Option Bytes) (empty : P {})
    (step : ∀ st line, (∀ c ∈ line, c ≠ 0) → P st → P (stateLine st line)) :
    P (loadState file).1 := by
  have lines : ∀ (ls : List Bytes) (st : State), P st → (∀ line ∈ ls, ∀ c ∈ line, c ≠ 0) →
      P (ls.foldl stateLine st) := by
    intro ls
    induction ls with
    | nil => exact fun st holds _ => holds
    | cons line ls ih =>
      intro st holds noNul
      exact ih _ (step st line (noNul line mem_cons_self) holds)
        fun l member => noNul l (mem_cons_of_mem _ member)
  cases file with
  | none => exact empty
  | some data =>
    refine lines _ _ empty ?_
    intro line member c inLine
    have inText := (mem_tokens member).2.2 c inLine
    simpa using mem_takeWhile_imp inText

theorem loadState_sound (file : Option Bytes) : (loadState file).1.Sound :=
  loadState_rule file State.sound_empty fun _ _ noNul sound => stateLine_sound sound noNul

end QemuIos.ItBoot

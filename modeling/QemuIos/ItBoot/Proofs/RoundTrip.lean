import QemuIos.ItBoot.Proofs.Result
import QemuIos.ItBoot.Proofs.Runs

/-!
# What the state file loses

The numbers and the bad list always come back (`loadState_front`). The hooks come back when the
reader's buffer holds the last of them and no target has a byte at which `%255s` stops: a token of
an offer is cut at blanks, tabs and carriage returns, `sscanf` also stops at a vertical tab and at
a form feed.
-/

namespace QemuIos.ItBoot
open CText List Bool

variable {p : Bytes} {h : Hook} {st : State}

/-- The part of a target that `%255s` reads. -/
def Hook.read (h : Hook) : Hook := { h with target := h.target.takeWhile fun c => !isSpace c }

/-- The characters `%d` prints. -/
def digits (n : Int) : Nat := (decimal n).length

/-- The characters of a hook's line, with the line end. -/
def Hook.size (h : Hook) : Nat := digits h.respring + h.target.length + 7

/-- The characters of a state's file. -/
def stateSize (st : State) : Nat :=
  (digits st.seed + 6) + (digits st.previous + 10) + (digits st.good + 6) + (digits st.tries + 7) +
    (st.bad.items.map fun s => digits s + 5).sum + (st.hooks.map Hook.size).sum

theorem length_hookLine_eq (h : Hook) : (hookLine h).length + 1 = h.size := by
  simp only [hookLine, Hook.size, digits, length_append, length_cons]
  rw [show (ascii "hook ").length = 5 from rfl]
  omega

theorem length_hookLines (hooks : List Hook) :
    (hooks.flatMap fun h => hookLine h ++ [10]).length = (hooks.map Hook.size).sum := by
  induction hooks with
  | nil => rfl
  | cons h hooks ih =>
    rw [flatMap_cons, length_append, ih, map_cons, sum_cons,
      length_append, length_singleton, length_hookLine_eq]

theorem length_badLines (items : List Int) :
    (items.flatMap fun s => keyLine "bad" s ++ [10]).length =
      (items.map fun s => digits s + 5).sum := by
  induction items with
  | nil => rfl
  | cons s items ih =>
    have line : (keyLine "bad" s ++ [10]).length = digits s + 5 := by
      simp only [keyLine, digits, length_append, length_cons, length_nil]
      rw [show (ascii "bad").length = 3 from rfl]
      omega
    rw [flatMap_cons, length_append, ih, map_cons, sum_cons, line]

theorem length_stateText_eq : (stateText st).length = stateSize st := by
  rw [stateText_front, length_append, length_hookLines, stateFront, stateSize]
  simp only [keyLine, length_append, length_cons, digits]
  have bad := length_badLines st.bad.items
  simp only [keyLine] at bad
  rw [bad, show (ascii "seed").length = 4 from rfl, show (ascii "previous").length = 8 from rfl,
    show (ascii "good").length = 4 from rfl, show (ascii "tries").length = 5 from rfl]
  simp only [digits]
  omega

/-! ## One line -/

theorem safeAbs_head (safe : safeAbs p = true) : p.head? = some 47 := by
  simp only [safeAbs, and_eq_true, decide_eq_true_eq] at safe
  exact safe.1.1.1

theorem safeAbs_of_isPrefix {q : Bytes} (safe : safeAbs q = true) (begins : p <+: q)
    (head : p.head? = some 47) : safeAbs p = true := by
  simp only [safeAbs, and_eq_true, not_eq_true', decide_eq_true_eq,
    decide_eq_false_iff_not] at safe ⊢
  obtain ⟨⟨⟨-, dots⟩, temporary⟩, short⟩ := safe
  have shorter := begins.length_le
  exact ⟨⟨⟨head, fun inside => dots (inside.trans begins.isInfix)⟩,
    fun inside => temporary (inside.trans begins.isInfix)⟩, by omega⟩

theorem takeWhile_head (head : p.head? = some 47) :
    (p.takeWhile fun c => !isSpace c).head? = some 47 := by
  cases p with
  | nil => cases head
  | cons c rest =>
    cases head
    rfl

/-- A line with a path in it is scanned up to the path's first white space. -/
theorem scanHook_read (head : h.target.head? = some 47) (short : h.target.length ≤ 255)
    (respring : IsLong h.respring) : scanHook (hookLine h) = some h.read := by
  have target : scanWord 255 h.target = some (h.read.target,
      h.target.dropWhile fun c => !isSpace c) := by
    have parts := takeWhile_append_dropWhile (p := fun c => !isSpace c) (l := h.target)
    conv_lhs => rw [← parts]
    apply scanWord_append
    · intro empty
      have first := takeWhile_head head
      rw [empty] at first
      cases first
    · exact ( takeWhile_prefix _).length_le.trans short
    · intro c member
      simpa using mem_takeWhile_imp member
    · intro c isHead
      have stops := head?_dropWhile_not (fun c => !isSpace c) h.target
      rw [Option.mem_def.mp isHead] at stops
      simpa using stops
  exact scanHook_word respring target

theorem setKey_hooks (key : Bytes) (v : Int) : (setKey st key v).hooks = st.hooks := by
  unfold setKey addBad
  repeat' split
  all_goals rfl

theorem stateLine_adds {line : Bytes} (begins : line.head? = some 104) (st : State) :
    stateLine st line = { st with hooks := st.hooks ++ (takenHook st line).toList } := by
  obtain ⟨hooks, only⟩ := stateLine_hook begins st
  have same : hooks = st.hooks ++ (takenHook st line).toList := by
    have read : (stateLine st line).hooks = hooks := by rw [only]
    rw [← read]
    unfold stateLine
    cases takenHook st line with
    | some hook => rfl
    | none =>
      cases scanKey line with
      | none => simp
      | some found => simp [setKey_hooks]
  rw [only, same]

theorem foldl_adds (lines : List Bytes) (begins : ∀ line ∈ lines, line.head? = some 104)
    (st : State) : ∃ more, (lines.foldl stateLine st).hooks = st.hooks ++ more := by
  induction lines generalizing st with
  | nil => exact ⟨[], by simp⟩
  | cons line lines ih =>
    obtain ⟨more, rest⟩ := ih (fun l member => begins l (mem_cons_of_mem _ member))
      (stateLine st line)
    rw [stateLine_adds (begins line mem_cons_self)] at rest
    refine ⟨(takenHook st line).toList ++ more, ?_⟩
    rw [foldl_cons, stateLine_adds (begins line mem_cons_self), rest,
      append_assoc]

theorem takenHook_whole (sound : h.Sound) (room : st.hooks.length < maxHooks) :
    takenHook st (hookLine h) = some h.read := by
  have head := safeAbs_head sound.target
  have short : h.target.length ≤ 255 := by
    have safe := sound.target
    simp only [safeAbs, and_eq_true, decide_eq_true_eq] at safe
    omega
  have safe : safeAbs h.read.target = true :=
    safeAbs_of_isPrefix sound.target ( takeWhile_prefix _) (takeWhile_head head)
  simp [takenHook, scanHook_read head short sound.respring, Option.filter, safe, room]

/-- A line that ends before its target does is not read as its hook. -/
theorem takenHook_cut (sound : h.Sound) {n : Nat} (cut : n < (hookLine h).length) :
    takenHook st ((hookLine h).take n) ≠ some h := by
  intro taken
  obtain ⟨found, -⟩ := Option.filter_eq_some_iff.mp taken
  have slash : (47 : UInt8) ∈ h.target :=
    mem_of_head? (safeAbs_head sound.target)
  have inside := ((scanHook_spec found).2 47 slash).2
  have front : (47 : UInt8) ∉ ascii "hook " ++ decimal h.respring ++ [32] := by
    intro member
    rcases mem_append.mp member with inFront | blank
    · rcases mem_append.mp inFront with inWord | inNumber
      · exact absurd inWord (by decide)
      · rcases mem_decimal inNumber with digit | minus
        · exact absurd digit (by decide)
        · exact absurd minus (by decide)
    · exact absurd blank (by decide)
  have shape : hookLine h = (ascii "hook " ++ decimal h.respring ++ [32]) ++ h.target := by
    simp [hookLine]
  generalize isFront : ascii "hook " ++ decimal h.respring ++ [32] = start at front shape
  rw [shape, length_append] at cut
  by_cases early : n ≤ start.length
  · -- the target is cut off whole
    rw [shape, take_append_of_le_length early] at inside
    exact front (mem_of_mem_take inside)
  -- a beginning of the target is left, which is read up to its first white space
  let part : Hook := { h with target := h.target.take (n - start.length) }
  have isPart : (hookLine h).take n = hookLine part := by
    rw [shape, take_append, take_of_length_le (by omega)]
    simp [hookLine, part, ← isFront]
  have head : part.target.head? = some 47 := by
    have whole := safeAbs_head sound.target
    cases target : h.target with
    | nil =>
      rw [target] at whole
      cases whole
    | cons c rest =>
      rw [target] at whole
      cases whole
      obtain ⟨k, isSucc⟩ : ∃ k, n - start.length = k + 1 := ⟨n - start.length - 1, by omega⟩
      simp [part, target, isSucc]
  have safe := sound.target
  simp only [safeAbs, and_eq_true, decide_eq_true_eq] at safe
  have partLength : part.target.length < h.target.length := by
    simp only [part, length_take]
    omega
  rw [isPart, scanHook_read head (by omega) sound.respring] at found
  have same : part.read.target = h.target := congrArg Hook.target (Option.some.inj found)
  have shorter : part.read.target.length ≤ part.target.length :=
    ( takeWhile_prefix _).length_le
  rw [same] at shorter
  omega

/-! ## The hook part -/

theorem hookLine_head : (hookLine h).head? = some 104 := rfl

theorem hookLine_free (sound : h.Sound) : ∀ c ∈ hookLine h, (c == 10) = false := by
  intro c member
  have isLine := hookLine_bytes sound.bytes c member
  simp only [isLineByte, and_eq_true, bne_iff_ne, ne_eq] at isLine
  simpa using isLine.2

/-- The hooks come back from the first `n` bytes of their text only if each is read whole and at
most the last line end is missing. -/
theorem hooks_back {hooks : List Hook} (sound : ∀ h ∈ hooks, h.Sound) (n : Nat)
    (room : st.hooks.length + hooks.length ≤ maxHooks)
    (back : ((tokens (· == 10) ((hooks.flatMap fun h => hookLine h ++ [10]).take n)).foldl
      stateLine st).hooks = st.hooks ++ hooks) :
    (∀ h ∈ hooks, h.read = h) ∧ (hooks.map Hook.size).sum ≤ n + 1 := by
  induction hooks generalizing n st with
  | nil => exact ⟨by simp, by simp⟩
  | cons h hooks ih =>
    have soundH := sound h mem_cons_self
    have soundT : ∀ g ∈ hooks, g.Sound := fun g member => sound g (mem_cons_of_mem _ member)
    have shape : (h :: hooks).flatMap (fun h => hookLine h ++ [10]) =
        hookLine h ++ 10 :: hooks.flatMap fun h => hookLine h ++ [10] := by simp
    have nonempty : hookLine h ≠ [] := by simp [hookLine, ascii]
    have size := length_hookLine_eq h
    rw [length_cons] at room
    rw [shape] at back
    rw [map_cons, sum_cons]
    rcases Nat.lt_trichotomy n (hookLine h).length with less | equal | more
    · -- the first line is cut
      exfalso
      rw [take_append_of_le_length less.le] at back
      by_cases zero : n = 0
      · subst zero
        simp at back
      have cutFree : ∀ c ∈ (hookLine h).take n, (c == 10) = false :=
        fun c member => hookLine_free soundH c (mem_of_mem_take member)
      have cutNonempty : (hookLine h).take n ≠ [] := by simp [zero, nonempty]
      have begins : ((hookLine h).take n).head? = some 104 := by
        rw [head?_take, if_neg zero]
        rfl
      rw [tokens_single cutNonempty cutFree, foldl_cons, foldl_nil,
        stateLine_adds begins] at back
      have read := append_cancel_left back
      cases taken : takenHook st ((hookLine h).take n) with
      | none =>
        rw [taken] at read
        cases read
      | some g =>
        rw [taken] at read
        obtain ⟨rfl, -⟩ := cons.inj read
        exact takenHook_cut soundH less taken
    · -- only its line end is
      rw [take_append_of_le_length equal.le, take_of_length_le equal.ge,
        tokens_single nonempty (hookLine_free soundH), foldl_cons, foldl_nil,
        stateLine_adds hookLine_head, takenHook_whole soundH (by omega)] at back
      obtain ⟨isRead, noRest⟩ := cons.inj (append_cancel_left back)
      subst noRest
      refine ⟨by simpa using isRead, ?_⟩
      rw [map_nil, sum_nil]
      omega
    · -- it is read, and the rest of the buffer goes to the others
      obtain ⟨m, rfl⟩ : ∃ m, n = (hookLine h).length + (m + 1) :=
        ⟨n - (hookLine h).length - 1, by omega⟩
      rw [take_length_add_append, take_succ_cons,
        tokens_word_cons nonempty (hookLine_free soundH) _ (by decide), foldl_cons,
        stateLine_adds hookLine_head, takenHook_whole soundH (by omega)] at back
      have begins := hookLines_head soundT ( take_prefix m
        (hooks.flatMap fun h => hookLine h ++ [10]))
      obtain ⟨others, appended⟩ := foldl_adds _ begins
        { st with hooks := st.hooks ++ (some h.read).toList }
      have both := appended.symm.trans back
      rw [append_assoc] at both
      obtain ⟨isRead, isRest⟩ := cons.inj (append_cancel_left both)
      have isRest' : others = hooks := isRest
      rw [isRest'] at appended
      have rest := ih soundT m (by simpa using by omega) appended
      refine ⟨?_, by omega⟩
      intro g member
      rcases mem_cons.mp member with rfl | inRest
      · exact isRead
      · exact rest.1 g inRest

theorem Hook.read_eq_iff (h : Hook) : h.read = h ↔ ∀ c ∈ h.target, isSpace c = false := by
  constructor
  · intro same c member
    have target : (h.target.takeWhile fun c => !isSpace c) = h.target := congrArg Hook.target same
    rw [← target] at member
    simpa using mem_takeWhile_imp member
  · intro free
    unfold read
    rw [takeWhile_eq_self_iff.mpr (by simpa using free)]

/-- The last line end of the text is not needed. -/
theorem tokens_hookLines_take (hooks : List Hook) {n : Nat}
    (fits : (hooks.map Hook.size).sum ≤ n + 1) :
    tokens (· == 10) ((hooks.flatMap fun h => hookLine h ++ [10]).take n) =
      tokens (· == 10) (hooks.flatMap fun h => hookLine h ++ [10]) := by
  rw [← length_hookLines] at fits
  rcases eq_nil_or_concat hooks with rfl | ⟨others, last, rfl⟩
  · simp
  generalize isText : ((others.concat last).flatMap fun h => hookLine h ++ [10]) = text at fits ⊢
  have ends : text = (others.flatMap (fun h => hookLine h ++ [10]) ++ hookLine last) ++ [10] := by
    rw [← isText]
    simp
  rcases Nat.lt_or_ge n text.length with cut | whole
  · generalize others.flatMap (fun h => hookLine h ++ [10]) ++ hookLine last = start at ends
    have isStart : n = start.length := by
      rw [ends, length_append, length_singleton] at fits cut
      omega
    rw [ends, isStart, take_left, tokens_append_cons start [] (by decide), tokens_nil,
      append_nil]
  · rw [take_of_length_le whole]

/-! ## The file -/

/-- What was written is read back exactly when the reader's buffer holds it, but for its last
line end, and every target is a word. -/
theorem loadState_stateText_iff (sound : st.Sound) :
    loadState (some (stateText st)) = (st, true) ↔
      (∀ h ∈ st.hooks, ∀ c ∈ h.target, isSpace c = false) ∧ stateSize st ≤ 8192 := by
  have room := (length_stateFront sound).trans (show 560 ≤ 8191 by decide)
  have cut : (stateText st).take 8191 = stateFront st ++
      (st.hooks.flatMap fun h => hookLine h ++ [10]).take (8191 - (stateFront st).length) := by
    rw [stateText_front, take_append, take_of_length_le room]
  have size : stateSize st = (stateFront st).length + (st.hooks.map Hook.size).sum := by
    rw [← length_stateText_eq, stateText_front, length_append, length_hookLines]
  constructor
  · intro back
    rw [loadState_front sound cut (stateText_noNul sound)] at back
    have hooks := congrArg (fun r => r.1.hooks) back
    have room : ({ st with hooks := [] } : State).hooks.length + st.hooks.length ≤ maxHooks := by
      simpa using sound.hookCount
    obtain ⟨words, fits⟩ := hooks_back sound.hooks (8191 - (stateFront st).length) room hooks
    exact ⟨fun h member => (h.read_eq_iff).mp (words h member), by omega⟩
  · rintro ⟨words, fits⟩
    have lines := tokens_lines hookLine st.hooks [] (by simp [hookLine, ascii])
      (fun h isHook => hookLine_bytes (sound.hooks h isHook).bytes)
    rw [append_nil, tokens_nil, append_nil] at lines
    rw [loadState_front sound cut (stateText_noNul sound),
      tokens_hookLines_take st.hooks (by omega), lines,
      foldl_hookLines sound.hooks words (by simpa using sound.hookCount)]
    simp

/-- A state a run can build is loaded again from the file `save_state` wrote, exactly when no
target has white space in it (a vertical tab or a form feed, for the tokens of an offer) and the
file has at most 8192 characters. -/
theorem save_state_load_state_iff (env : Env) (st : State) (b : Boot) (sound : st.Sound)
    (alive : b.dead = false) (saved : (saveState env st b).2 = 0) :
    loadState (saveState env st b).1.disk.state = (st, true) ↔
      (∀ h ∈ st.hooks, ∀ c ∈ h.target, isSpace c = false) ∧ stateSize st ≤ 8192 := by
  have works : env.fails .saveState = false := by
    cases fails : env.fails .saveState with
    | false => rfl
    | true =>
      simp [saveState, fails, eio] at saved
  rw [saveState_state env sound b, if_pos ⟨works, alive⟩]
  exact loadState_stateText_iff sound

/-- A state with one hook, on the target `/a` and what follows. -/
def oneHook (more : Bytes) : State := { seed := 10, hooks := [⟨47 :: 97 :: more, 1⟩] }

theorem oneHook_sound {more : Bytes} (bytes : ∀ c ∈ 47 :: 97 :: more, isLineByte c)
    (safe : safeAbs (47 :: 97 :: more) = true) : (oneHook more).Sound := by
  have long : IsLong 10 ∧ IsLong 1 := by
    unfold IsLong longMax
    omega
  refine ⟨long.1, isLong_minus_one, isLong_minus_one, isLong_zero, by simp [oneHook, Fifo.empty],
    ?_, by simp [oneHook, maxHooks]⟩
  intro h member
  rw [oneHook, mem_singleton] at member
  subst member
  exact ⟨bytes, safe, long.2⟩

/-- A plain target comes back. -/
theorem one_hook_comes_back :
    loadState (saveState (offerEnv [] []) (oneHook (ascii "bc"))
      { disk := bareDisk [] [] [] }).1.disk.state = (oneHook (ascii "bc"), true) :=
  (save_state_load_state_iff (offerEnv [] []) (oneHook (ascii "bc")) { disk := bareDisk [] [] [] }
    (oneHook_sound (by decide +kernel) (by decide +kernel)) rfl (by decide +kernel)).mpr
    ⟨by decide +kernel, by decide +kernel⟩

/-- Thirty-two hooks on the longest targets, sixteen bad serials and numbers of ten digits. -/
def fullState : State where
  seed := 2147483601
  previous := 2147483602
  good := 2147483603
  tries := 2147483604
  bad := ⟨(List.range 16).map fun i => (2147483620 + i : Int), by decide, by decide⟩
  hooks := (List.range 32).map fun i =>
    ⟨47 :: UInt8.ofNat (65 + i) :: List.replicate 237 97, 1⟩

/-- A target with a vertical tab comes back cut, and of thirty-two long targets the last one
does. -/
theorem state_file_cuts_targets :
    safeAbs (ascii "/ab" ++ 11 :: ascii "c") = true ∧
      tokens isBlank (ascii "/ab" ++ 11 :: ascii "c") = [ascii "/ab" ++ 11 :: ascii "c"] ∧
      (loadState (saveState (offerEnv [] []) (oneHook (98 :: 11 :: ascii "c"))
        { disk := bareDisk [] [] [] }).1.disk.state).1.hooks = [⟨ascii "/ab", 1⟩] ∧
      (fullState.hooks.all fun h => safeAbs h.target) = true ∧ stateSize fullState = 8213 ∧
      (saveState (offerEnv [] []) fullState { disk := bareDisk [] [] [] }).2 = 0 ∧
      ((loadState (saveState (offerEnv [] []) fullState
        { disk := bareDisk [] [] [] }).1.disk.state).1.hooks.map fun h => h.target.length) =
          replicate 31 239 ++ [218] := by
  refine ⟨?_, ?_, ?_, ?_, ?_, ?_, ?_⟩ <;> decide +kernel

end QemuIos.ItBoot

import QemuIos.Baseband.Gsm7

/-!
# The alphabet's round trip

A string the alphabet can carry is a sequence of table entries, and what is packed are their
septets. Reading the septets back gives the entries again, with one exception: the table has
`Æ` where the escape is, so it is never read back.
-/

namespace QemuIos.Baseband
open CText Bits List

variable {v max i : Nat} {codes : List Nat} {s out : Bytes}

/-! ## The entries of the tables -/

/-- What `gsm7_lookup` can return: the alphabet without its second space, and the escapes. -/
def gsm7Codes : List Nat := (List.range 128).filter (· ≠ 31) ++ gsm7Ext.map (0x100 ||| ·.2)

/-- The text of a code. -/
def codeText (v : Nat) : Bytes := if v < 128 then gsm7Main.getD v [] else extText (v - 256)

/-- The septets of a code. -/
def codeSeptets (v : Nat) : List Nat := if v &&& 0x100 ≠ 0 then [0x1b, v &&& 0xff] else [v]

theorem codeText_ne_nil : ∀ v ∈ gsm7Codes, codeText v ≠ [] := by decide +kernel

theorem codeText_nodup : (gsm7Codes.map codeText).Nodup := by decide +kernel

/-- The first byte of a text tells its length. -/
theorem codeText_length : ∀ v ∈ gsm7Codes, (codeText v).length =
    if (codeText v).headD 0 < 0x80 then 1 else if (codeText v).headD 0 < 0xe0 then 2 else 3 := by
  decide +kernel

theorem codeText_inj {w : Nat} (isCode : v ∈ gsm7Codes) (isCode' : w ∈ gsm7Codes)
    (same : codeText v = codeText w) : v = w :=
  inj_on_of_nodup_map codeText_nodup isCode isCode' same

theorem codeText_prefixFree {w : Nat} (isCode : v ∈ gsm7Codes) (isCode' : w ∈ gsm7Codes)
    (begins : codeText v <+: codeText w) : v = w := by
  apply codeText_inj isCode isCode'
  obtain ⟨c, cs, shape⟩ := exists_cons_of_ne_nil (codeText_ne_nil v isCode)
  have length := codeText_length v isCode
  have length' := codeText_length w isCode'
  obtain ⟨rest, whole⟩ := begins
  rw [shape, cons_append] at whole
  rw [← whole, headD_cons, whole] at length'
  rw [shape, headD_cons, ← shape] at length
  rw [← cons_append, ← shape] at whole
  exact (List.IsPrefix.eq_of_length ⟨rest, whole⟩ (length.trans length'.symm))

/-- A string splits into codes in one way at most. -/
theorem flatMap_codeText_inj {codes' : List Nat} (valid : ∀ v ∈ codes, v ∈ gsm7Codes)
    (valid' : ∀ v ∈ codes', v ∈ gsm7Codes)
    (same : codes.flatMap codeText = codes'.flatMap codeText) : codes = codes' := by
  induction codes generalizing codes' with
  | nil =>
    cases codes' with
    | nil => rfl
    | cons w codes' =>
      have empty := append_eq_nil_iff.mp ((flatMap_cons ..).symm.trans same.symm)
      exact absurd empty.1 (codeText_ne_nil w (valid' w mem_cons_self))
  | cons v codes ih =>
    cases codes' with
    | nil =>
      have empty := append_eq_nil_iff.mp ((flatMap_cons ..).symm.trans same)
      exact absurd empty.1 (codeText_ne_nil v (valid v mem_cons_self))
    | cons w codes' =>
      rw [flatMap_cons, flatMap_cons] at same
      have isCode := valid v mem_cons_self
      have isCode' := valid' w mem_cons_self
      have first : v = w := by
        have begins : codeText v <+: codeText w ++ codes'.flatMap codeText :=
          ⟨codes.flatMap codeText, same⟩
        rcases prefix_or_prefix_of_prefix begins (prefix_append ..) with le | ge
        · exact codeText_prefixFree isCode isCode' le
        · exact (codeText_prefixFree isCode' isCode ge).symm
      subst first
      rw [ih (fun x member => valid x (mem_cons_of_mem _ member))
        (fun x member => valid' x (mem_cons_of_mem _ member)) (append_cancel_left same)]

theorem gsm7Lookup_spec {n : Nat} (found : gsm7Lookup s = some (v, n)) :
    v ∈ gsm7Codes ∧ codeText v <+: s ∧ n = (codeText v).length := by
  unfold gsm7Lookup at found
  split at found
  · rename_i i first
    obtain ⟨rfl, rfl⟩ := Prod.mk.inj (Option.some.inj found)
    have member := mem_of_find?_eq_some first
    have passes := find?_some first
    rw [Bool.and_eq_true, decide_eq_true_eq, isPrefixOf_iff_prefix] at passes
    have text : codeText i = gsm7Main.getD i [] := if_pos (mem_range.mp member)
    rw [text]
    refine ⟨mem_append_left _ (mem_filter.mpr ⟨member, ?_⟩), passes.2, rfl⟩
    exact decide_eq_true passes.1
  · obtain ⟨e, first, same⟩ := Option.map_eq_some_iff.mp found
    obtain ⟨rfl, rfl⟩ := Prod.mk.inj same
    have member := mem_of_find?_eq_some first
    have passes := find?_some first
    rw [ isPrefixOf_iff_prefix] at passes
    have text : ∀ e ∈ gsm7Ext, codeText (0x100 ||| e.2) = e.1 := by decide +kernel
    rw [text e member]
    exact ⟨mem_append_right _ (mem_map_of_mem member), passes, rfl⟩

/-! ## Strings as codes -/

theorem exists_codes {fuel : Nat} (encodable : gsm7EncodableFrom fuel s) :
    ∃ codes : List Nat, (∀ v ∈ codes, v ∈ gsm7Codes) ∧ s = codes.flatMap codeText := by
  induction fuel generalizing s with
  | zero =>
    cases s with
    | nil => exact ⟨[], by simp, rfl⟩
    | cons c s => exact absurd encodable (by simp [gsm7EncodableFrom])
  | succ fuel ih =>
    cases s with
    | nil => exact ⟨[], by simp, rfl⟩
    | cons c s =>
      simp only [gsm7EncodableFrom] at encodable
      split at encodable
      · rename_i v n found
        obtain ⟨isCode, ⟨rest, whole⟩, rfl⟩ := gsm7Lookup_spec found
        rw [← whole, drop_left] at encodable
        obtain ⟨codes, valid, same⟩ := ih encodable
        refine ⟨v :: codes, forall_mem_cons.mpr ⟨isCode, valid⟩, ?_⟩
        rw [flatMap_cons, ← same, whole]
      · exact absurd encodable Bool.false_ne_true

theorem gsm7Lookup_none (missing : gsm7Lookup s = none) : ∀ v ∈ gsm7Codes, ¬ codeText v <+: s := by
  intro v isCode begins
  unfold gsm7Lookup at missing
  split at missing
  · exact absurd missing (Option.some_ne_none _)
  rename_i noMain
  rcases mem_append.mp isCode with inMain | inExt
  · obtain ⟨inRange, notSpace⟩ := mem_filter.mp inMain
    have fails := find?_eq_none.mp noMain v inRange
    have text : codeText v = gsm7Main.getD v [] := if_pos (mem_range.mp inRange)
    rw [text, ← isPrefixOf_iff_prefix] at begins
    exact fails (by rw [begins, notSpace]; rfl)
  · obtain ⟨e, member, rfl⟩ := mem_map.mp inExt
    have text : ∀ e ∈ gsm7Ext, codeText (0x100 ||| e.2) = e.1 := by decide +kernel
    rw [text e member, ← isPrefixOf_iff_prefix] at begins
    exact find?_eq_none.mp (Option.map_eq_none_iff.mp missing) e member begins

/-- The code at the head of a string is the one that is found. -/
theorem gsm7Lookup_code (isCode : v ∈ gsm7Codes) (rest : Bytes) :
    gsm7Lookup (codeText v ++ rest) = some (v, (codeText v).length) := by
  have begins : codeText v <+: codeText v ++ rest := prefix_append ..
  cases found : gsm7Lookup (codeText v ++ rest) with
  | none => exact absurd begins (gsm7Lookup_none found v isCode)
  | some result =>
    obtain ⟨w, n⟩ := result
    obtain ⟨isCode', begins', rfl⟩ := gsm7Lookup_spec found
    have same : w = v := by
      rcases prefix_or_prefix_of_prefix begins' begins with le | ge
      · exact codeText_prefixFree isCode' isCode le
      · exact (codeText_prefixFree isCode isCode' ge).symm
    rw [same]

/-- The septets of a string are those of its codes, unless the loop stops at its bound. -/
theorem gsm7SeptetsFrom_codes (valid : ∀ v ∈ codes, v ∈ gsm7Codes) (fuel ns : Nat)
    (enough : (codes.flatMap codeText).length ≤ fuel) :
    gsm7SeptetsFrom fuel ns (codes.flatMap codeText) = codes.flatMap codeSeptets ∨
      510 ≤ ns + (gsm7SeptetsFrom fuel ns (codes.flatMap codeText)).length := by
  induction codes generalizing fuel ns with
  | nil =>
    left
    simp [gsm7SeptetsFrom]
  | cons v codes ih =>
    obtain ⟨isCode, valid'⟩ := forall_mem_cons.mp valid
    obtain ⟨c, cs, shape⟩ := exists_cons_of_ne_nil (codeText_ne_nil v isCode)
    rw [flatMap_cons] at enough ⊢
    have found := gsm7Lookup_code isCode (codes.flatMap codeText)
    have next : (codeText v ++ codes.flatMap codeText).drop (codeText v).length =
        codes.flatMap codeText := drop_left ..
    cases fuel with
    | zero => simp [shape] at enough
    | succ fuel =>
      have enough' : (codes.flatMap codeText).length ≤ fuel := by
        rw [length_append, shape, length_cons] at enough
        omega
      generalize text : codeText v ++ codes.flatMap codeText = s at found next
      have nonempty : s ≠ [] := by simp [← text, shape]
      obtain ⟨c', s', rfl⟩ := exists_cons_of_ne_nil nonempty
      simp only [gsm7SeptetsFrom, found, next]
      by_cases room : ns + 2 < 512
      · rw [if_pos room, flatMap_cons]
        by_cases escaped : v &&& 0x100 ≠ 0
        · have septets : codeSeptets v = [0x1b, v &&& 0xff] := if_pos escaped
          rw [if_pos escaped, septets]
          rcases ih valid' fuel (ns + 2) enough' with same | long
          · left
            rw [same]
            rfl
          · right
            simp only [length_cons]
            omega
        · have septets : codeSeptets v = [v] := if_neg escaped
          rw [if_neg escaped, septets]
          rcases ih valid' fuel (ns + 1) enough' with same | long
          · left
            rw [same]
            rfl
          · right
            simp only [length_cons]
            omega
      · right
        rw [if_neg room]
        simp only [length_nil]
        omega

theorem gsm7Septets_codes (valid : ∀ v ∈ codes, v ∈ gsm7Codes)
    (short : (gsm7Septets (codes.flatMap codeText)).length ≤ 160) :
    gsm7Septets (codes.flatMap codeText) = codes.flatMap codeSeptets := by
  unfold gsm7Septets at short ⊢
  rcases gsm7SeptetsFrom_codes valid _ 0 (le_refl _) with same | long
  · exact same
  · omega

/-! ## Packed bits -/

/-- One bit put behind those of a buffer. -/
def putBit (max : Nat) (st : Bytes × Nat) (bit : Bool) : Except Bytes (Bytes × Nat) :=
  let out := if bit then setBit st.1 st.2 else st.1
  if max < (st.2 + 1) / 8 + 1 then .error out else .ok (out, st.2 + 1)

def septetBits (septet : Nat) : List Bool := (List.range 7).map septet.testBit

variable (septets : List Nat)

theorem foldlM_packSeptet (st : Bytes × Nat) :
    septets.foldlM (packSeptet max) st =
      (septets.flatMap septetBits).foldlM (putBit max) st := by
  induction septets generalizing st with
  | nil => rfl
  | cons septet septets ih =>
    have one : packSeptet max st septet = (septetBits septet).foldlM (putBit max) st := by
      unfold packSeptet septetBits
      rw [foldlM_map]
      rfl
    rw [foldlM_cons, flatMap_cons, foldlM_append, one]
    congr 1
    funext st'
    exact ih st'

/-- The bits of a buffer are exactly those put into it. -/
structure Packed (max : Nat) (bits : List Bool) (out : Bytes) : Prop where
  length : out.length = max
  bits : ∀ j, bitAt out j = bits.getD j false

theorem Packed.put {bits : List Bool} (packed : Packed max bits out)
    (room : bits.length < 8 * max) (bit : Bool) :
    Packed max (bits ++ [bit]) (if bit then setBit out bits.length else out) := by
  have inside : bits.length / 8 < out.length := by
    rw [packed.length]
    omega
  have last : ∀ j, (bits ++ [bit]).getD j false =
      (bits.getD j false || (decide (j = bits.length) && bit)) := by
    intro j
    simp only [getD_eq_getElem?_getD]
    rcases Nat.lt_trichotomy j bits.length with below | same | above
    · rw [getElem?_append_left below]
      simp [show j ≠ bits.length by omega]
    · subst same
      simp
    · rw [getElem?_append_right above.le, getElem?_eq_none (by simp; omega),
        getElem?_eq_none (by omega)]
      simp [show j ≠ bits.length by omega]
  cases bit with
  | false =>
    refine ⟨packed.length, fun j => ?_⟩
    rw [if_neg Bool.false_ne_true, last, packed.bits]
    simp
  | true =>
    refine ⟨by rw [if_pos rfl, length_setBit, packed.length], fun j => ?_⟩
    rw [if_pos rfl, bitAt_setBit inside, last, packed.bits]
    simp

/-- What a loop over bits leaves, as long as they fit. -/
theorem foldlM_putBit (max : Nat) (bits : List Bool) (room : bits.length < 8 * max) :
    ∃ out, bits.foldlM (putBit max) (replicate max 0, 0) = .ok (out, bits.length) ∧
      Packed max bits out := by
  induction bits using reverseRecOn with
  | nil => exact ⟨_, rfl, by simp, by simp⟩
  | append_singleton bits bit ih =>
    rw [length_append, length_singleton] at room
    obtain ⟨out, done, packed⟩ := ih (by omega)
    have more : ¬ max < (bits.length + 1) / 8 + 1 := by omega
    refine ⟨_, ?_, packed.put (by omega) bit⟩
    rw [foldlM_append, done]
    simp only [foldlM_cons, foldlM_nil, bind, Except.bind, putBit, if_neg more,
      length_append, length_singleton]
    rfl

theorem length_septetBits :
    (septets.flatMap septetBits).length = 7 * septets.length := by
  induction septets with
  | nil => rfl
  | cons septet septets ih =>
    rw [flatMap_cons, length_append, ih, length_cons, septetBits, length_map,
      length_range]
    omega

theorem getD_septetBits {k : Nat} (small : k < 7) :
    (septets.flatMap septetBits).getD (i * 7 + k) false = (septets.getD i 0).testBit k := by
  induction septets generalizing i with
  | nil => simp
  | cons septet septets ih =>
    have length : (septetBits septet).length = 7 := by simp [septetBits]
    rw [flatMap_cons, getD_eq_getElem?_getD]
    cases i with
    | zero =>
      rw [getElem?_append_left (by omega)]
      simp [septetBits, small]
    | succ i =>
      have skip : (i + 1) * 7 + k - (septetBits septet).length = i * 7 + k := by omega
      rw [getElem?_append_right (by omega), skip, ← getD_eq_getElem?_getD, ih,
        getD_cons_succ]

/-- Septets that fit into the buffer are packed whole. -/
theorem packSeptets_spec (max : Nat) (septets : List Nat) (room : 7 * septets.length ≤ 8 * max) :
    ∃ out, packSeptets max septets = (out, (7 * septets.length + 7) / 8) ∧
      Packed max (septets.flatMap septetBits) out := by
  have length := length_septetBits septets
  unfold packSeptets
  rw [foldlM_packSeptet, ← length]
  rw [← length] at room
  generalize septets.flatMap septetBits = bits at room
  rcases Nat.lt_or_eq_of_le room with less | full
  · obtain ⟨out, done, packed⟩ := foldlM_putBit max bits less
    rw [done]
    exact ⟨out, rfl, packed⟩
  rcases eq_nil_or_concat bits with rfl | ⟨start, bit, rfl⟩
  · exact ⟨_, rfl, by simp, by simp⟩
    -- the last bit fills the buffer, and the loop returns from inside
  rw [concat_eq_append, length_append, length_singleton] at full
  obtain ⟨out, done, packed⟩ := foldlM_putBit max start (by omega)
  have last : max < (start.length + 1) / 8 + 1 := by omega
  rw [concat_eq_append, foldlM_append, done]
  have kept := packed.put (by omega : start.length < 8 * max) bit
  refine ⟨_, ?_, kept⟩
  simp only [foldlM_cons, bind, Except.bind, putBit, if_pos last,
    length_append, length_singleton]
  congr 1
  omega

theorem wordAt_packed {septets : List Nat} (packed : Packed max (septets.flatMap septetBits) out)
    (small : ∀ v ∈ septets, v < 128) (inside : i < septets.length) :
    wordAt (out.take ((7 * septets.length + 7) / 8)) (i * 7) 7 = septets.getD i 0 := by
  apply wordAt_eq
  · rw [getD_eq_getElem _ _ inside]
    exact small _ (getElem_mem inside)
  · intro k less
    rw [bitAt_take (by omega), packed.bits, getD_septetBits septets less]

/-! ## Reading septets -/

/-- The text of a list of septets, from behind an escape or not. -/
def decodeSeptets : Bool → List Nat → Bytes
  | _, [] => []
  | true, v :: rest => extText v ++ decodeSeptets false rest
  | false, v :: rest =>
    if v = 0x1b then decodeSeptets true rest else gsm7Main.getD v [] ++ decodeSeptets false rest

theorem length_extText (v : Nat) : (extText v).length ≤ 3 := by
  have short : ∀ e ∈ gsm7Ext, e.1.length ≤ 3 := by decide
  unfold extText
  cases found : gsm7Ext.find? (·.2 = v) with
  | none => simp
  | some e => exact short e (mem_of_find?_eq_some found)

theorem length_gsm7Main (v : Nat) : (gsm7Main.getD v []).length ≤ 2 := by
  have short : ∀ text ∈ gsm7Main, text.length ≤ 2 := by decide +kernel
  rw [getD_eq_getElem?_getD]
  cases found : gsm7Main[v]? with
  | none => simp
  | some text => exact short text (mem_of_getElem? found)

/-- The loop reads the septets one by one; the text never fills a buffer of that size. -/
theorem gsm7UnpackFrom_eq {input : Bytes} {esc : Bool}
    (read : ∀ k < septets.length, wordAt input ((i + k) * 7) 7 = septets.getD k 0)
    (room : out.length + 2 * septets.length + esc.toNat + 3 ≤ max) :
    gsm7UnpackFrom input max septets.length i esc out = out ++ decodeSeptets esc septets := by
  induction septets generalizing i esc out with
  | nil => simp [gsm7UnpackFrom, decodeSeptets]
  | cons v septets ih =>
    rw [length_cons] at room read ⊢
    have here : wordAt input (i * 7) 7 = v := read 0 (by omega)
    have later : ∀ k < septets.length, wordAt input ((i + 1 + k) * 7) 7 = septets.getD k 0 := by
      intro k less
      have := read (k + 1) (by omega)
      rwa [getD_cons_succ, show i + (k + 1) = i + 1 + k by omega] at this
    have space : out.length + 4 < max := by omega
    rw [gsm7UnpackFrom, if_pos space, here]
    cases esc with
    | true =>
      have longest := length_extText v
      rw [Bool.toNat_true] at room
      rw [if_pos rfl, ih later (by simp; omega), decodeSeptets, append_assoc]
    | false =>
      have longest := length_gsm7Main v
      rw [Bool.toNat_false] at room
      rw [if_neg Bool.false_ne_true, decodeSeptets]
      by_cases escape : v = 0x1b
      · rw [if_pos escape, if_pos escape, ih later (by simp; omega)]
      have space' : (out ++ gsm7Main.getD v []).length + 2 * septets.length + Bool.toNat false + 3 ≤
          max := by
        rw [length_append, Bool.toNat_false]
        omega
      rw [if_neg escape, if_neg escape, ih later space', append_assoc]

/-- Codes other than `Æ` are read back. -/
theorem decodeSeptets_codes (valid : ∀ v ∈ codes, v ∈ gsm7Codes) (free : 27 ∉ codes) :
    decodeSeptets false (codes.flatMap codeSeptets) = codes.flatMap codeText := by
  induction codes with
  | nil => rfl
  | cons v codes ih =>
    obtain ⟨isCode, valid'⟩ := forall_mem_cons.mp valid
    rw [mem_cons, not_or] at free
    have one : ∀ v ∈ gsm7Codes, v ≠ 27 →
        (codeSeptets v = [v] ∧ v ≠ 0x1b ∧ codeText v = gsm7Main.getD v []) ∨
          (codeSeptets v = [0x1b, v &&& 0xff] ∧ codeText v = extText (v &&& 0xff)) := by
      decide +kernel
    rw [flatMap_cons, flatMap_cons]
    rcases one v isCode (Ne.symm free.1) with ⟨septets, notEscape, text⟩ | ⟨septets, text⟩
    · rw [septets, singleton_append, decodeSeptets, if_neg notEscape, ih valid' free.2, text]
    · rw [septets, cons_append, singleton_append, decodeSeptets, if_pos rfl,
        decodeSeptets, ih valid' free.2, text]

/-- Whatever is read, it is a sequence of codes without `Æ`. -/
theorem decodeSeptets_free (esc : Bool) (septets : List Nat) (small : ∀ v ∈ septets, v < 128) :
    ∃ codes : List Nat, (∀ v ∈ codes, v ∈ gsm7Codes) ∧ 27 ∉ codes ∧
      decodeSeptets esc septets = codes.flatMap codeText := by
  induction septets generalizing esc with
  | nil => exact ⟨[], by simp, by simp, by cases esc <;> rfl⟩
  | cons v septets ih =>
    obtain ⟨less, small'⟩ := forall_mem_cons.mp small
    have one : ∀ v < 128, v ≠ 27 → ∃ w ∈ gsm7Codes, w ≠ 27 ∧ codeText w = gsm7Main.getD v [] := by
      decide +kernel
    have two : ∀ v < 128, extText v = [] ∨ ∃ w ∈ gsm7Codes, w ≠ 27 ∧ codeText w = extText v := by
      decide +kernel
    have more : ∀ w ∈ gsm7Codes, w ≠ 27 → ∀ esc', ∃ codes : List Nat,
        (∀ v ∈ codes, v ∈ gsm7Codes) ∧ 27 ∉ codes ∧
          codeText w ++ decodeSeptets esc' septets = codes.flatMap codeText := by
      intro w isCode notAe esc'
      obtain ⟨codes, valid, free, same⟩ := ih esc' small'
      refine ⟨w :: codes, forall_mem_cons.mpr ⟨isCode, valid⟩, ?_, ?_⟩
      · rw [mem_cons, not_or]
        exact ⟨Ne.symm notAe, free⟩
      · rw [flatMap_cons, same]
    cases esc with
    | true =>
      rw [decodeSeptets]
      rcases two v less with empty | ⟨w, isCode, notAe, text⟩
      · rw [empty, nil_append]
        exact ih false small'
      · rw [← text]
        exact more w isCode notAe false
    | false =>
      rw [decodeSeptets]
      by_cases escape : v = 0x1b
      · rw [if_pos escape]
        exact ih true small'
      · obtain ⟨w, isCode, notAe, text⟩ := one v less escape
        rw [if_neg escape, ← text]
        exact more w isCode notAe false

theorem codeSeptets_small (valid : ∀ v ∈ codes, v ∈ gsm7Codes) :
    ∀ v ∈ codes.flatMap codeSeptets, v < 128 := by
  have one : ∀ v ∈ gsm7Codes, ∀ w ∈ codeSeptets v, w < 128 := by decide +kernel
  intro w member
  obtain ⟨v, isCode, inSeptets⟩ := mem_flatMap.mp member
  exact one v (valid v isCode) w inSeptets

/-! ## The two bytes of `Æ` -/

/-- Two bytes that follow each other in a concatenation are in a part or across the border. -/
theorem pair_infix_append {a b : UInt8} {l r : Bytes} (inside : [a, b] <:+: l ++ r) :
    [a, b] <:+: l ∨ (l.getLast? = some a ∧ r.head? = some b) ∨ [a, b] <:+: r := by
  induction l with
  | nil => exact .inr (.inr inside)
  | cons c l ih =>
    rw [cons_append, infix_cons_iff] at inside
    rcases inside with begins | inside
    · cases l with
      | nil =>
        rw [nil_append] at begins
        obtain ⟨rest, whole⟩ := begins
        obtain ⟨rfl, tail⟩ := cons.inj whole
        right
        left
        simp [← tail]
      | cons d l =>
        left
        obtain ⟨rest, whole⟩ := begins
        simp only [cons_append, cons.injEq, nil_append] at whole
        obtain ⟨rfl, rfl, -⟩ := whole
        exact ⟨[], l, rfl⟩
    · rcases ih inside with left | ⟨last, first⟩ | right
      · exact .inl (left.trans (suffix_cons ..).isInfix)
      · right
        left
        refine ⟨?_, first⟩
        rw [getLast?_cons, last]
        rfl
      · exact .inr (.inr right)

/-- The bytes of `Æ` are in a string only as its code. -/
theorem ae_infix_iff (valid : ∀ v ∈ codes, v ∈ gsm7Codes) :
    [0xc3, 0x86] <:+: codes.flatMap codeText ↔ 27 ∈ codes := by
  have ends : ∀ v ∈ gsm7Codes, (codeText v).getLast? ≠ some 0xc3 := by decide +kernel
  have whole : ∀ v ∈ gsm7Codes, [0xc3, 0x86] <:+: codeText v → v = 27 := by decide +kernel
  constructor
  · intro inside
    induction codes with
    | nil => simp at inside
    | cons v codes ih =>
      obtain ⟨isCode, valid'⟩ := forall_mem_cons.mp valid
      rw [flatMap_cons] at inside
      rcases pair_infix_append inside with here | ⟨last, -⟩ | later
      · rw [whole v isCode here]
        exact mem_cons_self
      · exact absurd last (ends v isCode)
      · exact mem_cons_of_mem _ (ih valid' later)
  · intro member
    obtain ⟨front, back, rfl⟩ := append_of_mem member
    rw [flatMap_append, flatMap_cons]
    exact ⟨front.flatMap codeText, back.flatMap codeText, by rw [append_assoc]; rfl⟩

/-- Packing and unpacking gives an encodable string of at most 160 septets back exactly when
`Æ` is not in it; the number of octets is always that of the septets. -/
theorem gsm7_round_trip_iff (s : Bytes) (max max' : Nat) (octets : 140 ≤ max) (room : 323 ≤ max')
    (encodable : gsm7Encodable s) (short : (gsm7Pack s max).2 ≤ 160) :
    (gsm7Unpack (gsm7Pack s max).1 (gsm7Pack s max).2 max' = s ∧
        (gsm7Pack s max).1.length = (7 * (gsm7Pack s max).2 + 7) / 8) ↔
      ¬ [0xc3, 0x86] <:+: s := by
  obtain ⟨codes, valid, rfl⟩ := exists_codes encodable
  have septets := gsm7Septets_codes valid short
  have count : (gsm7Pack (codes.flatMap codeText) max).2 = (codes.flatMap codeSeptets).length := by
    rw [← septets]
    rfl
  rw [count] at short
  obtain ⟨out, packs, packed⟩ :=
    packSeptets_spec max (codes.flatMap codeSeptets) (by omega)
  have written : (gsm7Pack (codes.flatMap codeText) max).1 =
      out.take ((7 * (codes.flatMap codeSeptets).length + 7) / 8) := by
    unfold gsm7Pack
    rw [septets, packs]
  have small := codeSeptets_small valid
  have read : gsm7Unpack (out.take ((7 * (codes.flatMap codeSeptets).length + 7) / 8))
      (codes.flatMap codeSeptets).length max' =
        decodeSeptets false (codes.flatMap codeSeptets) := by
    unfold gsm7Unpack
    rw [gsm7UnpackFrom_eq]
    · rfl
    · intro k inside
      rw [Nat.zero_add]
      exact wordAt_packed packed small inside
    · simp only [length_nil, Bool.toNat_false]
      omega
  rw [written, count, read, ae_infix_iff valid]
  constructor
  · rintro ⟨same, -⟩ member
    obtain ⟨codes', valid', free, same'⟩ := decodeSeptets_free false _ small
    rw [flatMap_codeText_inj valid valid' (same.symm.trans same')] at member
    exact free member
  · intro free
    refine ⟨decodeSeptets_codes valid free, ?_⟩
    rw [length_take, packed.length]
    omega

/-- A string of one- and two-septet characters. -/
theorem brackets_round_trip :
    gsm7Unpack (gsm7Pack (ascii "Hi [1]") 180).1 (gsm7Pack (ascii "Hi [1]") 180).2 512 =
      ascii "Hi [1]" :=
  ((gsm7_round_trip_iff (ascii "Hi [1]") 180 512 (by decide) (by decide) (by decide +kernel)
    (by decide +kernel)).mpr (by decide)).1

/-- `Æ` is packed as the escape and read back as nothing. -/
theorem ae_is_lost :
    gsm7Encodable [0xc3, 0x86] ∧ (gsm7Pack [0xc3, 0x86] 180).2 = 1 ∧
      gsm7Unpack (gsm7Pack [0xc3, 0x86] 180).1 (gsm7Pack [0xc3, 0x86] 180).2 512 = [] := by
  decide +kernel

end QemuIos.Baseband

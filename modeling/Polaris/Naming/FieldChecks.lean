import Polaris.Bolt.SortedMap

/-!
# The field checks of `naming/utils.go`, and counting runes

`checkResourceOwners`, `checkInstancePort`, `checkMetadata`, `CheckDbStrFieldLen` and
`CheckDbMetaDataFieldLen` check the fields of a request before it reaches the store.  The
length checks count with `utf8.RuneCountInString` of the standard library.  Its loop steps over
a string one sequence at a time, by the table `first` of package `unicode/utf8` and the
ranges `acceptRanges` a second byte must lie in, and counts a byte that starts no well-formed
sequence as one rune.

`Utf8Char` states what a well-formed UTF-8 encoding of one character is, apart from Go's
table: a byte below `0x80`, or a lead byte and its continuation bytes, with the ranges that
exclude overlong forms, surrogates and code points above `U+10FFFF`.

Principal results:

* `RuneCountInString_counts_characters` — on a text of well-formed characters the count is
  their number; on any bytes it lies between a quarter of the length and the length;
* `length_checks_count_characters` — the limits of `CheckDbStrFieldLen` and
  `checkResourceOwners` are limits on characters, not on bytes.
-/

set_option autoImplicit false

namespace Polaris

/-! ## `unicode/utf8` -/

/-- `locb`, the least continuation byte. -/
def locb : Nat := 0x80

/-- `hicb`, the greatest continuation byte. -/
def hicb : Nat := 0xBF

/-- `first`: for each byte, `as` (`0xF0`, ASCII), `xx` (`0xF1`, invalid), or one of `s1` …
`s7`, whose high nibble indexes `acceptRanges` and whose low nibble is the length of the
sequence the byte starts. -/
def utf8First (c : Fin 256) : Nat :=
  if c.val < 0x80 then 0xF0
  else if c.val < 0xC2 then 0xF1
  else if c.val < 0xE0 then 0x02
  else if c.val = 0xE0 then 0x13
  else if c.val < 0xED then 0x03
  else if c.val = 0xED then 0x23
  else if c.val < 0xF0 then 0x03
  else if c.val = 0xF0 then 0x34
  else if c.val < 0xF4 then 0x04
  else if c.val = 0xF4 then 0x44
  else 0xF1

/-- `acceptRanges`: the range of a sequence's second byte.  The entries after the fifth are
Go's zero value. -/
def acceptRanges : Nat → Nat × Nat
  | 0 => (locb, hicb)
  | 1 => (0xA0, hicb)
  | 2 => (locb, 0x9F)
  | 3 => (0x90, hicb)
  | 4 => (locb, 0x8F)
  | _ => (0, 0)

/-- The rest of an iteration of `RuneCountInString`'s loop after a lead byte whose sequence has
`size` bytes and whose second byte must lie in `accept`: one byte for a sequence cut short by
the end of the string or a byte out of its range, else `size`. -/
def runeSize (size : Nat) (accept : Nat × Nat) (s : Bytes) : Nat :=
  if s.length + 1 < size then 1
  else if (s.getD 0 0).val < accept.1 ∨ accept.2 < (s.getD 0 0).val then 1
  else if size = 2 then size
  else if (s.getD 1 0).val < locb ∨ hicb < (s.getD 1 0).val then 1
  else if size = 3 then size
  else if (s.getD 2 0).val < locb ∨ hicb < (s.getD 2 0).val then 1
  else size

/-- How far one iteration of `RuneCountInString`'s loop moves `i`, at a byte `c` followed by
`s`: one byte for ASCII and for an invalid byte; else as `runeSize` says, with `size := x & 7`
and `accept := acceptRanges[x>>4]` for `x := first[c]`. -/
def runeStep (c : Fin 256) (s : Bytes) : Nat :=
  if c.val < 0x80 then 1
  else if utf8First c = 0xF1 then 1
  else runeSize (utf8First c &&& 7) (acceptRanges (utf8First c >>> 4)) s

set_option maxRecDepth 2000 in
/-- Past ASCII, a byte that is not `xx` starts a sequence of two to four bytes, on every byte
of the table. -/
theorem utf8First_size : ∀ c : Fin 256, 0x80 ≤ c.val → utf8First c ≠ 0xF1 →
    2 ≤ utf8First c &&& 7 ∧ utf8First c &&& 7 ≤ 4 := by
  decide

theorem runeSize_bounds (size : Nat) (h : 1 ≤ size) (accept : Nat × Nat) (s : Bytes) :
    1 ≤ runeSize size accept s ∧ runeSize size accept s ≤ min size (s.length + 1) := by
  unfold runeSize
  split_ifs <;> omega

/-- One iteration moves `i` on by one to four bytes, and not past the end of the string. -/
theorem runeStep_bounds (c : Fin 256) (s : Bytes) :
    1 ≤ runeStep c s ∧ runeStep c s ≤ min 4 (s.length + 1) := by
  unfold runeStep
  split_ifs with h hx
  · omega
  · omega
  · have := utf8First_size c (by omega) hx
    have := runeSize_bounds (utf8First c &&& 7) (by omega) (acceptRanges (utf8First c >>> 4)) s
    omega

/-- `utf8.RuneCountInString(s)`: one rune per iteration of its loop. -/
def RuneCountInString : Bytes → Nat
  | [] => 0
  | c :: s => RuneCountInString ((c :: s).drop (runeStep c s)) + 1
termination_by s => s.length
decreasing_by
  simp_wf
  have := (runeStep_bounds c s).1
  omega

/-! ## Well-formed characters -/

/-- A continuation byte, `0x80` … `0xBF`. -/
def IsTail (b : Fin 256) : Prop := 0x80 ≤ b.val ∧ b.val ≤ 0xBF

/-- The well-formed UTF-8 encodings of one character, by the range of each byte. -/
inductive Utf8Char : Bytes → Prop where
  | one {a : Fin 256} : a.val ≤ 0x7F → Utf8Char [a]
  | two {a b : Fin 256} : 0xC2 ≤ a.val → a.val ≤ 0xDF → IsTail b → Utf8Char [a, b]
  | e0 {a b c : Fin 256} : a.val = 0xE0 → 0xA0 ≤ b.val → b.val ≤ 0xBF → IsTail c →
      Utf8Char [a, b, c]
  | e1ec {a b c : Fin 256} : 0xE1 ≤ a.val → a.val ≤ 0xEC → IsTail b → IsTail c →
      Utf8Char [a, b, c]
  | ed {a b c : Fin 256} : a.val = 0xED → 0x80 ≤ b.val → b.val ≤ 0x9F → IsTail c →
      Utf8Char [a, b, c]
  | eeef {a b c : Fin 256} : 0xEE ≤ a.val → a.val ≤ 0xEF → IsTail b → IsTail c →
      Utf8Char [a, b, c]
  | f0 {a b c d : Fin 256} : a.val = 0xF0 → 0x90 ≤ b.val → b.val ≤ 0xBF → IsTail c → IsTail d →
      Utf8Char [a, b, c, d]
  | f1f3 {a b c d : Fin 256} : 0xF1 ≤ a.val → a.val ≤ 0xF3 → IsTail b → IsTail c → IsTail d →
      Utf8Char [a, b, c, d]
  | f4 {a b c d : Fin 256} : a.val = 0xF4 → 0x80 ≤ b.val → b.val ≤ 0x8F → IsTail c → IsTail d →
      Utf8Char [a, b, c, d]

theorem Utf8Char.ne_nil {c : Bytes} (h : Utf8Char c) : c ≠ [] := by
  cases h <;> exact List.cons_ne_nil _ _

theorem runeSize_two {lo hi : Nat} {b : Fin 256} (h₁ : lo ≤ b.val) (h₂ : b.val ≤ hi)
    (rest : Bytes) : runeSize 2 (lo, hi) (b :: rest) = 2 := by
  simp (disch := omega) only [runeSize, if_neg, if_pos, List.getD_cons_zero, List.length_cons,
    if_true]

theorem runeSize_three {lo hi : Nat} {b c : Fin 256} (h₁ : lo ≤ b.val) (h₂ : b.val ≤ hi)
    (hc : IsTail c) (rest : Bytes) : runeSize 3 (lo, hi) (b :: c :: rest) = 3 := by
  simp only [IsTail] at hc
  simp (disch := omega) only [runeSize, if_neg, if_pos, List.getD_cons_zero, List.getD_cons_succ,
    List.length_cons, locb, hicb, if_true]

theorem runeSize_four {lo hi : Nat} {b c d : Fin 256} (h₁ : lo ≤ b.val) (h₂ : b.val ≤ hi)
    (hc : IsTail c) (hd : IsTail d) (rest : Bytes) :
    runeSize 4 (lo, hi) (b :: c :: d :: rest) = 4 := by
  simp only [IsTail] at hc hd
  simp (disch := omega) only [runeSize, if_neg, if_pos, List.getD_cons_zero, List.getD_cons_succ,
    List.length_cons, locb, hicb, if_true]

/-- **The step lemma**: at a well-formed character, the loop steps over exactly its bytes,
whatever follows. -/
theorem runeStep_of_utf8Char {c : Fin 256} {t : Bytes} (h : Utf8Char (c :: t)) (rest : Bytes) :
    runeStep c (t ++ rest) = t.length + 1 := by
  cases h with
  | one h₁ => simp [runeStep, show c.val < 0x80 by omega]
  | two h₁ h₂ hb =>
    simp (disch := omega) only [List.cons_append, runeStep, utf8First, if_pos, if_neg]
    exact runeSize_two hb.1 hb.2 rest
  | e0 h₁ h₂ h₃ hc =>
    simp (disch := omega) only [List.cons_append, runeStep, utf8First, if_pos, if_neg]
    exact runeSize_three h₂ h₃ hc rest
  | e1ec h₁ h₂ hb hc =>
    simp (disch := omega) only [List.cons_append, runeStep, utf8First, if_pos, if_neg]
    exact runeSize_three hb.1 hb.2 hc rest
  | ed h₁ h₂ h₃ hc =>
    simp (disch := omega) only [List.cons_append, runeStep, utf8First, if_pos, if_neg]
    exact runeSize_three h₂ h₃ hc rest
  | eeef h₁ h₂ hb hc =>
    simp (disch := omega) only [List.cons_append, runeStep, utf8First, if_pos, if_neg]
    exact runeSize_three hb.1 hb.2 hc rest
  | f0 h₁ h₂ h₃ hc hd =>
    simp (disch := omega) only [List.cons_append, runeStep, utf8First, if_pos, if_neg]
    exact runeSize_four h₂ h₃ hc hd rest
  | f1f3 h₁ h₂ hb hc hd =>
    simp (disch := omega) only [List.cons_append, runeStep, utf8First, if_pos, if_neg]
    exact runeSize_four hb.1 hb.2 hc hd rest
  | f4 h₁ h₂ h₃ hc hd =>
    simp (disch := omega) only [List.cons_append, runeStep, utf8First, if_pos, if_neg]
    exact runeSize_four h₂ h₃ hc hd rest

theorem RuneCountInString_utf8Char {c : Bytes} (h : Utf8Char c) (rest : Bytes) :
    RuneCountInString (c ++ rest) = RuneCountInString rest + 1 := by
  obtain ⟨a, t, rfl⟩ := List.exists_cons_of_ne_nil h.ne_nil
  rw [List.cons_append, RuneCountInString, runeStep_of_utf8Char h,
    ← List.cons_append, List.drop_left' (by simp)]

/-- **The run lemma**: the loop counts at most one rune a byte and at least one every four
bytes. -/
theorem RuneCountInString_bounds (s : Bytes) :
    RuneCountInString s ≤ s.length ∧ s.length ≤ 4 * RuneCountInString s := by
  induction s using RuneCountInString.induct with
  | case1 => simp [RuneCountInString]
  | case2 c s ih =>
    have := runeStep_bounds c s
    rw [RuneCountInString.eq_2]
    simp only [List.length_drop, List.length_cons] at ih ⊢
    omega

theorem RuneCountInString_flatten {chars : List Bytes} (h : ∀ c ∈ chars, Utf8Char c) :
    RuneCountInString chars.flatten = chars.length := by
  induction chars with
  | nil => simp [RuneCountInString]
  | cons c chars ih =>
    rw [List.flatten_cons, RuneCountInString_utf8Char (h c (.head _)),
      ih fun c' hc' => h c' (.tail _ hc'), List.length_cons]

/-- **`RuneCountInString` counts characters.**  On a text made of well-formed UTF-8 characters
it returns their number; on any bytes, well-formed or not, at most one rune a byte and at least
one every four bytes. -/
theorem RuneCountInString_counts_characters (chars : List Bytes)
    (hchars : ∀ c ∈ chars, Utf8Char c) (s : Bytes) :
    RuneCountInString chars.flatten = chars.length ∧
      RuneCountInString s ≤ s.length ∧ s.length ≤ 4 * RuneCountInString s :=
  ⟨RuneCountInString_flatten hchars, RuneCountInString_bounds s⟩

/-- The UTF-8 encoding of 负责人, three characters of three bytes each. -/
def ownersText : List Bytes := [[0xE8, 0xB4, 0x9F], [0xE8, 0xB4, 0xA3], [0xE4, 0xBA, 0xBA]]

theorem utf8Char_ownersText : ∀ c ∈ ownersText, Utf8Char c := by
  intro c hc
  simp only [ownersText, List.mem_cons, List.mem_singleton, List.not_mem_nil, or_false] at hc
  rcases hc with rfl | rfl | rfl <;>
    exact .e1ec (by decide) (by decide) ⟨by decide, by decide⟩ ⟨by decide, by decide⟩

theorem RuneCountInString_counts_characters_ownersText :
    (∀ c ∈ ownersText, Utf8Char c) ∧
    RuneCountInString ownersText.flatten = ownersText.length ∧
      RuneCountInString [0xFF, 0xE8, 0xB4] ≤ [(0xFF : Fin 256), 0xE8, 0xB4].length ∧
      [(0xFF : Fin 256), 0xE8, 0xB4].length ≤ 4 * RuneCountInString [0xFF, 0xE8, 0xB4] :=
  ⟨utf8Char_ownersText,
    RuneCountInString_counts_characters ownersText utf8Char_ownersText [0xFF, 0xE8, 0xB4]⟩

/-! ## The checks -/

/-- `MaxOwnersLength`. -/
def MaxOwnersLength : Nat := 1024

/-- `MaxMetadataLength`. -/
def MaxMetadataLength : Nat := 64

/-- `checkResourceOwners(owners)`, `none` for a nil wrapper. -/
def checkResourceOwners (owners : Option Bytes) : Except String Unit :=
  match owners with
  | none => .error "nil"
  | some v =>
    if v = [] then .error "empty"
    else if RuneCountInString v > MaxOwnersLength then .error "owners too long"
    else .ok ()

/-- `checkInstancePort(port)`: `port.GetValue()` is a `uint32`. -/
def checkInstancePort (port : Option UInt32) : Except String Unit :=
  match port with
  | none => .error "nil"
  | some p => if p < 0 then .error "empty" else .ok ()

/-- `checkMetadata(meta)`.  The check of each key's and value's characters is commented out in
the source: only the number of entries is checked. -/
def checkMetadata (meta : Option (List (Bytes × Bytes))) : Except String Unit :=
  match meta with
  | none => .ok ()
  | some m => if m.length > MaxMetadataLength then .error "metadata is too long" else .ok ()

/-- `CheckDbStrFieldLen(param, dbLen)`: `GetValue` of a nil wrapper is `""`. -/
def CheckDbStrFieldLen (param : Option Bytes) (dbLen : Int) : Except Bytes Unit :=
  let v := param.getD []
  if v ≠ [] ∧ (RuneCountInString v : Int) > dbLen then
    .error (ascii "length of " ++ v ++ ascii " is over " ++ ascii (toString dbLen))
  else .ok ()

/-- `CheckDbMetaDataFieldLen(metaData)`: the error of the first entry, in the order `range`
visits them, whose key has more than 128 runes or whose value more than 4096. -/
def CheckDbMetaDataFieldLen (metaData : Option (List (Bytes × Bytes))) : Except Bytes Unit :=
  match (metaData.getD []).find? fun kv =>
      RuneCountInString kv.1 > 128 || RuneCountInString kv.2 > 4096 with
  | none => .ok ()
  | some kv =>
    .error (ascii "metadata:length of key(" ++ kv.1 ++ ascii ") or value(" ++ kv.2 ++
      ascii ") is over size(key:128,value:4096)")

theorem checkMetadata_ok_iff (meta : Option (List (Bytes × Bytes))) :
    checkMetadata meta = .ok () ↔ (meta.getD []).length ≤ MaxMetadataLength := by
  cases meta <;> simp [checkMetadata, MaxMetadataLength]

theorem CheckDbMetaDataFieldLen_ok_iff (metaData : Option (List (Bytes × Bytes))) :
    CheckDbMetaDataFieldLen metaData = .ok () ↔
      ∀ kv ∈ metaData.getD [], RuneCountInString kv.1 ≤ 128 ∧ RuneCountInString kv.2 ≤ 4096 := by
  unfold CheckDbMetaDataFieldLen
  split
  · rename_i h
    simp only [true_iff]
    intro kv hkv
    simpa using List.find?_eq_none.mp h kv hkv
  · rename_i kv h
    simp only [reduceCtorEq, false_iff, not_forall]
    have := List.find?_some h
    simp only [Bool.or_eq_true, decide_eq_true_eq] at this
    exact ⟨kv, List.mem_of_find?_eq_some h, by omega⟩

theorem CheckDbStrFieldLen_error (param : Option Bytes) (dbLen : Int)
    (h : CheckDbStrFieldLen param dbLen ≠ .ok ()) :
    CheckDbStrFieldLen param dbLen =
      .error (ascii "length of " ++ param.getD [] ++ ascii " is over " ++ ascii (toString dbLen)) := by
  simp only [CheckDbStrFieldLen] at h ⊢
  split_ifs at h ⊢
  · rfl
  · exact absurd rfl h

/-- **The length limits are on characters.**  For a text of well-formed UTF-8 characters,
`CheckDbStrFieldLen` passes exactly when the text is empty or has at most `dbLen` characters,
and `checkResourceOwners` exactly when it has one to `MaxOwnersLength` characters, whatever
number of bytes they take. -/
theorem length_checks_count_characters (chars : List Bytes) (hchars : ∀ c ∈ chars, Utf8Char c)
    (dbLen : Int) :
    (CheckDbStrFieldLen (some chars.flatten) dbLen = .ok () ↔
      chars = [] ∨ (chars.length : Int) ≤ dbLen) ∧
    (checkResourceOwners (some chars.flatten) = .ok () ↔
      chars ≠ [] ∧ chars.length ≤ MaxOwnersLength) := by
  have hcount := RuneCountInString_flatten hchars
  have hnil : chars.flatten = [] ↔ chars = [] := by
    simp only [List.flatten_eq_nil_iff]
    exact ⟨fun h => List.eq_nil_iff_forall_not_mem.mpr fun c hc => (hchars c hc).ne_nil (h c hc),
      fun h c hc => by simp [h] at hc⟩
  constructor
  · simp only [CheckDbStrFieldLen, Option.getD_some, hcount, ne_eq, hnil]
    split_ifs with h
    · obtain ⟨h₁, h₂⟩ := h
      simp only [reduceCtorEq, false_iff, not_or]
      exact ⟨h₁, by omega⟩
    · simp only [true_iff]
      by_contra hn
      simp only [not_or] at hn
      exact h ⟨hn.1, by omega⟩
  · simp only [checkResourceOwners, hcount, hnil]
    split_ifs with h₁ h₂ <;> simp [h₁] <;> omega

/-- 负责人 has three characters in nine bytes: it passes a limit of three. -/
theorem length_checks_count_characters_ownersText :
    (∀ c ∈ ownersText, Utf8Char c) ∧
    (CheckDbStrFieldLen (some ownersText.flatten) 3 = .ok () ↔
      ownersText = [] ∨ (ownersText.length : Int) ≤ 3) ∧
    (checkResourceOwners (some ownersText.flatten) = .ok () ↔
      ownersText ≠ [] ∧ ownersText.length ≤ MaxOwnersLength) :=
  ⟨utf8Char_ownersText, length_checks_count_characters ownersText utf8Char_ownersText 3⟩

end Polaris

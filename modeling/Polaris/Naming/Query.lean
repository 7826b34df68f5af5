import Polaris.Store.Namespace

/-!
# Query offsets and limits, and the page `GetNamespaces` cuts

`checkQueryOffset` and `checkQueryLimit` (naming/utils.go) read the `offset` and `limit` query
parameters with `strconv.Atoi`, refuse a repeated parameter and a negative value, and cap the
limit at `MaxQuerySize` (a constant of the package that is not in the sources, a parameter
here).  `GetNamespaces` then cuts its page at `offset * limit`, a product in Go's 64-bit
`int`.

`Atoi` is the standard library's `ParseInt(s, 10, 0)`: an optional sign and decimal digits,
refused outside `[-2^63, 2^63)`.  So the checks admit every offset in `[0, 2^63)`, and the
product wraps: at offset `2^62` and limit `2` it is `-2^63`, and the slice expression panics
whatever the store holds.

Principal results:

* `checkQueryOffset_ok`, `checkQueryLimit_ok` — the values the checks admit lie in
  `[0, 2^63)` and `[0, MaxQuerySize]`;
* `getNamespaces_offset_overflow` — for admitted values whose product and end index stay
  below `2^63` the page is the slice of the sorted namespaces the unbounded product names;
  at the admitted offset `2^62` and limit `2` the call panics.
-/

set_option autoImplicit false

namespace Polaris

/-! ## `strconv.Atoi` -/

/-- Why `strconv` refused a string: `ErrSyntax` (invalid syntax) or `ErrRange` (value out of
range). -/
inductive NumErr where
  | invalid
  | outOfRange
  deriving DecidableEq, Repr

/-- A `*strconv.NumError`: the string refused, and why. -/
structure NumError where
  num : Bytes
  err : NumErr
  deriving DecidableEq, Repr

/-- `maxUint64`, the largest value of a 64-bit `ParseUint`. -/
def maxUint64 : Nat := 2 ^ 64 - 1

/-- The loop of `ParseUint(s, 10, 64)` from the value `n` read so far: a byte other than
`'0'`…`'9'` is `ErrSyntax`; a digit that would take the value past `maxUint64` is `ErrRange`
(`n ≥ cutoff`, then `n1 > maxVal`). -/
def parseUintLoop (n : Nat) : Bytes → Except NumErr Nat
  | [] => .ok n
  | c :: s =>
    if 48 ≤ c.val ∧ c.val ≤ 57 then
      if n ≥ maxUint64 / 10 + 1 then .error .outOfRange
      else if n * 10 + (c.val - 48) > maxUint64 then .error .outOfRange
      else parseUintLoop (n * 10 + (c.val - 48)) s
    else .error .invalid

/-- `strconv.ParseUint(s, 10, 64)`. -/
def ParseUint (s : Bytes) : Except NumErr Nat :=
  if s = [] then .error .invalid else parseUintLoop 0 s

/-- `ParseInt`'s leading sign: a `+` (byte 43) or `-` (byte 45) is picked off the front. -/
def splitSign : Bytes → Bool × Bytes
  | c :: s => if c.val = 43 then (false, s) else if c.val = 45 then (true, s) else (false, c :: s)
  | [] => (false, [])

/-- `strconv.ParseInt(s, 10, 0)` on a 64-bit platform.  On `ErrRange` `ParseUint` returns
`maxUint64`, which is past the cutoff `2^63` whatever the sign, so the range error stands. -/
def ParseInt (s : Bytes) : Except NumError Int :=
  if s = [] then .error ⟨s, .invalid⟩
  else
    match ParseUint (splitSign s).2 with
    | .error e => .error ⟨s, e⟩
    | .ok un =>
      if !(splitSign s).1 && un ≥ 2 ^ 63 then .error ⟨s, .outOfRange⟩
      else if (splitSign s).1 && un > 2 ^ 63 then .error ⟨s, .outOfRange⟩
      else .ok (if (splitSign s).1 then -(un : Int) else un)

/-- `strconv.Atoi`, which is `ParseInt(s, 10, 0)` (its fast path for short strings returns the
same values and errors). -/
def Atoi (s : Bytes) : Except NumError Int := ParseInt s

/-- What `ParseInt` accepts: a sign, then digits whose value lies within the cutoff. -/
theorem ParseInt_ok {s : Bytes} {v : Int} (h : ParseInt s = .ok v) :
    ∃ un, ParseUint (splitSign s).2 = .ok un ∧
      if (splitSign s).1 then un ≤ 2 ^ 63 ∧ v = -un else un < 2 ^ 63 ∧ v = un := by
  unfold ParseInt at h
  rw [if_neg (by rintro rfl; cases h)] at h
  rcases hp : ParseUint (splitSign s).2 with e | un <;> simp only [hp] at h
  · cases h
  · refine ⟨un, rfl, ?_⟩
    cases hn : (splitSign s).1 <;> simp [hn] at h ⊢ <;> split_ifs at h <;> cases h <;> omega

theorem Atoi_lt {s : Bytes} {v : Int} (h : Atoi s = .ok v) : v < 2 ^ 63 := by
  obtain ⟨un, -, hv⟩ := ParseInt_ok h
  split_ifs at hv <;> omega

/-! ## The checks -/

/-- The `error` of a query check: `Atoi`'s, or one of its own texts. -/
inductive QueryError where
  | num (e : NumError)
  | msg (text : String)
  deriving DecidableEq, Repr

/-- `checkQueryOffset`; the `int` it returns beside an error is `0`, and is left out. -/
def checkQueryOffset (offset : List Bytes) : Except QueryError Int :=
  match offset with
  | [] => .ok 0
  | [s] =>
    match Atoi s with
    | .error e => .error (.num e)
    | .ok value => if value < 0 then .error (.msg "invalid") else .ok value
  | _ :: _ :: _ => .error (.msg "unique")

/-- `checkQueryLimit`, with the package's `MaxQuerySize`. -/
def checkQueryLimit (MaxQuerySize : Int) (limit : List Bytes) : Except QueryError Int :=
  match limit with
  | [] => .ok MaxQuerySize
  | [s] =>
    match Atoi s with
    | .error e => .error (.num e)
    | .ok value =>
      if value < 0 then .error (.msg "invalid")
      else .ok (if value > MaxQuerySize then MaxQuerySize else value)
  | _ :: _ :: _ => .error (.msg "unique")

theorem checkQueryOffset_ok {offset : List Bytes} {v : Int} (h : checkQueryOffset offset = .ok v) :
    0 ≤ v ∧ v < 2 ^ 63 := by
  unfold checkQueryOffset at h
  split at h
  · cases h; omega
  · split at h
    · cases h
    · rename_i hv
      split_ifs at h
      cases h
      exact ⟨by omega, Atoi_lt hv⟩
  · cases h

theorem checkQueryLimit_ok {MaxQuerySize : Int} (hmax : 0 ≤ MaxQuerySize) {limit : List Bytes}
    {v : Int} (h : checkQueryLimit MaxQuerySize limit = .ok v) : 0 ≤ v ∧ v ≤ MaxQuerySize := by
  unfold checkQueryLimit at h
  split at h
  · cases h; omega
  · split at h
    · cases h
    · split_ifs at h <;> cases h <;> omega
  · cases h

/-! ## The page -/

/-- **The page of a checked query, and its overflow.**  For offsets and limits the checks
admit, with `offset * limit + limit` below `2^63`, `GetNamespaces` returns the `limit`
namespaces from position `offset * limit` of the sorted list, none past its end.  The checks
also admit offset `2^62` with limit `2`, whose product wraps to `-2^63` in Go's `int`: on that
query the call panics in the slice expression, on every store whose namespaces load. -/
theorem getNamespaces_offset_overflow {Rec : Type} (c : Codec Rec Namespace)
    (visit : Entries Namespace → Entries Namespace)
    (sortReverse : List Namespace → List Namespace) (db : Bucket) {MaxQuerySize : Int}
    (hmax : 2 ≤ MaxQuerySize) :
    (∀ (offsetParam limitParam : List Bytes) (offset limit : Int) (values : Entries Namespace),
      checkQueryOffset offsetParam = .ok offset →
      checkQueryLimit MaxQuerySize limitParam = .ok limit →
      offset * limit + limit < 2 ^ 63 →
      LoadValuesAll c tblNameNamespace namespaceProto db = .ok values →
      GetNamespaces c visit sortReverse offset limit db =
        .ok (((sortReverse (toNamespaces visit values)).drop (offset * limit).toNat).take
          limit.toNat)) ∧
    checkQueryOffset [ascii "4611686018427387904"] = .ok (2 ^ 62) ∧
    checkQueryLimit MaxQuerySize [ascii "2"] = .ok 2 ∧
    GetNamespaces c visit sortReverse (2 ^ 62) 2 db =
      (LoadValuesAll c tblNameNamespace namespaceProto db).bind
        fun _ => .error (.panic .sliceBounds) := by
  refine ⟨fun _ _ offset limit values ho hl hend hv => ?_, rfl, ?_,
    GetNamespaces_of_start_neg c visit sortReverse db (by decide)⟩
  · have ho' := checkQueryOffset_ok ho
    have hl' := checkQueryLimit_ok (by omega) hl
    exact GetNamespaces_eq_drop_take c hv (Int.mul_nonneg ho'.1 hl'.1) hl'.1 hend
  · simp only [checkQueryLimit, show Atoi (ascii "2") = .ok 2 from rfl]
    rw [if_neg (by omega), if_neg (by omega)]

/-- `getNamespaces_offset_overflow` on the empty store, with `MaxQuerySize = 100`, the map
visited as it is and Go's insertion sort. -/
theorem getNamespaces_offset_overflow_empty_store :
    (2 : Int) ≤ 100 ∧
    (∀ (offsetParam limitParam : List Bytes) (offset limit : Int) (values : Entries Namespace),
      checkQueryOffset offsetParam = .ok offset →
      checkQueryLimit 100 limitParam = .ok limit →
      offset * limit + limit < 2 ^ 63 →
      LoadValuesAll specNamespaceCodec tblNameNamespace namespaceProto DB.empty.root = .ok values →
      GetNamespaces specNamespaceCodec id (insertionSort reverseLess) offset limit DB.empty.root =
        .ok (((insertionSort reverseLess (toNamespaces id values)).drop (offset * limit).toNat).take
          limit.toNat)) ∧
    checkQueryOffset [ascii "4611686018427387904"] = .ok (2 ^ 62) ∧
    checkQueryLimit 100 [ascii "2"] = .ok 2 ∧
    GetNamespaces specNamespaceCodec id (insertionSort reverseLess) (2 ^ 62) 2 DB.empty.root =
      (LoadValuesAll specNamespaceCodec tblNameNamespace namespaceProto DB.empty.root).bind
        fun _ => .error (.panic .sliceBounds) :=
  ⟨by decide, getNamespaces_offset_overflow specNamespaceCodec id (insertionSort reverseLess)
    DB.empty.root (by decide)⟩

end Polaris

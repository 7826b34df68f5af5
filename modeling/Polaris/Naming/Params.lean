import Polaris.Naming.Query
import Polaris.Naming.InstanceID

/-!
# Query parameters: offsets, limits and instance arguments

`ParseQueryOffset` and `ParseQueryLimit` (naming/utils.go) read a `uint32` with
`strconv.ParseUint(s, 10, 32)`.  An empty string gives the default, `QueryDefaultOffset = 0`
and `QueryDefaultLimit = 100`, and the limit is capped at `QueryMaxLimit = 100`.
`ParseOffsetAndLimit` reads both from a query map and deletes each from the caller's map once
it is read.  `ParseInstanceArgs` reads `host` and `port`, each a comma-separated list, the
ports again with `ParseUint(s, 10, 32)`.

`ParseUint(s, 10, bitSize)` is the loop of `strconv` with `maxVal = 1 << bitSize - 1`; the
64-bit loop of `Atoi` is its case `bitSize = 64` (`parseUintLoop_eq_parseUintBits`).

## Results

* `parseUintBits_eq_ok` — what the loop accepts: decimal digits whose value fits;
* `parse_query_offset_limit` — the strings `ParseQueryOffset` and `ParseQueryLimit` accept
  and what they return, and that `%d` of every `uint32` reads back;
* `parse_instance_args_roundtrip` — comma-joined hosts and `%d`-printed ports read back.
-/

set_option autoImplicit false

namespace Polaris

open Entries

/-! ## `strconv.ParseUint(s, 10, bitSize)` -/

/-- The loop of `ParseUint(s, 10, bitSize)` from the value `n` read so far, with
`maxVal = 1 << bitSize - 1`: the cutoff `maxUint64 / 10 + 1` guards `n * 10`, and `maxVal`
the new value. -/
def parseUintBits (maxVal n : Nat) : Bytes → Except NumErr Nat
  | [] => .ok n
  | c :: s =>
    if 48 ≤ c.val ∧ c.val ≤ 57 then
      if n ≥ maxUint64 / 10 + 1 then .error .outOfRange
      else if n * 10 + (c.val - 48) > maxVal then .error .outOfRange
      else parseUintBits maxVal (n * 10 + (c.val - 48)) s
    else .error .invalid

/-- `strconv.ParseUint(s, 10, bitSize)`. -/
def ParseUintBits (bitSize : Nat) (s : Bytes) : Except NumErr Nat :=
  if s = [] then .error .invalid else parseUintBits (2 ^ bitSize - 1) 0 s

theorem parseUintLoop_eq_parseUintBits (n : Nat) (s : Bytes) :
    parseUintLoop n s = parseUintBits maxUint64 n s := by
  induction s generalizing n with
  | nil => rfl
  | cons c s ih => simp only [parseUintLoop, parseUintBits, ih]

theorem foldl_digitValue_ge (a : Nat) (s : Bytes) : a ≤ s.foldl digitValue a := by
  induction s generalizing a with
  | nil => exact le_rfl
  | cons c s ih => exact le_trans (by unfold digitValue; omega) (ih _)

/-- **What the loop accepts**: from a value `n ≤ maxVal`, exactly the strings of decimal
digits whose value, read on from `n`, stays within `maxVal`. -/
theorem parseUintBits_eq_ok {maxVal : Nat} (hmax : maxVal ≤ maxUint64) (s : Bytes) :
    ∀ n r, n ≤ maxVal → (parseUintBits maxVal n s = .ok r ↔
      (∀ c ∈ s, 48 ≤ c.val ∧ c.val ≤ 57) ∧ s.foldl digitValue n = r ∧ r ≤ maxVal) := by
  induction s with
  | nil =>
    intro n r hn
    simp only [parseUintBits, Except.ok.injEq, List.not_mem_nil, false_imp_iff, implies_true,
      List.foldl_nil, true_and]
    exact ⟨fun h => ⟨h, h ▸ hn⟩, And.left⟩
  | cons c s ih =>
    intro n r hn
    have hge := foldl_digitValue_ge (digitValue n c) s
    have hd : digitValue n c = n * 10 + (c.val - 48) := by unfold digitValue; omega
    simp only [List.mem_cons, forall_eq_or_imp, List.foldl_cons]
    unfold parseUintBits
    by_cases hc : 48 ≤ c.val ∧ c.val ≤ 57
    · rw [if_pos hc]
      split_ifs with h₁ h₂
      · simp only [reduceCtorEq, false_iff]
        rintro ⟨-, rfl, hr⟩
        simp only [maxUint64] at h₁ hmax
        omega
      · simp only [reduceCtorEq, false_iff]
        rintro ⟨-, rfl, hr⟩
        omega
      · rw [ih _ r (by omega), ← hd]
        simp only [hc, true_and]
    · rw [if_neg hc]
      simp only [reduceCtorEq, hc, false_and]

/-! ## `%d` reads back -/

theorem digitChar_isDigit (d : Fin 10) :
    48 ≤ (Fin.ofNat (Nat.digitChar d).toNat : Fin 256).val ∧
      (Fin.ofNat (Nat.digitChar d).toNat : Fin 256).val ≤ 57 := by
  revert d; decide

theorem isDigit_toDigitsCore (fuel n : Nat) (ds : List Char)
    (h : ∀ c ∈ ds.map fun ch => (Fin.ofNat ch.toNat : Fin 256), 48 ≤ c.val ∧ c.val ≤ 57) :
    ∀ c ∈ (Nat.toDigitsCore 10 fuel n ds).map fun ch => (Fin.ofNat ch.toNat : Fin 256),
      48 ≤ c.val ∧ c.val ≤ 57 := by
  induction fuel generalizing n ds with
  | zero => exact h
  | succ fuel ih =>
    have hcons : ∀ c ∈ (Nat.digitChar (n % 10) :: ds).map
        fun ch => (Fin.ofNat ch.toNat : Fin 256), 48 ≤ c.val ∧ c.val ≤ 57 := by
      simp only [List.map_cons, List.mem_cons, forall_eq_or_imp]
      exact ⟨digitChar_isDigit ⟨n % 10, Nat.mod_lt n (by omega)⟩, h⟩
    rw [toDigitsCore_succ]
    split_ifs
    · exact hcons
    · exact ih _ _ hcons

/-- `%d` of `n` is decimal digits, read back as `n`. -/
theorem formatDecimal_digits (n : Nat) :
    (∀ c ∈ formatDecimal n, 48 ≤ c.val ∧ c.val ≤ 57) ∧ (formatDecimal n).foldl digitValue 0 = n ∧
      formatDecimal n ≠ [] := by
  have hv : (formatDecimal n).foldl digitValue 0 = n := by
    rw [formatDecimal_eq, foldl_digitValue_toDigitsCore _ _ _ (by omega)]; rfl
  refine ⟨formatDecimal_eq n ▸ isDigit_toDigitsCore _ _ [] (by simp), hv, fun h => ?_⟩
  rcases Nat.eq_zero_or_pos n with rfl | hn
  · exact absurd h (by decide)
  · rw [h] at hv; exact absurd hv (by simp; omega)

/-- What `ParseUint(s, 10, 32)` accepts: non-empty decimal digits of a value below `2 ^ 32`. -/
theorem ParseUintBits_32_eq_ok (s : Bytes) (r : Nat) :
    ParseUintBits 32 s = .ok r ↔
      s ≠ [] ∧ (∀ c ∈ s, 48 ≤ c.val ∧ c.val ≤ 57) ∧ s.foldl digitValue 0 = r ∧ r < 2 ^ 32 := by
  unfold ParseUintBits
  by_cases hs : s = []
  · simp [hs]
  · rw [if_neg hs, parseUintBits_eq_ok (by simp [maxUint64]) s 0 r (Nat.zero_le _)]
    simp only [hs, ne_eq, not_false_eq_true, true_and]
    exact and_congr_right fun _ => and_congr_right fun _ => by omega

/-! ## Offsets and limits -/

/-- `QueryDefaultOffset`. -/
def QueryDefaultOffset : Nat := 0

/-- `QueryDefaultLimit`. -/
def QueryDefaultLimit : Nat := 100

/-- `QueryMaxLimit`. -/
def QueryMaxLimit : Nat := 100

/-- `ParseQueryOffset(offset)`; the error is logged and returned. -/
def ParseQueryOffset (offset : Bytes) : Except NumError UInt32 :=
  if offset = [] then .ok (UInt32.ofNat QueryDefaultOffset)
  else
    match ParseUintBits 32 offset with
    | .error e => .error ⟨offset, e⟩
    | .ok tmp => .ok (UInt32.ofNat tmp)

/-- `ParseQueryLimit(limit)`: the value is capped at `QueryMaxLimit`. -/
def ParseQueryLimit (limit : Bytes) : Except NumError UInt32 :=
  if limit = [] then .ok (UInt32.ofNat QueryDefaultLimit)
  else
    match ParseUintBits 32 limit with
    | .error e => .error ⟨limit, e⟩
    | .ok tmp => .ok (UInt32.ofNat (if tmp > QueryMaxLimit then QueryMaxLimit else tmp))

theorem UInt32.ofNat_eq_iff {n : Nat} (hn : n < 2 ^ 32) (v : UInt32) :
    UInt32.ofNat n = v ↔ v.toNat = n :=
  ⟨fun h => h ▸ UInt32.toNat_ofNat_of_lt hn,
    fun h => UInt32.toNat.inj (by rw [UInt32.toNat_ofNat_of_lt hn, h])⟩

/-- The non-empty case both functions share: the parse, then the value converted. -/
theorem parseMatch_eq_ok {s : Bytes} {f : Nat → UInt32} {v : UInt32} :
    (match ParseUintBits 32 s with
      | .error e => (.error ⟨s, e⟩ : Except NumError UInt32)
      | .ok tmp => .ok (f tmp)) = .ok v ↔
    ∃ r, ParseUintBits 32 s = .ok r ∧ f r = v := by
  rcases ParseUintBits 32 s with e | r <;> simp

/-- The non-empty case, for a value capped by `cap`. -/
theorem parseMatch_cap_iff (s : Bytes) (v : UInt32) (cap : Nat → Nat) (hcap : ∀ r, cap r ≤ r) :
    (∃ r, ParseUintBits 32 s = .ok r ∧ UInt32.ofNat (cap r) = v) ↔
      s ≠ [] ∧ (∀ c ∈ s, 48 ≤ c.val ∧ c.val ≤ 57) ∧ s.foldl digitValue 0 < 2 ^ 32 ∧
        v.toNat = cap (s.foldl digitValue 0) := by
  simp only [ParseUintBits_32_eq_ok]
  constructor
  · rintro ⟨r, ⟨hs, hd, rfl, hlt⟩, rfl⟩
    exact ⟨hs, hd, hlt, UInt32.toNat_ofNat_of_lt (lt_of_le_of_lt (hcap _) hlt)⟩
  · rintro ⟨hs, hd, hlt, hv⟩
    exact ⟨_, ⟨hs, hd, rfl, hlt⟩, (UInt32.ofNat_eq_iff (lt_of_le_of_lt (hcap _) hlt) v).mpr hv⟩

/-- What `ParseQueryOffset` and `ParseQueryLimit` accept, and what they return. -/
theorem ParseQuery_ok_iff (s : Bytes) (v : UInt32) :
    (ParseQueryOffset s = .ok v ↔ (s = [] ∧ v.toNat = 0) ∨
      (s ≠ [] ∧ (∀ c ∈ s, 48 ≤ c.val ∧ c.val ≤ 57) ∧ s.foldl digitValue 0 < 2 ^ 32 ∧
        v.toNat = s.foldl digitValue 0)) ∧
    (ParseQueryLimit s = .ok v ↔ (s = [] ∧ v.toNat = 100) ∨
      (s ≠ [] ∧ (∀ c ∈ s, 48 ≤ c.val ∧ c.val ≤ 57) ∧ s.foldl digitValue 0 < 2 ^ 32 ∧
        v.toNat = min (s.foldl digitValue 0) 100)) := by
  by_cases hs : s = []
  · subst hs
    simp only [ParseQueryOffset, ParseQueryLimit, if_true, Except.ok.injEq, true_and, ne_eq,
      not_true_eq_false, false_and, or_false]
    exact ⟨UInt32.ofNat_eq_iff (by decide) v, UInt32.ofNat_eq_iff (by decide) v⟩
  · simp only [ParseQueryOffset, ParseQueryLimit, QueryMaxLimit, hs, ↓reduceIte, false_and,
      false_or, parseMatch_eq_ok]
    refine ⟨parseMatch_cap_iff s v id fun _ => le_rfl, ?_⟩
    rw [parseMatch_cap_iff s v (fun tmp => if tmp > 100 then 100 else tmp) fun r => by
      dsimp only; split_ifs <;> omega]
    exact and_congr_right fun _ => and_congr_right fun _ => and_congr_right fun _ => by
      split_ifs <;> omega

/-- **What the offset and the limit accept.**  `ParseQueryOffset` and `ParseQueryLimit`
succeed exactly on the empty string, giving `0` and `100`, and on non-empty strings of decimal
digits of a value below `2 ^ 32`, giving the value, capped at `100` for the limit (a value past
`2 ^ 32` is refused, not capped).  Every `uint32` printed by `%d` reads back. -/
theorem parse_query_offset_limit :
    (∀ (s : Bytes) (v : UInt32),
      (ParseQueryOffset s = .ok v ↔ (s = [] ∧ v.toNat = 0) ∨
        (s ≠ [] ∧ (∀ c ∈ s, 48 ≤ c.val ∧ c.val ≤ 57) ∧ s.foldl digitValue 0 < 2 ^ 32 ∧
          v.toNat = s.foldl digitValue 0)) ∧
      (ParseQueryLimit s = .ok v ↔ (s = [] ∧ v.toNat = 100) ∨
        (s ≠ [] ∧ (∀ c ∈ s, 48 ≤ c.val ∧ c.val ≤ 57) ∧ s.foldl digitValue 0 < 2 ^ 32 ∧
          v.toNat = min (s.foldl digitValue 0) 100))) ∧
    ∀ n : UInt32, ParseQueryOffset (formatDecimal n.toNat) = .ok n ∧
      (ParseQueryLimit (formatDecimal n.toNat)).map UInt32.toNat = .ok (min n.toNat 100) := by
  refine ⟨ParseQuery_ok_iff, fun n => ?_⟩
  obtain ⟨hd, hv, hne⟩ := formatDecimal_digits n.toNat
  have hlt := UInt32.toNat_lt_size n
  refine ⟨(ParseQuery_ok_iff _ n).1.mpr (.inr ⟨hne, hd, by rw [hv]; exact hlt, by rw [hv]⟩), ?_⟩
  have hl := (ParseQuery_ok_iff _ (UInt32.ofNat (min n.toNat 100))).2.mpr (.inr ⟨hne, hd,
    by rw [hv]; exact hlt, by rw [hv, UInt32.toNat_ofNat_of_lt (by omega)]⟩)
  rw [hl, Except.map, UInt32.toNat_ofNat_of_lt (by omega)]

/-! ## The query map -/

/-- `query[key]` of a `map[string]string`: the empty string for a missing key. -/
def mapGet (query : Entries Bytes) (key : Bytes) : Bytes := (lookup key query).getD []

/-- `ParseOffsetAndLimit(query)`: the offset and the limit, and the caller's map afterwards;
`delete(query, "offset")` runs once the offset is read, before the limit is. -/
def ParseOffsetAndLimit (query : Entries Bytes) :
    Except NumError (UInt32 × UInt32) × Entries Bytes :=
  match ParseQueryOffset (mapGet query (ascii "offset")) with
  | .error err => (.error err, query)
  | .ok ofs =>
    let query := erase (ascii "offset") query
    match ParseQueryLimit (mapGet query (ascii "limit")) with
    | .error err => (.error err, query)
    | .ok lmt => (.ok (ofs, lmt), erase (ascii "limit") query)

/-- `store.InstanceArgs`. -/
structure InstanceArgs where
  Hosts : List Bytes
  Ports : List UInt32
  deriving DecidableEq, Repr

/-- The errors of `ParseInstanceArgs`: a text, or
`fmt.Errorf("%s can not parse as uint, err is %s", portStr, err.Error())`. -/
inductive ArgsError where
  | text (msg : String)
  | port (portStr : Bytes) (err : NumError)
  deriving DecidableEq, Repr

/-- One port of `ParseInstanceArgs`' loop: `strconv.ParseUint(portStr, 10, 32)`. -/
def parsePort (portStr : Bytes) : Except ArgsError UInt32 :=
  match ParseUintBits 32 portStr with
  | .error e => .error (.port portStr ⟨portStr, e⟩)
  | .ok port => .ok (UInt32.ofNat port)

/-- `ParseInstanceArgs(query)`: nil for an empty query; the hosts and the ports split at
`","` (`strings.Split`), the loop over the ports stopping at the first that does not parse. -/
def ParseInstanceArgs (query : Entries Bytes) : Except ArgsError (Option InstanceArgs) :=
  if query.length = 0 then .ok none
  else
    match lookup (ascii "host") query with
    | none => .error (.text "port parameter can not be used alone without host")
    | some hosts =>
      match lookup (ascii "port") query with
      | none => .ok (some ⟨hosts.splitOn 44, []⟩)
      | some ports => do
        let Ports ← (ports.splitOn 44).mapM parsePort
        pure (some ⟨hosts.splitOn 44, Ports⟩)

/-- `ParseInstanceArgs` returns nil, with no error, exactly on the empty query. -/
theorem ascii_comma : ascii "," = [44] := rfl

theorem parsePort_formatDecimal (p : UInt32) : parsePort (formatDecimal p.toNat) = .ok p := by
  obtain ⟨hd, hv, hne⟩ := formatDecimal_digits p.toNat
  have h := (ParseUintBits_32_eq_ok _ p.toNat).mpr ⟨hne, hd, hv, UInt32.toNat_lt_size p⟩
  simp only [parsePort, h, Except.ok.injEq]
  exact (UInt32.ofNat_eq_iff (UInt32.toNat_lt_size p) p).mpr rfl

theorem mapM_parsePort_formatDecimal (ports : List UInt32) :
    (ports.map fun p => formatDecimal p.toNat).mapM parsePort = .ok ports := by
  induction ports with
  | nil => rfl
  | cons p ps ih => rw [List.map_cons, List.mapM_cons, parsePort_formatDecimal, ih]; rfl

theorem comma_not_mem_formatDecimal (n : Nat) : (44 : Fin 256) ∉ formatDecimal n := fun h =>
  absurd ((formatDecimal_digits n).1 _ h).1 (by decide)

/-- **Comma-joined hosts and `%d`-printed ports read back.**  When the query's `host` joins a
non-empty list of hosts without commas by `","`, `ParseInstanceArgs` returns those hosts, with
no port when the query has no `port`, and with the ports when `port` joins the `%d` of a
non-empty list of `uint32` by `","`. -/
theorem parse_instance_args_roundtrip (query : Entries Bytes) (hosts : List Bytes)
    (ports : List UInt32) (hhost : lookup (ascii "host") query = some ((ascii ",").intercalate hosts))
    (hsep : ∀ h ∈ hosts, (44 : Fin 256) ∉ h) (hne : hosts ≠ []) :
    (lookup (ascii "port") query = none → ParseInstanceArgs query = .ok (some ⟨hosts, []⟩)) ∧
    (ports ≠ [] →
      lookup (ascii "port") query =
        some ((ascii ",").intercalate (ports.map fun p => formatDecimal p.toNat)) →
      ParseInstanceArgs query = .ok (some ⟨hosts, ports⟩)) := by
  have hq : query.length ≠ 0 := fun h => by
    rw [List.length_eq_zero.mp h, lookup_nil] at hhost; cases hhost
  have hsplit : ((ascii ",").intercalate hosts).splitOn 44 = hosts := by
    rw [ascii_comma]; exact List.splitOn_intercalate hosts 44 hsep hne
  refine ⟨fun hport => ?_, fun hps hport => ?_⟩
  · simp only [ParseInstanceArgs, hq, if_false, hhost, hport, hsplit]
  · have hports : ((ascii ",").intercalate (ports.map fun p => formatDecimal p.toNat)).splitOn 44 =
        ports.map fun p => formatDecimal p.toNat := by
      rw [ascii_comma]
      refine List.splitOn_intercalate _ 44 ?_ (by simpa using hps)
      simp only [List.mem_map]
      rintro _ ⟨p, -, rfl⟩
      exact comma_not_mem_formatDecimal _
    simp only [ParseInstanceArgs, hq, if_false, hhost, hport, hsplit, hports,
      mapM_parsePort_formatDecimal]
    rfl

/-- `parse_instance_args_roundtrip` on the query `host=a,b&port=80,8080`. -/
theorem parse_instance_args_roundtrip_two_hosts :
    lookup (ascii "host") [⟨ascii "host", ascii "a,b"⟩, ⟨ascii "port", ascii "80,8080"⟩] =
        some ((ascii ",").intercalate [ascii "a", ascii "b"]) ∧
      (∀ h ∈ [ascii "a", ascii "b"], (44 : Fin 256) ∉ h) ∧ [ascii "a", ascii "b"] ≠ [] ∧
      (lookup (ascii "port") [⟨ascii "host", ascii "a,b"⟩, ⟨ascii "port", ascii "80,8080"⟩] =
          none →
        ParseInstanceArgs [⟨ascii "host", ascii "a,b"⟩, ⟨ascii "port", ascii "80,8080"⟩] =
          .ok (some ⟨[ascii "a", ascii "b"], []⟩)) ∧
      ([(80 : UInt32), 8080] ≠ [] →
        lookup (ascii "port") [⟨ascii "host", ascii "a,b"⟩, ⟨ascii "port", ascii "80,8080"⟩] =
          some ((ascii ",").intercalate ([(80 : UInt32), 8080].map fun p => formatDecimal p.toNat)) →
        ParseInstanceArgs [⟨ascii "host", ascii "a,b"⟩, ⟨ascii "port", ascii "80,8080"⟩] =
          .ok (some ⟨[ascii "a", ascii "b"], [80, 8080]⟩)) :=
  ⟨by decide, by decide, by decide,
    parse_instance_args_roundtrip [⟨ascii "host", ascii "a,b"⟩, ⟨ascii "port", ascii "80,8080"⟩]
      [ascii "a", ascii "b"] [80, 8080] (by decide) (by decide) (by decide)⟩

end Polaris

import Polaris.Bolt.SortedMap

/-!
# `serviceAliasFilter2Where` and `checkDataBaseAffectedRows`

`serviceAliasFilter2Where(filter)` (store/sqldb/common.go) renames the keys of an alias query's
filter to the columns they select: `service`, `namespace`, `alias` and `owner` become
`source.name`, `source.namespace`, `alias.name` and `alias.owner` (`aliasFilter2Where`), and any
other key stays as it is (`whereColumn_eq`, against `selectedColumn`, which states that renaming
without the table).  It builds the result with `range`, writing `out[d] = v` for each entry in
turn.

Principal results:

* `lookup_serviceAliasFilter2Where` — for every order `range` visits the filter in, a column
  holds the value of the last entry visited among those whose key selects it: a column that two
  keys select (`alias` and `alias.name`, say) depends on that order;
* `serviceAliasFilter2Where_renames` — when no column is selected by two keys, the result does
  not depend on the order: each column holds the value of the one key that selects it.

`checkDataBaseAffectedRows(result, counts...)` accepts a statement's result exactly when the
driver reports its affected rows and they are one of `counts` (`checkDataBaseAffectedRows_eq_none`).
-/

set_option autoImplicit false

namespace Polaris

open Entries

/-! ## The model -/

/-- `aliasFilter2Where`. -/
def aliasFilter2Where : List (Bytes × Bytes) :=
  [(ascii "service", ascii "source.name"), (ascii "namespace", ascii "source.namespace"),
    (ascii "alias", ascii "alias.name"), (ascii "owner", ascii "alias.owner")]

/-- One iteration of `serviceAliasFilter2Where`'s loop. -/
def aliasStep (out : Entries Bytes) (e : (_ : Bytes) × Bytes) : Entries Bytes :=
  match aliasFilter2Where.lookup e.1 with
  | some d => out.insert d e.2
  | none => out.insert e.1 e.2

/-- `serviceAliasFilter2Where(filter)`; `range` visits `filter` in the order `visit` gives. -/
def serviceAliasFilter2Where (visit : Entries Bytes → Entries Bytes) (filter : Entries Bytes) :
    Entries Bytes :=
  (visit filter).foldl aliasStep []

/-- The column a key of the filter selects. -/
def whereColumn (k : Bytes) : Bytes := (aliasFilter2Where.lookup k).getD k

/-! ## The renaming -/

/-- The column each key of an alias filter stands for: `service`, `namespace`, `alias` and
`owner` select `source.name`, `source.namespace`, `alias.name` and `alias.owner`, and any other
key the column of its own name. -/
def selectedColumn (k : Bytes) : Bytes :=
  if k = ascii "service" then ascii "source.name"
  else if k = ascii "namespace" then ascii "source.namespace"
  else if k = ascii "alias" then ascii "alias.name"
  else if k = ascii "owner" then ascii "alias.owner"
  else k

/-- `aliasFilter2Where` makes that renaming. -/
theorem whereColumn_eq (k : Bytes) : whereColumn k = selectedColumn k := by
  unfold selectedColumn
  split_ifs with h₁ h₂ h₃ h₄ <;> try (subst_vars; decide)
  simp [whereColumn, aliasFilter2Where, List.lookup_cons, beq_eq_false_iff_ne.mpr, *]

theorem aliasStep_eq (out : Entries Bytes) (e : (_ : Bytes) × Bytes) :
    aliasStep out e = out.insert (selectedColumn e.1) e.2 := by
  rw [← whereColumn_eq]
  unfold aliasStep whereColumn
  cases aliasFilter2Where.lookup e.1 <;> rfl

/-! ## The last entry visited wins -/

theorem lookup_foldl_aliasStep (l : Entries Bytes) (acc : Entries Bytes) (d : Bytes) :
    lookup d (l.foldl aliasStep acc) =
      ((l.reverse.find? fun e => selectedColumn e.1 = d).map Sigma.snd).or (lookup d acc) := by
  induction l generalizing acc with
  | nil => simp
  | cons e l ih =>
    rw [List.foldl_cons, ih, aliasStep_eq, lookup_insert, List.reverse_cons, List.find?_append]
    by_cases he : selectedColumn e.1 = d
    · cases l.reverse.find? fun e => selectedColumn e.1 = d <;> simp [he]
    · simp [he]

/-- **What a column holds, for every order of `range`**: the value of the last entry visited
among those whose key selects the column.  Two keys that select one column (`alias` and
`alias.name`, say) therefore leave it the value of whichever `range` visits last. -/
theorem lookup_serviceAliasFilter2Where (visit : Entries Bytes → Entries Bytes)
    (filter : Entries Bytes) (d : Bytes) :
    lookup d (serviceAliasFilter2Where visit filter) =
      ((visit filter).reverse.find? fun e => selectedColumn e.1 = d).map Sigma.snd := by
  rw [serviceAliasFilter2Where, lookup_foldl_aliasStep]
  simp

/-- Two orders of one filter give `alias.name` the values of `alias` and of `alias.name`. -/
example :
    lookup (ascii "alias.name") (serviceAliasFilter2Where id
      [⟨ascii "alias", ascii "a"⟩, ⟨ascii "alias.name", ascii "b"⟩]) = some (ascii "b") ∧
    lookup (ascii "alias.name") (serviceAliasFilter2Where List.reverse
      [⟨ascii "alias", ascii "a"⟩, ⟨ascii "alias.name", ascii "b"⟩]) = some (ascii "a") := by
  decide

/-- Of two lists with the same elements, at most one of which satisfies `p`, `find? p` finds
the same. -/
theorem find?_perm_of_unique {α : Type} {p : α → Bool} {l l' : List α} (h : l.Perm l')
    (hp : ∀ a ∈ l, ∀ b ∈ l, p a = true → p b = true → a = b) : l.find? p = l'.find? p := by
  rcases hl : l.find? p with _ | a
  · refine (List.find?_eq_none.mpr fun x hx => ?_).symm
    exact List.find?_eq_none.mp hl x (h.mem_iff.mpr hx)
  · have ha := List.find?_some hl
    have hal := List.mem_of_find?_eq_some hl
    rcases hl' : l'.find? p with _ | b
    · exact absurd ha (by simpa using List.find?_eq_none.mp hl' a (h.mem_iff.mp hal))
    · rw [hp a hal b (h.mem_iff.mpr (List.mem_of_find?_eq_some hl')) ha (List.find?_some hl')]

/-- **Without two keys selecting one column the renaming is a function of the filter**:
whatever order `range` visits it in, each column holds the value of the one key that selects
it. -/
theorem serviceAliasFilter2Where_renames {filter : Entries Bytes} (hf : Ordered filter)
    (hcol : ∀ e ∈ filter, ∀ e' ∈ filter, selectedColumn e.1 = selectedColumn e'.1 → e.1 = e'.1)
    (visit : Entries Bytes → Entries Bytes) (hvisit : ∀ m, (visit m).Perm m) (d : Bytes) :
    lookup d (serviceAliasFilter2Where visit filter) =
      (filter.find? fun e => selectedColumn e.1 = d).map Sigma.snd := by
  have hperm := (List.reverse_perm _).trans (hvisit filter)
  rw [serviceAliasFilter2Where, lookup_foldl_aliasStep, find?_perm_of_unique hperm]
  · simp
  intro a ha b hb hpa hpb
  have hka := hperm.subset ha
  have hkb := hperm.subset hb
  exact hf.nodupKeys.eq_of_fst_eq hka hkb
    (hcol a hka b hkb (by simp only [decide_eq_true_eq] at hpa hpb; rw [hpa, hpb]))

theorem serviceAliasFilter2Where_renames_alias_owner :
    Ordered ([⟨ascii "alias", ascii "a"⟩, ⟨ascii "owner", ascii "o"⟩] : Entries Bytes) ∧
      (∀ e ∈ ([⟨ascii "alias", ascii "a"⟩, ⟨ascii "owner", ascii "o"⟩] : Entries Bytes),
        ∀ e' ∈ ([⟨ascii "alias", ascii "a"⟩, ⟨ascii "owner", ascii "o"⟩] : Entries Bytes),
          selectedColumn e.1 = selectedColumn e'.1 → e.1 = e'.1) ∧
      (∀ m : Entries Bytes, m.reverse.Perm m) ∧
      lookup (ascii "alias.name") (serviceAliasFilter2Where List.reverse
        [⟨ascii "alias", ascii "a"⟩, ⟨ascii "owner", ascii "o"⟩]) =
        (([⟨ascii "alias", ascii "a"⟩, ⟨ascii "owner", ascii "o"⟩] : Entries Bytes).find?
          fun e => selectedColumn e.1 = ascii "alias.name").map Sigma.snd :=
  have hf : Ordered ([⟨ascii "alias", ascii "a"⟩, ⟨ascii "owner", ascii "o"⟩] : Entries Bytes) := by
    unfold Ordered; decide
  have hcol : ∀ e ∈ ([⟨ascii "alias", ascii "a"⟩, ⟨ascii "owner", ascii "o"⟩] : Entries Bytes),
      ∀ e' ∈ ([⟨ascii "alias", ascii "a"⟩, ⟨ascii "owner", ascii "o"⟩] : Entries Bytes),
        selectedColumn e.1 = selectedColumn e'.1 → e.1 = e'.1 := by decide
  ⟨hf, hcol, List.reverse_perm, serviceAliasFilter2Where_renames hf hcol List.reverse
    List.reverse_perm _⟩

/-! ## `checkDataBaseAffectedRows` -/

/-- An error `checkDataBaseAffectedRows` returns: the driver's, or the store's status error
`AffectedRowsNotMatch` with its message. -/
inductive AffectedRowsErr (E : Type) where
  | driver (e : E)
  | affectedRowsNotMatch (msg : String)
  deriving DecidableEq, Repr

/-- `checkDataBaseAffectedRows(result, counts...)`; `rowsAffected` is `result.RowsAffected()`. -/
def checkDataBaseAffectedRows {E : Type} (rowsAffected : Except E Int) (counts : List Int) :
    Option (AffectedRowsErr E) :=
  match rowsAffected with
  | .error e => some (.driver e)
  | .ok n =>
    if counts.any (n == ·) then none
    else some (.affectedRowsNotMatch "affected rows not matched")

theorem checkDataBaseAffectedRows_eq_none {E : Type} (rowsAffected : Except E Int)
    (counts : List Int) :
    checkDataBaseAffectedRows rowsAffected counts = none ↔
      ∃ n, rowsAffected = .ok n ∧ n ∈ counts := by
  cases rowsAffected with
  | error e => simp [checkDataBaseAffectedRows]
  | ok n => by_cases h : n ∈ counts <;> simp [checkDataBaseAffectedRows, h]

end Polaris

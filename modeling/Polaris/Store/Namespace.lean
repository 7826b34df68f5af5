import Polaris.Store.Run

/-!
# `namespaceStore.GetNamespaces`: pages of namespaces

`GetNamespaces(filter, offset, limit)` loads every namespace record with `LoadValuesAll`, lists
the values of the map in the order Go's `range` visits it (`toNamespaces`), sorts the list by
descending `ModifyTime` with `sort.Sort(sort.Reverse(...))`, and returns the slice
`[offset*limit, min(offset*limit + limit, n))`, computed in Go's 64-bit `int`.

The order in which `range` visits a map is arbitrary and may change from call to call, and
`sort.Sort` is not stable.  When two namespaces share a `ModifyTime`, two calls on one store
can therefore list them in different orders, and the pages of successive calls overlap and
miss a namespace (`getNamespaces_pages_overlap`, with the insertion sort Go runs on short
slices).  When the modification times are distinct the sorted list is unique, and the pages
partition the namespaces (`getNamespaces_pages_partition`).
-/

set_option autoImplicit false

namespace Polaris

open Entries

/-! ## The model -/

/-- `tblNameNamespace`. -/
def tblNameNamespace : Bytes := ascii "namespace"

/-- `model.Namespace`, by the fields `GetNamespaces` reads. -/
structure Namespace where
  name : Bytes
  modifyTime : Time
  deriving DecidableEq, Repr

/-- `&model.Namespace{}`: the struct's fields, none of them a message. -/
def namespaceProto : Proto where
  name := ascii "model.Namespace"
  fields := ["Name", "Comment", "Token", "Owner", "Valid", "CreateTime", "ModifyTime"].map
    fun f => (ascii f, ⟨false, []⟩)

/-- `toNamespaces`: the values of the map, in the order `range` visits its entries. -/
def toNamespaces (visit : Entries Namespace → Entries Namespace) (values : Entries Namespace) :
    List Namespace :=
  (visit values).map Sigma.snd

/-- `NamespaceSlice.Less` under `sort.Reverse`: `Less(i, j)` is
`ns[j].ModifyTime.Before(ns[i].ModifyTime)`. -/
def reverseLess (a b : Namespace) : Bool := b.modifyTime.Before a.modifyTime

/-- What `sort.Sort(sort.Reverse(namespaces))` (the standard library's sort, not in the
sources) promises: a permutation of its input with `!Less(j, i)` for all `i < j`, i.e. no
namespace modified before one after it.  It need not be stable. -/
def SortsReverse (sortReverse : List Namespace → List Namespace) : Prop :=
  ∀ l, (sortReverse l).Perm l ∧ (sortReverse l).Pairwise fun a b => reverseLess b a = false

/-- `GetNamespaces(filter, offset, limit)`; the filter is not read.  `toNamespaces` visits the
loaded map in the order `visit` gives, and `sortReverse` is `sort.Sort(sort.Reverse(...))`. -/
def GetNamespaces {Rec : Type} (c : Codec Rec Namespace)
    (visit : Entries Namespace → Entries Namespace)
    (sortReverse : List Namespace → List Namespace) (offset limit : Int) (db : Bucket) :
    Except Err (List Namespace) := do
  let values ← LoadValuesAll c tblNameNamespace namespaceProto db
  let namespaces := sortReverse (toNamespaces visit values)
  let startIdx := goInt (offset * limit)
  if startIdx ≥ namespaces.length then pure []
  else
    let endIdx := goInt (startIdx + limit)
    let endIdx := if endIdx > namespaces.length then (namespaces.length : Int) else endIdx
    goSlice namespaces startIdx endIdx

/-! ## Go's insertion sort -/

/-- One pass of Go's `insertionSort`: the next element, swapped leftwards while it is `less`
than its left neighbour.  The sorted prefix is kept reversed, its last element first. -/
def sinkIn {α : Type} (less : α → α → Bool) (x : α) : List α → List α
  | [] => [x]
  | y :: ys => if less x y then y :: sinkIn less x ys else x :: y :: ys

/-- Go's `insertionSort(data, 0, n)`, which `sort.Sort` runs alone on at most six elements. -/
def insertionSort {α : Type} (less : α → α → Bool) (l : List α) : List α :=
  (l.foldl (fun rev x => sinkIn less x rev) []).reverse

theorem sinkIn_perm {α : Type} (less : α → α → Bool) (x : α) (l : List α) :
    (sinkIn less x l).Perm (x :: l) := by
  induction l with
  | nil => rfl
  | cons y ys ih =>
    unfold sinkIn
    split
    · exact (ih.cons y).trans (List.Perm.swap x y ys)
    · rfl

/-- The reversed prefix stays sorted: no element is `reverseLess` than one after it. -/
theorem sinkIn_sorted (x : Namespace) {l : List Namespace}
    (h : l.Pairwise fun a b => reverseLess a b = false) :
    (sinkIn reverseLess x l).Pairwise fun a b => reverseLess a b = false := by
  induction l with
  | nil => exact List.pairwise_singleton _ _
  | cons y ys ih =>
    obtain ⟨hy, hys⟩ := List.pairwise_cons.mp h
    unfold sinkIn
    split
    · rename_i hxy
      refine List.Pairwise.cons (fun z hz => ?_) (ih hys)
      rcases List.mem_cons.mp ((sinkIn_perm _ x ys).mem_iff.mp hz) with rfl | hz
      · simp only [reverseLess, Time.Before, decide_eq_true_eq, decide_eq_false_iff_not] at hxy ⊢
        omega
      · exact hy z hz
    · rename_i hxy
      refine List.Pairwise.cons (fun z hz => ?_) h
      rcases List.mem_cons.mp hz with rfl | hz
      · simpa using hxy
      · have hyz := hy z hz
        simp only [reverseLess, Time.Before, decide_eq_true_eq, decide_eq_false_iff_not] at hxy hyz ⊢
        omega

/-- **Go's insertion sort keeps `sort.Sort`'s promise** for the reversed `ModifyTime` order. -/
theorem insertionSort_sortsReverse : SortsReverse (insertionSort reverseLess) := by
  intro l
  have key : ∀ (l : List Namespace) (rev : List Namespace),
      rev.Pairwise (fun a b => reverseLess a b = false) →
      (l.foldl (fun rev x => sinkIn reverseLess x rev) rev).Perm (l.reverse ++ rev) ∧
      (l.foldl (fun rev x => sinkIn reverseLess x rev) rev).Pairwise
        fun a b => reverseLess a b = false := by
    intro l
    induction l with
    | nil => intro rev h; exact ⟨by simp, h⟩
    | cons x xs ih =>
      intro rev h
      obtain ⟨hp, hs⟩ := ih _ (sinkIn_sorted x h)
      refine ⟨hp.trans ?_, hs⟩
      simpa using (sinkIn_perm reverseLess x rev).append_left xs.reverse
  obtain ⟨hp, hs⟩ := key l [] List.Pairwise.nil
  rw [List.append_nil] at hp
  refine ⟨?_, ?_⟩
  · exact (List.reverse_perm _).trans (hp.trans (List.reverse_perm l))
  · simpa [insertionSort, List.pairwise_reverse] using hs

/-! ## Pages can overlap -/

/-- Modelled from the spec: `deserializeObject(bucket, &model.Namespace{})` (not in the
sources) for the two fields `GetNamespaces` reads, each decoded by its tag (§4.3); a field that
is absent or of another type keeps its zero value. -/
def namespaceOfBucket (b : Bucket) : Namespace where
  name := match (b.lookup (ascii "Name")).map specDecodeNode with
    | some (.string s) => s
    | _ => []
  modifyTime := match (b.lookup (ascii "ModifyTime")).map specDecodeNode with
    | some (.time t) => t
    | _ => ⟨0⟩

/-- Modelled from the spec: `specCodec`, decoding namespace records. -/
def specNamespaceCodec : Codec SpecRecord Namespace :=
  { specCodec with deserializeObject := fun b _ => .ok (namespaceOfBucket b) }

/-- Modelled from the spec: the record `AddNamespace` saves for a namespace, by the fields
`Name` and `ModifyTime`. -/
def namespaceRecord (ns : Namespace) : SpecRecord :=
  [(ascii "Name", .string ns.name), (ascii "ModifyTime", .time ns.modifyTime)]

/-- Two namespaces `a` and `b` modified at the same instant: the call for page 0 visits the map
in key order, the call for page 1 in the reverse order, and both pages hold `a` alone. -/
theorem getNamespaces_pages_overlap :
    GetNamespaces specNamespaceCodec id (insertionSort reverseLess) 0 1
        (run specNamespaceCodec
          [.save tblNameNamespace (ascii "a") (namespaceRecord ⟨ascii "a", ⟨0⟩⟩),
           .save tblNameNamespace (ascii "b") (namespaceRecord ⟨ascii "b", ⟨0⟩⟩)]).root =
      .ok [⟨ascii "a", ⟨0⟩⟩] ∧
    GetNamespaces specNamespaceCodec List.reverse (insertionSort reverseLess) 1 1
        (run specNamespaceCodec
          [.save tblNameNamespace (ascii "a") (namespaceRecord ⟨ascii "a", ⟨0⟩⟩),
           .save tblNameNamespace (ascii "b") (namespaceRecord ⟨ascii "b", ⟨0⟩⟩)]).root =
      .ok [⟨ascii "a", ⟨0⟩⟩] :=
  ⟨rfl, rfl⟩

/-! ## Distinct modification times: the pages partition the namespaces -/

/-- The page a call returns when its start lies inside the list and Go's `int` does not
overflow: the `limit` namespaces from position `offset * limit` of the sorted list. -/
theorem GetNamespaces_eq_page {Rec : Type} (c : Codec Rec Namespace)
    {visit : Entries Namespace → Entries Namespace}
    {sortReverse : List Namespace → List Namespace} {offset limit : Int} {db : Bucket}
    {values : Entries Namespace} (hv : LoadValuesAll c tblNameNamespace namespaceProto db = .ok values)
    (h₀ : 0 ≤ offset * limit) (hl : 0 ≤ limit)
    (hlt : offset * limit < (sortReverse (toNamespaces visit values)).length)
    (hmax : offset * limit + limit < 2 ^ 63) :
    GetNamespaces c visit sortReverse offset limit db =
      .ok (((sortReverse (toNamespaces visit values)).drop (offset * limit).toNat).take
        limit.toNat) := by
  unfold GetNamespaces
  rw [hv]
  dsimp only [ok_bind]
  generalize sortReverse (toNamespaces visit values) = ns at hlt ⊢
  rw [goInt_of_lt (by omega) (by omega), if_neg (by omega), goInt_of_lt (by omega) hmax]
  unfold goSlice
  split_ifs with hend hs hs
  · rw [List.take_of_length_le (by simp; omega), List.take_of_length_le (by simp; omega)]
  · omega
  · congr 2; omega
  · omega

/-- Without overflow, a call returns the `limit` namespaces from position `offset * limit` of
the sorted list, none when that position is past its end. -/
theorem GetNamespaces_eq_drop_take {Rec : Type} (c : Codec Rec Namespace)
    {visit : Entries Namespace → Entries Namespace}
    {sortReverse : List Namespace → List Namespace} {offset limit : Int} {db : Bucket}
    {values : Entries Namespace} (hv : LoadValuesAll c tblNameNamespace namespaceProto db = .ok values)
    (h₀ : 0 ≤ offset * limit) (hl : 0 ≤ limit) (hmax : offset * limit + limit < 2 ^ 63) :
    GetNamespaces c visit sortReverse offset limit db =
      .ok (((sortReverse (toNamespaces visit values)).drop (offset * limit).toNat).take
        limit.toNat) := by
  by_cases hlt : offset * limit < (sortReverse (toNamespaces visit values)).length
  · exact GetNamespaces_eq_page c hv h₀ hl hlt hmax
  · unfold GetNamespaces
    rw [hv]
    dsimp only [ok_bind]
    rw [goInt_of_lt (by omega) (by omega), if_pos (by omega), List.drop_of_length_le (by omega),
      List.take_nil]
    rfl

/-- A start index that wrapped below zero makes the slice expression panic, whatever the
store holds. -/
theorem GetNamespaces_of_start_neg {Rec : Type} (c : Codec Rec Namespace)
    (visit : Entries Namespace → Entries Namespace)
    (sortReverse : List Namespace → List Namespace) {offset limit : Int} (db : Bucket)
    (hneg : goInt (offset * limit) < 0) :
    GetNamespaces c visit sortReverse offset limit db =
      (LoadValuesAll c tblNameNamespace namespaceProto db).bind
        fun _ => .error (.panic .sliceBounds) := by
  unfold GetNamespaces
  cases LoadValuesAll c tblNameNamespace namespaceProto db with
  | error e => rfl
  | ok values =>
    dsimp only [ok_bind]
    rw [if_neg (by omega)]
    exact if_neg fun h => by omega

/-- With distinct modification times there is one sorted order: a sort keeping `sort.Sort`'s
promise returns it whatever order the map was visited in. -/
theorem sortReverse_perm_eq {sortReverse : List Namespace → List Namespace}
    (hsort : SortsReverse sortReverse) {l₁ l₂ : List Namespace} (hp : l₁.Perm l₂)
    (hd : (l₁.map (·.modifyTime)).Nodup) : sortReverse l₁ = sortReverse l₂ := by
  have strict : ∀ l, (sortReverse l).Perm l₁ →
      (sortReverse l).Pairwise fun a b => b.modifyTime.nanos < a.modifyTime.nanos := by
    intro l hl
    have hn := (hl.map (·.modifyTime)).nodup_iff.mpr hd
    rw [List.Nodup, List.pairwise_map] at hn
    refine ((hsort l).2.and hn).imp @fun a b h => ?_
    have hne : a.modifyTime.nanos ≠ b.modifyTime.nanos := fun e => h.2 (Time.ext e)
    have h₁ := h.1
    simp only [reverseLess, Time.Before, decide_eq_false_iff_not] at h₁
    omega
  haveI : IsAntisymm Namespace fun a b => b.modifyTime.nanos < a.modifyTime.nanos :=
    ⟨fun _ _ h₁ h₂ => absurd (h₁.trans h₂) (lt_irrefl _)⟩
  exact List.eq_of_perm_of_sorted (((hsort l₁).1.trans hp).trans (hsort l₂).1.symm)
    (strict l₁ (hsort l₁).1) (strict l₂ ((hsort l₂).1.trans hp.symm))

/-- Pages of a list without duplicates are pairwise disjoint. -/
theorem page_disjoint {α : Type} {S : List α} (hS : S.Nodup) {l i j : Nat} (hij : i < j) :
    List.Disjoint ((S.drop (i * l)).take l) ((S.drop (j * l)).take l) := by
  intro x hi hj
  have h₁ : x ∈ S.take (i * l + l) := by
    rw [List.take_add]; exact List.mem_append_right _ hi
  have hle : i * l + l ≤ j * l := by
    simpa [Nat.succ_mul] using Nat.mul_le_mul_right l (Nat.succ_le_of_lt hij)
  have h₂ : x ∈ S.drop (i * l + l) := List.drop_subset_drop_left S hle (List.take_subset _ _ hj)
  exact List.disjoint_take_drop hS le_rfl h₁ h₂

/-- Every element of a list lies on some page. -/
theorem mem_page {α : Type} {S : List α} {l : Nat} (hl : 0 < l) {x : α} (hx : x ∈ S) :
    ∃ i, i * l < S.length ∧ x ∈ (S.drop (i * l)).take l := by
  obtain ⟨a, ha, rfl⟩ := List.getElem_of_mem hx
  have h₁ : a / l * l ≤ a := Nat.div_mul_le_self a l
  have h₂ : a < a / l * l + l := Nat.lt_div_mul_add hl
  refine ⟨a / l, by omega, List.mem_iff_getElem.mpr ⟨a - a / l * l, by simp; omega, ?_⟩⟩
  simp only [List.getElem_take, List.getElem_drop]
  congr 1; omega

/-- **With distinct modification times the pages partition the namespaces.**  On one store,
whose namespaces (fewer than `2^62`, so that Go's `int` does not overflow) have pairwise
distinct `ModifyTime`s, and for a `limit ≥ 1`, the calls `GetNamespaces(filter, i, limit)` for
`i * limit < n` (that is, `i < ⌈n / limit⌉`) all succeed, return pairwise disjoint pages, and
together return every namespace; whatever order each call visits the map in, and whatever sort
keeping `sort.Sort`'s promise is used. -/
theorem getNamespaces_pages_partition {Rec : Type} (c : Codec Rec Namespace) (db : Bucket)
    {limit : Int} (hlimit : 1 ≤ limit) (hint : limit < 2 ^ 63) {values : Entries Namespace}
    (hvalues : LoadValuesAll c tblNameNamespace namespaceProto db = .ok values)
    (hsize : 2 * values.length < 2 ^ 63)
    (hdistinct : (values.map fun e => e.2.modifyTime).Nodup)
    {sortReverse : List Namespace → List Namespace} (hsort : SortsReverse sortReverse)
    (visit : Nat → Entries Namespace → Entries Namespace)
    (hvisit : ∀ i vs, (visit i vs).Perm vs) :
    (∀ i : Nat, (i : Int) * limit < values.length →
      ∃ page, GetNamespaces c (visit i) sortReverse i limit db = .ok page) ∧
    (∀ (i j : Nat) (p q : List Namespace), (i : Int) * limit < values.length →
      (j : Int) * limit < values.length → i ≠ j →
      GetNamespaces c (visit i) sortReverse i limit db = .ok p →
      GetNamespaces c (visit j) sortReverse j limit db = .ok q → ∀ x ∈ p, x ∉ q) ∧
    ∀ x, x ∈ values.map Sigma.snd ↔ ∃ (i : Nat) (page : List Namespace),
      (i : Int) * limit < values.length ∧
      GetNamespaces c (visit i) sortReverse i limit db = .ok page ∧ x ∈ page := by
  -- every call sorts to the same list `S`
  have hS : ∀ i, sortReverse (toNamespaces (visit i) values) =
      sortReverse (values.map Sigma.snd) := fun i =>
    sortReverse_perm_eq hsort ((hvisit i values).map _)
      (by simpa [toNamespaces] using ((hvisit i values).map _).nodup_iff.mpr hdistinct)
  have hperm := (hsort (values.map Sigma.snd)).1
  have hlen : (sortReverse (values.map Sigma.snd)).length = values.length := by
    simp [hperm.length_eq]
  have hnd : (sortReverse (values.map Sigma.snd)).Nodup := by
    rw [show (fun e : (_ : Bytes) × Namespace => e.2.modifyTime) = (·.modifyTime) ∘ Sigma.snd
      from rfl, ← List.map_map] at hdistinct
    exact hperm.nodup_iff.mpr (hdistinct.of_map _)
  obtain ⟨l, rfl⟩ : ∃ l : Nat, limit = l := ⟨limit.toNat, (Int.toNat_of_nonneg (by omega)).symm⟩
  -- the page of offset `i`
  have hpage : ∀ i : Nat, (i : Int) * l < values.length →
      GetNamespaces c (visit i) sortReverse i l db =
        .ok (((sortReverse (values.map Sigma.snd)).drop (i * l)).take l) := by
    intro i hi
    have hmax : (i : Int) * l + l < 2 ^ 63 := by
      rcases Nat.eq_zero_or_pos i with rfl | hpos
      · simpa using hint
      · have : (l : Int) ≤ i * l := by exact_mod_cast Nat.le_mul_of_pos_left l hpos
        omega
    rw [GetNamespaces_eq_drop_take c hvalues (Int.mul_nonneg (by omega) (by omega)) (by omega)
      hmax, hS, ← Int.natCast_mul, Int.toNat_ofNat, Int.toNat_ofNat]
  refine ⟨fun i hi => ⟨_, hpage i hi⟩, fun i j p q hi hj hij hp hq x hxp hxq => ?_,
    fun x => ⟨fun hx => ?_, ?_⟩⟩
  · rw [hpage i hi, Except.ok.injEq] at hp
    rw [hpage j hj, Except.ok.injEq] at hq
    subst hp hq
    rcases Nat.lt_or_gt_of_ne hij with h | h
    · exact page_disjoint hnd h hxp hxq
    · exact page_disjoint hnd h hxq hxp
  · obtain ⟨i, hi, hx⟩ := mem_page (by exact_mod_cast hlimit) (hperm.mem_iff.mpr hx)
    rw [hlen] at hi
    exact ⟨i, _, by exact_mod_cast hi, hpage i (by exact_mod_cast hi), hx⟩
  · rintro ⟨i, page, hi, hp, hx⟩
    rw [hpage i hi, Except.ok.injEq] at hp
    subst hp
    exact hperm.mem_iff.mp (List.drop_subset _ _ (List.take_subset _ _ hx))

theorem getNamespaces_pages_partition_two :
    (1 : Int) ≤ 1 ∧ (1 : Int) < 2 ^ 63 ∧
    LoadValuesAll specNamespaceCodec tblNameNamespace namespaceProto
        (run specNamespaceCodec
          [.save tblNameNamespace (ascii "a") (namespaceRecord ⟨ascii "a", ⟨1⟩⟩),
           .save tblNameNamespace (ascii "b") (namespaceRecord ⟨ascii "b", ⟨2⟩⟩)]).root =
      .ok ([⟨ascii "a", ⟨ascii "a", ⟨1⟩⟩⟩, ⟨ascii "b", ⟨ascii "b", ⟨2⟩⟩⟩] : Entries Namespace) ∧
    2 * ([⟨ascii "a", ⟨ascii "a", ⟨1⟩⟩⟩, ⟨ascii "b", ⟨ascii "b", ⟨2⟩⟩⟩] : Entries Namespace).length < 2 ^ 63 ∧
    (([⟨ascii "a", ⟨ascii "a", ⟨1⟩⟩⟩, ⟨ascii "b", ⟨ascii "b", ⟨2⟩⟩⟩] : Entries Namespace).map fun e => e.2.modifyTime).Nodup ∧
    SortsReverse (insertionSort reverseLess) ∧
    (∀ (i : Nat) (vs : Entries Namespace), ((fun _ vs => vs : Nat → Entries Namespace → Entries Namespace) i vs).Perm vs) ∧
    ((∀ i : Nat, (i : Int) * 1 < ([⟨ascii "a", ⟨ascii "a", ⟨1⟩⟩⟩, ⟨ascii "b", ⟨ascii "b", ⟨2⟩⟩⟩] : Entries Namespace).length →
      ∃ page, GetNamespaces specNamespaceCodec (fun vs => vs) (insertionSort reverseLess) i 1
        (run specNamespaceCodec
          [.save tblNameNamespace (ascii "a") (namespaceRecord ⟨ascii "a", ⟨1⟩⟩),
           .save tblNameNamespace (ascii "b") (namespaceRecord ⟨ascii "b", ⟨2⟩⟩)]).root = .ok page) ∧
    (∀ (i j : Nat) (p q : List Namespace), (i : Int) * 1 < ([⟨ascii "a", ⟨ascii "a", ⟨1⟩⟩⟩, ⟨ascii "b", ⟨ascii "b", ⟨2⟩⟩⟩] : Entries Namespace).length →
      (j : Int) * 1 < ([⟨ascii "a", ⟨ascii "a", ⟨1⟩⟩⟩, ⟨ascii "b", ⟨ascii "b", ⟨2⟩⟩⟩] : Entries Namespace).length → i ≠ j →
      GetNamespaces specNamespaceCodec (fun vs => vs) (insertionSort reverseLess) i 1
        (run specNamespaceCodec
          [.save tblNameNamespace (ascii "a") (namespaceRecord ⟨ascii "a", ⟨1⟩⟩),
           .save tblNameNamespace (ascii "b") (namespaceRecord ⟨ascii "b", ⟨2⟩⟩)]).root = .ok p →
      GetNamespaces specNamespaceCodec (fun vs => vs) (insertionSort reverseLess) j 1
        (run specNamespaceCodec
          [.save tblNameNamespace (ascii "a") (namespaceRecord ⟨ascii "a", ⟨1⟩⟩),
           .save tblNameNamespace (ascii "b") (namespaceRecord ⟨ascii "b", ⟨2⟩⟩)]).root = .ok q → ∀ x ∈ p, x ∉ q) ∧
    ∀ x, x ∈ ([⟨ascii "a", ⟨ascii "a", ⟨1⟩⟩⟩, ⟨ascii "b", ⟨ascii "b", ⟨2⟩⟩⟩] : Entries Namespace).map Sigma.snd ↔ ∃ (i : Nat) (page : List Namespace),
      (i : Int) * 1 < ([⟨ascii "a", ⟨ascii "a", ⟨1⟩⟩⟩, ⟨ascii "b", ⟨ascii "b", ⟨2⟩⟩⟩] : Entries Namespace).length ∧
      GetNamespaces specNamespaceCodec (fun vs => vs) (insertionSort reverseLess) i 1
        (run specNamespaceCodec
          [.save tblNameNamespace (ascii "a") (namespaceRecord ⟨ascii "a", ⟨1⟩⟩),
           .save tblNameNamespace (ascii "b") (namespaceRecord ⟨ascii "b", ⟨2⟩⟩)]).root = .ok page ∧ x ∈ page) :=
  ⟨by decide, by decide, rfl, by decide, by decide, insertionSort_sortsReverse,
    fun _ _ => List.Perm.refl _,
    @getNamespaces_pages_partition _ specNamespaceCodec
      (run specNamespaceCodec
        [.save tblNameNamespace (ascii "a") (namespaceRecord ⟨ascii "a", ⟨1⟩⟩),
         .save tblNameNamespace (ascii "b") (namespaceRecord ⟨ascii "b", ⟨2⟩⟩)]).root
      1 (by decide) (by decide) [⟨ascii "a", ⟨ascii "a", ⟨1⟩⟩⟩, ⟨ascii "b", ⟨ascii "b", ⟨2⟩⟩⟩]
      rfl (by decide) (by decide) _ insertionSort_sortsReverse (fun _ vs => vs)
      fun _ _ => List.Perm.refl _⟩

end Polaris

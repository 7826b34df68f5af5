import Polaris.SqlDb.Fetch

/-!
# What the instance reads return

The reads of `Fetch` read two tables: `instance` and `instance_metadata`.  Over a model of
their contents we state what the reads are for and show that each read returns it, in every
order in which the database returns the rows of a query (SQL gives none) and, for
`batchAcquireInstanceMetadata`, in every order in which `range` visits its map.

* `MetaTable` — `instance_metadata`, its rows with `(id, mkey)` the primary key;
  `MetaTable.metadataOf` is what it holds for one instance;
* `Selection` — the instances a query selects, with distinct ids (`id` is the primary key of
  `instance`);
* `instanceView` — each selected instance under its id, as `Store2Instance` builds it, with the
  metadata the table holds for it;
* `completeRows` — what the left joins of `genCompleteInstanceSelectSQL` return: an instance
  once with each of its metadata rows, or once with `IFNULL`'s empty strings;
* `assignFirst` — each instance of a list given the metadata of its id, unless an instance
  before it has the same id.

Principal results:

* `foldl_insert_perm` — a map built from rows with distinct keys is the same in every order;
* `getMoreInstancesMainWithMeta_view` — both paths of the incremental read, the joined query
  and the two queries of the first update, return the view;
* `getInstance_view` — the single-instance read returns the instance of the view, a nil
  metadata map read as an empty one;
* `batchAcquireInstanceMetadata_assign` — one placeholder per instance, and the metadata of
  each id set on the first instance of that id.
-/

set_option autoImplicit false

namespace Polaris

open Entries

variable {α : Type}

/-! ## Maps built from rows -/

/-- **A map built from rows with distinct keys is the same in every order of the rows.** -/
theorem foldl_insert_perm {β γ : Type} (key : γ → Bytes) (val : γ → β) {l l' : List γ}
    (h : l.Perm l') (hkey : ∀ x ∈ l, ∀ y ∈ l, key x = key y → x = y) {m : Entries β}
    (hm : Ordered m) :
    l.foldl (fun m x => insert (key x) (val x) m) m =
      l'.foldl (fun m x => insert (key x) (val x) m) m := by
  induction h generalizing m with
  | nil => rfl
  | cons x _ ih =>
    exact ih (fun a ha b hb => hkey a (.tail _ ha) b (.tail _ hb)) (hm.insert _ _)
  | swap x y l =>
    simp only [List.foldl_cons]
    by_cases hxy : key x = key y
    · rw [hkey y (by simp) x (by simp) hxy.symm]
    · rw [insert_comm hm hxy]
  | trans h₁ _ ih₁ ih₂ =>
    exact (ih₁ hkey hm).trans
      (ih₂ (fun a ha b hb => hkey a (h₁.mem_iff.mpr ha) b (h₁.mem_iff.mpr hb)) hm)

/-- An entry set from the one before it, starting from `d` for none: after a first row, the
map built from all of them. -/
theorem foldl_some_getD {β γ : Type} (g : β → γ → β) (d : β) (rows : List γ) (o : Option β) :
    rows.foldl (fun o row => some (g (o.getD d) row)) o =
      if rows.isEmpty then o else some (rows.foldl g (o.getD d)) := by
  induction rows generalizing o with
  | nil => rfl
  | cons row rest ih =>
    rw [List.foldl_cons, ih]
    cases rest <;> rfl

theorem foldl_option_map {β γ : Type} (g : β → γ → β) (rows : List γ) (o : Option β) :
    rows.foldl (fun o row => o.map (g · row)) o = o.map (rows.foldl g ·) := by
  induction rows generalizing o with
  | nil => cases o <;> rfl
  | cons row rest ih => rw [List.foldl_cons, ih]; cases o <;> rfl

theorem foldl_setMeta (rows : List MetaRow) (ins : Fetched α) :
    rows.foldl (fun ins r => ins.setMeta r.mkey r.mvalue) ins =
      if rows.isEmpty then ins
      else { ins with
        metadata := some (rows.foldl (fun m r => insert r.mkey r.mvalue m) (ins.metadata.getD [])) } := by
  induction rows generalizing ins with
  | nil => rfl
  | cons r rest ih =>
    rw [List.foldl_cons, ih]
    split <;> simp_all [Fetched.setMeta]

/-- With distinct keys, the rows of a key are none or one. -/
theorem filter_key_of_mem {γ : Type} (key : γ → Bytes) {l : List γ} (hl : (l.map key).Nodup)
    {x : γ} (hx : x ∈ l) : l.filter (key · = key x) = [x] := by
  induction l with
  | nil => cases hx
  | cons y l ih =>
    rw [List.map_cons, List.nodup_cons] at hl
    rcases List.mem_cons.mp hx with rfl | hx
    · have hnone : l.filter (key · = key x) = [] :=
        List.filter_eq_nil_iff.mpr fun z hz hzx =>
          hl.1 (List.mem_map.mpr ⟨z, hz, of_decide_eq_true hzx⟩)
      simp [hnone]
    · have hyx : key y ≠ key x := fun h => hl.1 (h ▸ List.mem_map_of_mem key hx)
      simp [hyx, ih hl.2 hx]

theorem filter_key_of_not_mem {γ : Type} (key : γ → Bytes) {l : List γ} {k : Bytes}
    (hk : ∀ x ∈ l, key x ≠ k) : l.filter (key · = k) = [] :=
  List.filter_eq_nil_iff.mpr fun x hx hxk => hk x hx (of_decide_eq_true hxk)

/-! ## The tables -/

/-- The `instance_metadata` table: its rows, `(id, mkey)` the primary key. -/
structure MetaTable where
  rows : List MetaRow
  key_unique : (rows.map fun r => (r.id, r.mkey)).Nodup

/-- The metadata the table holds for `id`: `none` with no row, else the map of its rows. -/
def MetaTable.metadataOf (t : MetaTable) (id : Bytes) : Option (Entries Bytes) :=
  match t.rows.filter (·.id = id) with
  | [] => none
  | rs => some (rs.foldl (fun m r => insert r.mkey r.mvalue m) [])

/-- The rows of one id have distinct keys. -/
theorem MetaTable.mkey_unique (t : MetaTable) (id : Bytes) :
    ∀ x ∈ t.rows.filter (·.id = id), ∀ y ∈ t.rows.filter (·.id = id), x.mkey = y.mkey → x = y := by
  intro x hx y hy hxy
  simp only [List.mem_filter, decide_eq_true_eq] at hx hy
  exact List.inj_on_of_nodup_map t.key_unique hx.1 hy.1 (by rw [hx.2, hy.2, hxy])

/-- The map built from rows that order the rows of `id`, from an empty map. -/
theorem MetaTable.metadataOf_perm (t : MetaTable) (id : Bytes) {rows : List MetaRow}
    (h : rows.Perm (t.rows.filter (·.id = id))) :
    t.metadataOf id = if rows.isEmpty then none
      else some (rows.foldl (fun m r => insert r.mkey r.mvalue m) []) := by
  have hkey := t.mkey_unique id
  unfold MetaTable.metadataOf
  cases hf : t.rows.filter (·.id = id) with
  | nil => rw [hf, List.perm_nil] at h; simp [h]
  | cons r rs =>
    rw [hf] at h hkey
    cases rows with
    | nil => exact absurd (List.perm_nil.mp h.symm) (List.cons_ne_nil _ _)
    | cons r' rows' =>
      show some _ = some _
      rw [foldl_insert_perm _ _ h.symm hkey ordered_nil]

section View

variable {Item : Type} (itemID : Item → Bytes) (build : Item → α)

/-- The instances a query selects: rows of `instance`, `id` its primary key. -/
structure Selection where
  items : List Item
  id_unique : (items.map itemID).Nodup

/-- The instance the view holds for a selected row. -/
def viewEntry (t : MetaTable) (item : Item) : Fetched α :=
  { Store2Instance itemID build item with metadata := t.metadataOf (itemID item) }

/-- What the incremental reads are for: each selected instance under its id, as
`Store2Instance` builds it, with the metadata the table holds for it. -/
def instanceView (sel : Selection itemID) (t : MetaTable) : Entries (Fetched α) :=
  sel.items.foldl (fun out item => insert (itemID item) (viewEntry itemID build t item) out) []

theorem ordered_instanceView (sel : Selection itemID) (t : MetaTable) :
    Ordered (instanceView itemID build sel t) :=
  ordered_foldl (fun _ _ h => h.insert _ _) _ ordered_nil

theorem lookup_instanceView (sel : Selection itemID) (t : MetaTable) (k : Bytes) :
    lookup k (instanceView itemID build sel t) =
      (sel.items.filter (itemID · = k)).foldl (fun _ item => some (viewEntry itemID build t item))
        none :=
  lookup_foldl_keyed (keyed_insert itemID (viewEntry itemID build t)) _ _ _

/-- The rows the complete select returns for one instance. -/
def completeBlock (t : MetaTable) (item : Item) : List (JoinRow Item) :=
  match t.rows.filter (·.id = itemID item) with
  | [] => [⟨item, ⟨[], [], []⟩⟩]
  | rs => rs.map (⟨item, ·⟩)

/-- The rows of `genCompleteInstanceSelectSQL` for a selection: each instance with each of its
metadata rows, or once with the `IFNULL` empty strings when it has none. -/
def completeRows (sel : Selection itemID) (t : MetaTable) : List (JoinRow Item) :=
  sel.items.flatMap (completeBlock itemID t)

theorem completeBlock_item (t : MetaTable) (item : Item) :
    ∀ row ∈ completeBlock itemID t item, row.item = item := by
  unfold completeBlock
  split
  · simp
  · simp only [List.mem_map]
    rintro _ ⟨_, _, rfl⟩
    rfl

/-- The complete select's rows of one id are the block of the instances of that id. -/
theorem filter_flatMap_completeBlock (t : MetaTable) (items : List Item) (k : Bytes) :
    (items.flatMap (completeBlock itemID t)).filter (itemID ·.item = k) =
      (items.filter (itemID · = k)).flatMap (completeBlock itemID t) := by
  induction items with
  | nil => rfl
  | cons a items ih =>
    rw [List.flatMap_cons, List.filter_append, ih, List.filter_cons]
    by_cases ha : itemID a = k
    · rw [List.filter_eq_self.mpr fun row hrow => by simp [completeBlock_item itemID t a row hrow, ha]]
      simp [ha]
    · rw [List.filter_eq_nil_iff.mpr fun row hrow => by simp [completeBlock_item itemID t a row hrow, ha]]
      simp [ha]

/-- The rows of an id, in any order, set the view's metadata on `Store2Instance`'s instance. -/
theorem foldl_setMeta_view (t : MetaTable) (item : Item) {rows : List MetaRow}
    (h : rows.Perm (t.rows.filter (·.id = itemID item))) :
    rows.foldl (fun ins r => ins.setMeta r.mkey r.mvalue) (Store2Instance itemID build item) =
      viewEntry itemID build t item := by
  rw [foldl_setMeta, viewEntry, t.metadataOf_perm _ h]
  cases rows.isEmpty <;> rfl

/-- The block of a selected instance, in any order, leaves its view entry. -/
theorem foldl_joinEntry_block (t : MetaTable) (item : Item) (hne : itemID item ≠ [])
    {rows : List (JoinRow Item)} (h : rows.Perm (completeBlock itemID t item)) :
    rows.foldl (joinEntry itemID build) none = some (viewEntry itemID build t item) := by
  have hitem : ∀ row ∈ rows, row.item = item := fun row hr =>
    completeBlock_item itemID t item row (h.subset hr)
  let step (ins : Fetched α) (row : JoinRow Item) : Fetched α :=
    if row.metaRow.id ≠ [] then ins.setMeta row.metaRow.mkey row.metaRow.mvalue else ins
  rw [List.foldl_ext _ (fun o row => some (step (o.getD (Store2Instance itemID build item)) row))
    none fun o row hr => by simp only [joinEntry, hitem row hr, step],
    foldl_some_getD]
  unfold completeBlock at h
  cases hf : t.rows.filter (·.id = itemID item) with
  | nil =>
    rw [hf, List.perm_singleton] at h
    subst h
    simp [step, viewEntry, MetaTable.metadataOf, hf, Store2Instance]
  | cons r rs =>
    rw [hf] at h
    have hmeta : (rows.map (·.metaRow)).Perm (t.rows.filter (·.id = itemID item)) := by
      rw [hf]; simpa [Function.comp_def] using h.map (·.metaRow)
    have hid : ∀ row ∈ rows, row.metaRow.id = itemID item := fun row hr => by
      have : row.metaRow ∈ t.rows.filter (·.id = itemID item) := hmeta.subset (List.mem_map_of_mem _ hr)
      simpa using (List.mem_filter.mp this).2
    have hne' : rows.isEmpty = false := by
      cases rows with
      | nil => exact absurd (List.perm_nil.mp h.symm) (by simp)
      | cons _ _ => rfl
    rw [hne', if_neg (by simp), Option.getD_none, List.foldl_ext _ (fun ins row =>
      ins.setMeta row.metaRow.mkey row.metaRow.mvalue) _ fun ins row hr => by
        simp [step, hid row hr, hne],
      ← List.foldl_map (fun row : JoinRow Item => row.metaRow)
        (fun (ins : Fetched α) (r : MetaRow) => ins.setMeta r.mkey r.mvalue),
      foldl_setMeta_view itemID build t item hmeta]

/-- The joined read's loop builds the view from the complete select's rows in any order, when no
selected id is empty. -/
theorem foldl_fetchInstanceWithMetaRow_view (sel : Selection itemID) (t : MetaTable)
    (hne : ∀ item ∈ sel.items, itemID item ≠ []) {rows : List (JoinRow Item)}
    (h : rows.Perm (completeRows itemID sel t)) :
    rows.foldl (fetchInstanceWithMetaRow itemID build) [] = instanceView itemID build sel t := by
  refine ext (ordered_foldl (fun _ _ h => h.fetchInstanceWithMetaRow itemID build _) _ ordered_nil)
    (ordered_instanceView itemID build sel t) fun k => ?_
  rw [lookup_foldl_keyed (keyed_fetchInstanceWithMetaRow itemID build), lookup_instanceView,
    lookup_nil]
  have hk := h.filter (fun row => decide (itemID row.item = k))
  rw [completeRows, filter_flatMap_completeBlock] at hk
  by_cases hsel : ∃ item ∈ sel.items, itemID item = k
  · obtain ⟨item, hitem, rfl⟩ := hsel
    rw [filter_key_of_mem itemID sel.id_unique hitem, List.flatMap_singleton] at hk
    rw [filter_key_of_mem itemID sel.id_unique hitem,
      foldl_joinEntry_block itemID build t item (hne item hitem) hk]
    rfl
  · push_neg at hsel
    rw [filter_key_of_not_mem itemID hsel, List.flatMap_nil, List.perm_nil] at hk
    rw [filter_key_of_not_mem itemID hsel, hk]
    rfl

/-- The two queries of the first update build the view, from rows in any order. -/
theorem foldl_addMetadata_view (sel : Selection itemID) (t : MetaTable) {mainRows : List Item}
    (hmain : mainRows.Perm sel.items) {metaRows : List MetaRow} (hmeta : metaRows.Perm t.rows) :
    metaRows.foldl addMetadata (mainRows.foldl
      (fun out entry => insert (itemID entry) (Store2Instance itemID build entry) out) []) =
      instanceView itemID build sel t := by
  refine ext (ordered_foldl (fun _ _ h => h.addMetadata _) _
    (ordered_foldl (fun _ _ h => h.insert _ _) _ ordered_nil))
    (ordered_instanceView itemID build sel t) fun k => ?_
  rw [lookup_foldl_keyed keyed_addMetadata, foldl_option_map,
    lookup_foldl_keyed (keyed_insert _ _), lookup_instanceView, lookup_nil]
  have hm := hmain.filter (fun item => decide (itemID item = k))
  by_cases hsel : ∃ item ∈ sel.items, itemID item = k
  · obtain ⟨item, hitem, rfl⟩ := hsel
    rw [filter_key_of_mem itemID sel.id_unique hitem, List.perm_singleton] at hm
    rw [hm, filter_key_of_mem itemID sel.id_unique hitem]
    simp only [List.foldl_cons, List.foldl_nil, Option.map_some']
    rw [foldl_setMeta_view itemID build t item (hmeta.filter _)]
  · push_neg at hsel
    rw [filter_key_of_not_mem itemID hsel, List.perm_nil] at hm
    rw [hm, filter_key_of_not_mem itemID hsel]
    rfl

variable {E : Type}

theorem getMoreInstancesMain_ofList (mainRows : List Item) :
    getMoreInstancesMain itemID build (.ok (Rows.ofList mainRows) : Except E (Rows E Item)) =
      .ok (mainRows.foldl
        (fun out entry => insert (itemID entry) (Store2Instance itemID build entry) out) []) := by
  simp only [getMoreInstancesMain, callFetchInstanceRows_continue]
  exact Rows.fold_ofList _ _ _

/-- **Both paths of the incremental read return the view**: the joined query, and on the first
update the instance query then all of `instance_metadata`, for rows in every order, when no
selected id is empty. -/
theorem getMoreInstancesMainWithMeta_view (sel : Selection itemID) (t : MetaTable)
    (hne : ∀ item ∈ sel.items, itemID item ≠ []) (firstUpdate : Bool) {mainRows : List Item}
    (hmain : mainRows.Perm sel.items) {metaRows : List MetaRow} (hmeta : metaRows.Perm t.rows)
    {joinRows : List (JoinRow Item)} (hjoin : joinRows.Perm (completeRows itemID sel t)) :
    getMoreInstancesMainWithMeta itemID build firstUpdate (.ok (Rows.ofList mainRows))
      (.ok (Rows.ofList metaRows) : Except E (Rows E MetaRow)) (.ok (Rows.ofList joinRows)) =
      .ok (some (instanceView itemID build sel t)) := by
  cases firstUpdate with
  | false =>
    show Except.map some ((Rows.ofList joinRows).fold (fetchInstanceWithMetaRow itemID build) []) = _
    rw [Rows.fold_ofList, foldl_fetchInstanceWithMetaRow_view itemID build sel t hne hjoin]
    rfl
  | true =>
    simp only [getMoreInstancesMainWithMeta, getMoreInstancesMain_ofList, if_true]
    show (Rows.ofList metaRows).fold addMetadata _ >>= (fun instances => pure (some instances)) = _
    rw [Rows.fold_ofList, foldl_addMetadata_view itemID build sel t hmain hmeta]
    rfl

end View

/-- Two instances: `i1` with two metadata entries, `i2` with none. -/
def twoInstances : Selection (fun b : Bytes => b) := ⟨[ascii "i1", ascii "i2"], by decide⟩

/-- The metadata of `twoInstances`. -/
def twoEntries : MetaTable :=
  ⟨[⟨ascii "i1", ascii "k1", ascii "v"⟩, ⟨ascii "i1", ascii "k2", ascii "w"⟩], by decide⟩

theorem getMoreInstancesMainWithMeta_view_reversed :
    (∀ item ∈ twoInstances.items, item ≠ []) ∧
    [ascii "i2", ascii "i1"].Perm twoInstances.items ∧
    twoEntries.rows.reverse.Perm twoEntries.rows ∧
    (completeRows (fun b : Bytes => b) twoInstances twoEntries).reverse.Perm
      (completeRows (fun b : Bytes => b) twoInstances twoEntries) ∧
    getMoreInstancesMainWithMeta (fun b : Bytes => b) (fun _ => ()) false
      (.ok (Rows.ofList [ascii "i2", ascii "i1"]))
      (.ok (Rows.ofList twoEntries.rows.reverse) : Except String (Rows String MetaRow))
      (.ok (Rows.ofList (completeRows (fun b : Bytes => b) twoInstances twoEntries).reverse)) =
      .ok (some (instanceView (fun b : Bytes => b) (fun _ => ()) twoInstances twoEntries)) :=
  ⟨by decide, by decide, List.reverse_perm _, List.reverse_perm _,
    getMoreInstancesMainWithMeta_view _ _ twoInstances twoEntries (by decide) false (by decide)
      (List.reverse_perm _) (List.reverse_perm _)⟩

section Single

variable {Item : Type} (itemID : Item → Bytes) (build : Item → α) {E : Type}

theorem fetchInstanceRows_ofList (l : List Item) :
    fetchInstanceRows itemID build (some (Rows.ofList l : Rows E Item)) =
      .ok (l.map (Store2Instance itemID build)) := by
  have happend : ∀ acc : List (Fetched α), l.foldl (fun out entry =>
      out ++ [Store2Instance itemID build entry]) acc = acc ++ l.map (Store2Instance itemID build) := by
    induction l with
    | nil => simp
    | cons item l ih => intro acc; simp [ih]
  rw [fetchInstanceRows, callFetchInstanceRows_continue, Rows.fold_ofList, happend, List.nil_append]

/-- `GetInstanceMeta` returns the map of the table's rows of the id, empty for none, in every
order of the rows. -/
theorem GetInstanceMeta_table (t : MetaTable)
    (answerMeta : Bytes → Except E (Rows E (Bytes × Bytes))) (id : Bytes)
    {lm : List (Bytes × Bytes)} (hM : answerMeta id = .ok (Rows.ofList lm))
    (hlm : lm.Perm ((t.rows.filter (·.id = id)).map fun r => (r.mkey, r.mvalue))) :
    GetInstanceMeta answerMeta id = .ok ((t.metadataOf id).getD []) := by
  have hkey : ∀ x ∈ lm, ∀ y ∈ lm, x.1 = y.1 → x = y := by
    intro x hx y hy hxy
    obtain ⟨r, hr, rfl⟩ := List.mem_map.mp (hlm.subset hx)
    obtain ⟨r', hr', rfl⟩ := List.mem_map.mp (hlm.subset hy)
    rw [t.mkey_unique id r hr r' hr' hxy]
  simp only [GetInstanceMeta, hM, bind, Except.bind]
  rw [Rows.fold_ofList, foldl_insert_perm Prod.fst Prod.snd hlm hkey ordered_nil, List.foldl_map,
    t.metadataOf_perm id (List.Perm.refl _)]
  cases t.rows.filter (·.id = id) <;> rfl

/-- **The single-instance read returns the view's instance** of the id, with a nil metadata map
read as an empty one, for rows in every order. -/
theorem getInstance_view (all : Selection itemID) (t : MetaTable) (id : Bytes)
    (answerInstance : Bytes → Except E (Rows E Item))
    (answerMeta : Bytes → Except E (Rows E (Bytes × Bytes))) {li : List Item}
    (hI : answerInstance id = .ok (Rows.ofList li))
    (hli : li.Perm (all.items.filter (itemID · = id))) {lm : List (Bytes × Bytes)}
    (hM : answerMeta id = .ok (Rows.ofList lm))
    (hlm : lm.Perm ((t.rows.filter (·.id = id)).map fun r => (r.mkey, r.mvalue))) :
    getInstance itemID build answerInstance answerMeta id =
      .ok ((lookup id (instanceView itemID build all t)).map
        fun ins => { ins with metadata := some (ins.metadata.getD []) }) := by
  rw [lookup_instanceView]
  by_cases hsel : ∃ item ∈ all.items, itemID item = id
  · obtain ⟨item, hitem, rfl⟩ := hsel
    rw [filter_key_of_mem itemID all.id_unique hitem, List.perm_singleton] at hli
    subst hli
    simp only [getInstance, hI, bind, Except.bind, fetchInstanceRows_ofList, List.map_singleton,
      Store2Instance_id, GetInstanceMeta_table t answerMeta _ hM hlm]
    rw [filter_key_of_mem itemID all.id_unique hitem]
    rfl
  · push_neg at hsel
    rw [filter_key_of_not_mem itemID hsel, List.perm_nil] at hli
    subst hli
    simp only [getInstance, hI, bind, Except.bind, fetchInstanceRows_ofList, List.map_nil]
    rw [filter_key_of_not_mem itemID hsel]
    rfl

end Single

theorem getInstance_view_i1 :
    (Except.ok (Rows.ofList [ascii "i1"]) : Except String (Rows String Bytes)) =
      .ok (Rows.ofList [ascii "i1"]) ∧
    [ascii "i1"].Perm (twoInstances.items.filter (· = ascii "i1")) ∧
    (Except.ok (Rows.ofList [(ascii "k2", ascii "w"), (ascii "k1", ascii "v")]) :
      Except String (Rows String (Bytes × Bytes))) =
      .ok (Rows.ofList [(ascii "k2", ascii "w"), (ascii "k1", ascii "v")]) ∧
    [(ascii "k2", ascii "w"), (ascii "k1", ascii "v")].Perm
      ((twoEntries.rows.filter (·.id = ascii "i1")).map fun r => (r.mkey, r.mvalue)) ∧
    getInstance (fun b : Bytes => b) (fun _ => ())
      (fun _ => (.ok (Rows.ofList [ascii "i1"]) : Except String (Rows String Bytes)))
      (fun _ => .ok (Rows.ofList [(ascii "k2", ascii "w"), (ascii "k1", ascii "v")])) (ascii "i1") =
      .ok ((lookup (ascii "i1") (instanceView (fun b : Bytes => b) (fun _ => ()) twoInstances
        twoEntries)).map fun ins => { ins with metadata := some (ins.metadata.getD []) }) :=
  ⟨rfl, by decide, rfl, by decide,
    getInstance_view _ _ twoInstances twoEntries (ascii "i1") _ _ rfl (by decide) rfl (by decide)⟩

/-! ## Metadata for a list of instances -/

/-- What `batchAcquireInstanceMetadata` is for: each instance is given the metadata `meta` holds
for its id, unless an instance before it has the same id; an instance with none keeps its own. -/
def assignFirst (meta : Bytes → Option (Entries Bytes)) : List (Fetched α) → List (Fetched α)
  | [] => []
  | ele :: rest =>
    (match meta ele.id with
      | some m => { ele with metadata := some m }
      | none => ele) :: assignFirst (fun id => if id = ele.id then none else meta id) rest

/-- The assignment loop over entries with distinct ids, in any order, assigns each to the first
instance of its id. -/
theorem foldl_setFirstMetadata_assign (es : Entries (Entries Bytes)) (hes : es.NodupKeys)
    (meta : Bytes → Option (Entries Bytes)) (instances : List (Fetched α))
    (hmeta : ∀ ele ∈ instances, meta ele.id = lookup ele.id es) :
    es.foldl (fun instances e => setFirstMetadata e.1 e.2 instances) instances =
      assignFirst meta instances := by
  induction instances generalizing es meta with
  | nil => exact List.foldl_fixed' (fun _ => rfl) es
  | cons ele rest ih =>
    have hrest : ∀ ele' ∈ rest, (fun id => if id = ele.id then none else meta id) ele'.id =
        lookup ele'.id (erase ele.id es) := by
      intro ele' hele'
      by_cases hid : ele'.id = ele.id
      · rw [hid]
        simp [lookup, erase, List.dlookup_kerase ele.id hes]
      · simp [hid, lookup, erase, List.dlookup_kerase_ne hid, hmeta ele' (.tail _ hele')]
    rw [foldl_setFirstMetadata_cons es hes, assignFirst, hmeta ele (.head _)]
    refine congrArg₂ List.cons ?_ (ih (erase ele.id es) (hes.kerase ele.id) _ hrest)
    cases lookup ele.id es <;> rfl

/-- The groups of rows answering `id in (ids)`, in any order, are the table's metadata of each
id asked for. -/
theorem lookup_foldl_groupMetaRow (t : MetaTable) (ids : List Bytes) {rows : List MetaRow}
    (h : rows.Perm (t.rows.filter (·.id ∈ ids))) {k : Bytes} (hk : k ∈ ids) :
    lookup k (rows.foldl groupMetaRow []) = t.metadataOf k := by
  have hrows : (rows.filter (·.id = k)).Perm (t.rows.filter (·.id = k)) := by
    refine (h.filter _).trans (List.Perm.of_eq ?_)
    rw [List.filter_filter]
    exact List.filter_congr fun r _ => by by_cases hr : r.id = k <;> simp [hr, hk]
  rw [lookup_foldl_keyed keyed_groupMetaRow, lookup_nil,
    foldl_some_getD (fun m (r : MetaRow) => insert r.mkey r.mvalue m), t.metadataOf_perm k hrows]
  rfl

/-- **`batchAcquireInstanceMetadata` sets on each instance the table's metadata of its id**: one
placeholder per instance in its statement, and each id's metadata set on the first instance of
that id, whatever the order of the rows and of `range` over the groups. -/
theorem batchAcquireInstanceMetadata_assign {E : Type} (t : MetaTable)
    (queryHandler : Statement → Except E (Rows E MetaRow))
    (visit : Entries (Entries Bytes) → Entries (Entries Bytes))
    (hvisit : ∀ out, (visit out).Perm out) (instances : List (Fetched α)) {rows : List MetaRow}
    (hq : queryHandler (batchQueryMetadataStatement instances) = .ok (Rows.ofList rows))
    (hrows : rows.Perm (t.rows.filter (·.id ∈ instances.map (·.id)))) :
    batchQueryMetadataStatement instances =
      ⟨ascii "select `id`, `mkey`, `mvalue` from instance_metadata where id in(" ++
        (ascii ",").intercalate (List.replicate instances.length (ascii "?")) ++ ascii ")",
        instances.map (.string ·.id)⟩ ∧
    batchAcquireInstanceMetadata queryHandler visit instances =
      .ok (assignFirst t.metadataOf instances) := by
  refine ⟨batchQueryMetadataStatement_eq instances, ?_⟩
  cases instances with
  | nil => rfl
  | cons ele rest =>
    have hout : Ordered (rows.foldl groupMetaRow []) :=
      ordered_foldl (fun _ _ h => h.groupMetaRow _) _ ordered_nil
    have hnd : (visit (rows.foldl groupMetaRow [])).NodupKeys :=
      ((hvisit _).map Sigma.fst).nodup_iff.mpr hout.nodupKeys
    simp only [batchAcquireInstanceMetadata, batchQueryMetadata, hq, bind, Except.bind,
      Except.map, List.length_cons, Nat.add_one_ne_zero, if_false]
    rw [Rows.fold_ofList]
    refine congrArg Except.ok (foldl_setFirstMetadata_assign _ hnd _ _ fun e he => ?_)
    rw [lookup, List.perm_dlookup _ hnd hout.nodupKeys (hvisit _), ← lookup,
      lookup_foldl_groupMetaRow t _ hrows (List.mem_map_of_mem _ he)]

theorem batchAcquireInstanceMetadata_assign_duplicate :
    (∀ out : Entries (Entries Bytes), out.reverse.Perm out) ∧
    (fun _ => .ok (Rows.ofList twoEntries.rows.reverse) : Statement → Except String (Rows String MetaRow))
      (batchQueryMetadataStatement
        [⟨ascii "i1", (), none⟩, ⟨ascii "i2", (), none⟩, ⟨ascii "i1", (), none⟩]) =
      .ok (Rows.ofList twoEntries.rows.reverse) ∧
    twoEntries.rows.reverse.Perm (twoEntries.rows.filter
      (·.id ∈ [ascii "i1", ascii "i2", ascii "i1"])) ∧
    (batchQueryMetadataStatement
        [(⟨ascii "i1", (), none⟩ : Fetched Unit), ⟨ascii "i2", (), none⟩, ⟨ascii "i1", (), none⟩] =
      ⟨ascii "select `id`, `mkey`, `mvalue` from instance_metadata where id in(" ++
        (ascii ",").intercalate (List.replicate 3 (ascii "?")) ++ ascii ")",
        [.string (ascii "i1"), .string (ascii "i2"), .string (ascii "i1")]⟩ ∧
    batchAcquireInstanceMetadata (fun _ => .ok (Rows.ofList twoEntries.rows.reverse)) List.reverse
        [(⟨ascii "i1", (), none⟩ : Fetched Unit), ⟨ascii "i2", (), none⟩, ⟨ascii "i1", (), none⟩] =
      (.ok (assignFirst twoEntries.metadataOf
        [⟨ascii "i1", (), none⟩, ⟨ascii "i2", (), none⟩, ⟨ascii "i1", (), none⟩]) :
        Except String (List (Fetched Unit)))) :=
  ⟨List.reverse_perm, rfl, by decide,
    batchAcquireInstanceMetadata_assign twoEntries _ List.reverse List.reverse_perm _ rfl
      (by decide)⟩

end Polaris

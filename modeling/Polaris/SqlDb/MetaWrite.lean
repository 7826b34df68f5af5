import Polaris.SqlDb.Write
import Polaris.SqlDb.Read

/-!
# What the metadata writes do to `instance_metadata`

`updateInstanceMeta` is commented as: a nil map leaves the instance's metadata alone, an empty
map deletes it, any other replaces it.  It sends the delete of the instance's rows, then
`addInstanceMeta`'s insert of one row per entry; `batchAddInstanceMeta` inserts the rows of many
instances in one statement.  Over `MetaTable`, the model of the table the reads of `Read` read,
we give these statements the meaning their text says, modelled from that text:

* `MetaStatement.parse` — the delete, by its text and its one argument; or an insert in the form
  of either insert, whose tuples bind the columns `id`, `mkey`, `mvalue` three arguments at a
  time;
* `MetaTable.deleteID` drops the rows of an id; `MetaTable.insertRows` adds rows and fails,
  adding none, when a row repeats the primary key `(id, mkey)` of another;
* `MetaTable.execAll` — statements one after another, stopping at the first that fails.

`parse_addInstanceMeta`, `execAll_addInstanceMeta` and `execAll_batchAddInstanceMeta` say once
what each insert does.  `InstanceTables` adds the `instance` table and the foreign keys to it.

Principal result:

* `batchAddInstanceMeta_stores` — on a table without rows of the instances, the batch insert
  stores each instance's map under its id and no other row.
-/

set_option autoImplicit false

namespace Polaris

open Entries

/-! ## The statements on `instance_metadata` -/

/-- Modelled from the statements' text: a statement the metadata writes send. -/
inductive MetaStatement where
  /-- `delete from instance_metadata where id = ?`. -/
  | delete (id : Bytes)
  /-- An insert of rows. -/
  | insert (rows : List MetaRow)
  deriving DecidableEq, Repr

/-- The rows an insert's arguments bind, three at a time as `id`, `mkey`, `mvalue`. -/
def metaRowsOfArgs : List SqlArg → Option (List MetaRow)
  | [] => some []
  | .string id :: .string mkey :: .string mvalue :: rest =>
    (metaRowsOfArgs rest).map (⟨id, mkey, mvalue⟩ :: ·)
  | _ => none

/-- Modelled from the statements' text: a statement with one string argument is the delete when
its text is the delete's; any other is an insert of its rows when its text is the header of
`addInstanceMeta` or of `batchAddInstanceMeta` followed by one tuple per row, separated as each
separates them. -/
def MetaStatement.parse (st : Statement) : Option MetaStatement :=
  match st.args with
  | [.string id] =>
    if st.str = ascii "delete from instance_metadata where id = ?" then some (.delete id) else none
  | args =>
    (metaRowsOfArgs args).bind fun rows =>
      if rows ≠ [] ∧
          (st.str = addMetaHeader ++ (ascii ", ").intercalate (rows.map fun _ => metaTuple) ∨
            st.str = metaHeader ++ (ascii ",").intercalate (rows.map fun _ => metaTuple)) then
        some (.insert rows)
      else none

/-! ## The table under the statements -/

/-- `instance_metadata` without the rows of `id`. -/
def MetaTable.deleteID (t : MetaTable) (id : Bytes) : MetaTable :=
  ⟨t.rows.filter (·.id ≠ id), t.key_unique.sublist ((List.filter_sublist _).map _)⟩

/-- `instance_metadata` with `rows` added, `none` when a row repeats the primary key of another:
the insert fails and adds none. -/
def MetaTable.insertRows (t : MetaTable) (rows : List MetaRow) : Option MetaTable :=
  if h : ((t.rows ++ rows).map fun r => (r.id, r.mkey)).Nodup then some ⟨t.rows ++ rows, h⟩
  else none

/-- `instance_metadata` after one statement, `none` when it fails or is none of the table's. -/
def MetaTable.exec (t : MetaTable) (st : Statement) : Option MetaTable :=
  match MetaStatement.parse st with
  | some (.delete id) => some (t.deleteID id)
  | some (.insert rows) => t.insertRows rows
  | none => none

/-- `instance_metadata` after statements sent one after another, `none` when one fails. -/
def MetaTable.execAll (t : MetaTable) : List Statement → Option MetaTable
  | [] => some t
  | st :: rest => (t.exec st).bind (·.execAll rest)

/-- The rows `addInstanceMeta` inserts: one per entry of the map, in the order `range` visits
them. -/
def metaRowsOf (id : Bytes) (meta : Option (List (Bytes × Bytes))) : List MetaRow :=
  (meta.getD []).map fun kv => ⟨id, kv.1, kv.2⟩

/-- The rows `batchAddInstanceMeta` inserts: those of each instance's map, instance after
instance. -/
def batchMetaRows (instances : List Instance) : List MetaRow :=
  instances.flatMap fun e => metaRowsOf e.id e.metadata

/-- The metadata the table holds for an instance whose rows are those of `meta`: none for a nil
or an empty map, else the map. -/
def storedMetadata (meta : Option (List (Bytes × Bytes))) : Option (Entries Bytes) :=
  match meta.getD [] with
  | [] => none
  | m => some (m.foldl (fun acc kv => insert kv.1 kv.2 acc) [])

/-- What `updateInstanceMeta` is for, as its comment says: a nil map leaves the metadata as it
was, an empty map deletes it, any other replaces it. -/
def metadataAfterUpdate (meta : Option (List (Bytes × Bytes))) (before : Option (Entries Bytes)) :
    Option (Entries Bytes) :=
  match meta with
  | none => before
  | some _ => storedMetadata meta

/-! ## The table's operations -/

theorem MetaTable.metadataOf_of_filter {t : MetaTable} {id : Bytes} {rs : List MetaRow}
    (h : t.rows.filter (·.id = id) = rs) :
    t.metadataOf id = if rs = [] then none
      else some (rs.foldl (fun m r => insert r.mkey r.mvalue m) []) := by
  unfold MetaTable.metadataOf
  rw [h]
  cases rs <;> rfl

/-- Two tables with the same rows of `id` hold the same metadata for it. -/
theorem MetaTable.metadataOf_congr {t t' : MetaTable} {id : Bytes}
    (h : t.rows.filter (·.id = id) = t'.rows.filter (·.id = id)) :
    t.metadataOf id = t'.metadataOf id := by
  unfold MetaTable.metadataOf
  rw [h]

/-- A table whose rows of `id` are those of `meta` holds `storedMetadata meta` for it. -/
theorem MetaTable.metadataOf_eq_stored {t : MetaTable} {id : Bytes}
    {meta : Option (List (Bytes × Bytes))} (h : t.rows.filter (·.id = id) = metaRowsOf id meta) :
    t.metadataOf id = storedMetadata meta := by
  rw [MetaTable.metadataOf_of_filter h, storedMetadata, metaRowsOf]
  cases meta.getD [] <;> simp [List.foldl_map]

theorem MetaTable.deleteID_filter (t : MetaTable) (id id' : Bytes) :
    (t.deleteID id).rows.filter (·.id = id') =
      if id' = id then [] else t.rows.filter (·.id = id') := by
  simp only [MetaTable.deleteID, List.filter_filter]
  split_ifs with h
  · exact List.filter_eq_nil_iff.mpr fun r _ => by simp only [h]; simp
  · exact List.filter_congr fun r _ => by by_cases hr : r.id = id' <;> simp [hr, h]

/-- The insert succeeds exactly when no row of the table has the key of an added row, for added
rows with distinct keys. -/
theorem MetaTable.insertRows_isSome_iff (t : MetaTable) {rows : List MetaRow}
    (hrows : (rows.map fun r => (r.id, r.mkey)).Nodup) :
    (t.insertRows rows).isSome ↔ ∀ r ∈ t.rows, (r.id, r.mkey) ∉ rows.map fun r => (r.id, r.mkey) := by
  unfold MetaTable.insertRows
  split_ifs with h <;> rw [List.map_append, List.nodup_append] at h
  · simpa [t.key_unique, hrows, List.Disjoint] using h
  · simp only [Option.isSome_none, Bool.false_eq_true, false_iff]
    intro hdis
    exact h ⟨t.key_unique, hrows, fun a ha hb => by
      obtain ⟨r, hr, rfl⟩ := List.mem_map.mp ha
      exact hdis r hr hb⟩

theorem MetaTable.rows_of_insertRows {t t' : MetaTable} {rows : List MetaRow}
    (h : t.insertRows rows = some t') : t'.rows = t.rows ++ rows := by
  unfold MetaTable.insertRows at h
  split_ifs at h
  cases h
  rfl

/-- A statement that inserts `rows`, or sends nothing when there are none, on a table without a
row of the ids of `rows`: it adds them. -/
theorem MetaTable.insert_fresh {t : MetaTable} {rows : List MetaRow} {o : Option MetaTable}
    (ho : o = if rows = [] then some t else t.insertRows rows)
    (hrows : (rows.map fun r => (r.id, r.mkey)).Nodup)
    (hfresh : ∀ r ∈ t.rows, ∀ r' ∈ rows, r.id ≠ r'.id) :
    ∃ t', o = some t' ∧ t'.rows = t.rows ++ rows := by
  split_ifs at ho with h
  · exact ⟨t, ho, by rw [h, List.append_nil]⟩
  · have hsome : (t.insertRows rows).isSome := by
      rw [t.insertRows_isSome_iff hrows]
      intro r hr hmem
      obtain ⟨r', hr', he⟩ := List.mem_map.mp hmem
      exact hfresh r hr r' hr' (Prod.mk.inj he).1.symm
    obtain ⟨t', ht'⟩ := Option.isSome_iff_exists.mp hsome
    exact ⟨t', ho.trans ht', MetaTable.rows_of_insertRows ht'⟩

/-! ## The rows of the inserts -/

theorem mem_metaRowsOf {id : Bytes} {meta : Option (List (Bytes × Bytes))} {r : MetaRow}
    (h : r ∈ metaRowsOf id meta) : r.id = id := by
  obtain ⟨kv, _, rfl⟩ := List.mem_map.mp h
  rfl

theorem metaRowsOf_keys (id : Bytes) (meta : Option (List (Bytes × Bytes))) :
    (metaRowsOf id meta).map (fun r => (r.id, r.mkey)) = ((meta.getD []).map Prod.fst).map (id, ·) := by
  simp [metaRowsOf, Function.comp_def]

theorem metaRowsOf_keys_nodup (id : Bytes) {meta : Option (List (Bytes × Bytes))}
    (hkeys : ((meta.getD []).map Prod.fst).Nodup) :
    ((metaRowsOf id meta).map fun r => (r.id, r.mkey)).Nodup := by
  rw [metaRowsOf_keys]
  exact hkeys.map (Prod.mk.inj_left id)

theorem metaRowsOf_filter (id id' : Bytes) (meta : Option (List (Bytes × Bytes))) :
    (metaRowsOf id meta).filter (·.id = id') = if id = id' then metaRowsOf id meta else [] := by
  split_ifs with h
  · exact List.filter_eq_self.mpr fun r hr => by simpa [mem_metaRowsOf hr] using h
  · exact List.filter_eq_nil_iff.mpr fun r hr => by simpa [mem_metaRowsOf hr] using h

theorem batchMetaRows_filter (instances : List Instance) (id : Bytes) :
    (batchMetaRows instances).filter (·.id = id) = batchMetaRows (instances.filter (·.id = id)) := by
  induction instances with
  | nil => rfl
  | cons e instances ih =>
    simp only [batchMetaRows, List.flatMap_cons, List.filter_append, metaRowsOf_filter,
      List.filter_cons] at ih ⊢
    rw [ih]
    split_ifs with h <;> simp_all

theorem batchMetaRows_keys_nodup {instances : List Instance} (hids : (instances.map (·.id)).Nodup)
    (hkeys : ∀ e ∈ instances, ((e.metadata.getD []).map Prod.fst).Nodup) :
    ((batchMetaRows instances).map fun r => (r.id, r.mkey)).Nodup := by
  induction instances with
  | nil => exact List.nodup_nil
  | cons e instances ih =>
    rw [List.map_cons, List.nodup_cons] at hids
    rw [batchMetaRows, List.flatMap_cons, List.map_append, List.nodup_append]
    refine ⟨metaRowsOf_keys_nodup e.id (hkeys e (.head _)),
      ih hids.2 fun e' he' => hkeys e' (.tail _ he'), fun a ha hb => ?_⟩
    obtain ⟨r, hr, rfl⟩ := List.mem_map.mp ha
    obtain ⟨r', hr', he⟩ := List.mem_map.mp hb
    obtain ⟨e', he', hr'e'⟩ := List.mem_flatMap.mp hr'
    exact hids.1 (List.mem_map.mpr ⟨e', he', by
      rw [← mem_metaRowsOf hr'e', (Prod.mk.inj he).1, mem_metaRowsOf hr]⟩)

theorem metaRowsOfArgs_flatten (rows : List MetaRow) :
    metaRowsOfArgs ((rows.map fun r => [SqlArg.string r.id, .string r.mkey, .string r.mvalue]).flatten) =
      some rows := by
  induction rows with
  | nil => rfl
  | cons r rows ih => simp [metaRowsOfArgs, ih]

/-- An insert of `rows` in the form of either insert is read as one. -/
theorem MetaStatement.parse_insert {rows : List MetaRow} (hrows : rows ≠ []) {header sep : Bytes}
    (hform : header = addMetaHeader ∧ sep = ascii ", " ∨ header = metaHeader ∧ sep = ascii ",") :
    MetaStatement.parse ⟨header ++ sep.intercalate (rows.map fun _ => metaTuple),
      (rows.map fun r => metaArgs r.id r.mkey r.mvalue).flatten⟩ = some (.insert rows) := by
  obtain ⟨r, rows, rfl⟩ := List.exists_cons_of_ne_nil hrows
  rcases hform with ⟨rfl, rfl⟩ | ⟨rfl, rfl⟩ <;>
    simp [MetaStatement.parse, metaArgs, metaRowsOfArgs, metaRowsOfArgs_flatten,
      List.replicate_succ]

theorem MetaTable.exec_insert (t : MetaTable) {rows : List MetaRow} (hrows : rows ≠ [])
    {header sep : Bytes}
    (hform : header = addMetaHeader ∧ sep = ascii ", " ∨ header = metaHeader ∧ sep = ascii ",") :
    t.exec ⟨header ++ sep.intercalate (rows.map fun _ => metaTuple),
      (rows.map fun r => metaArgs r.id r.mkey r.mvalue).flatten⟩ = t.insertRows rows := by
  rw [MetaTable.exec, MetaStatement.parse_insert hrows hform]

/-- **What `addInstanceMeta` sends**: nothing for no rows, otherwise one insert of its rows. -/
theorem parse_addInstanceMeta (id : Bytes) (meta : Option (List (Bytes × Bytes))) :
    (addInstanceMeta id meta).map MetaStatement.parse =
      if metaRowsOf id meta = [] then none else some (some (.insert (metaRowsOf id meta))) := by
  have hrows : addMetaRows id meta =
      (metaRowsOf id meta).map fun r => metaArgs r.id r.mkey r.mvalue := by
    simp only [addMetaRows, metaRowsOf, List.map_map, ← (metaArgs_columns.2.2 _ _ _).2]
    rfl
  have hlen : mapLen meta = 0 ↔ metaRowsOf id meta = [] := by simp [mapLen, metaRowsOf]
  rw [addInstanceMeta_eq, hrows, if_congr hlen rfl rfl]
  split_ifs with h
  · rfl
  · rw [Option.map_some', List.map_map, Function.comp_def,
      MetaStatement.parse_insert h (.inl ⟨rfl, rfl⟩)]

/-- **The step lemma of `addInstanceMeta`**: its statement, when it sends one, inserts its rows;
none is sent for no rows. -/
theorem execAll_addInstanceMeta (t : MetaTable) (id : Bytes)
    (meta : Option (List (Bytes × Bytes))) :
    t.execAll (addInstanceMeta id meta).toList =
      if metaRowsOf id meta = [] then some t else t.insertRows (metaRowsOf id meta) := by
  have h := parse_addInstanceMeta id meta
  rcases hst : addInstanceMeta id meta with _ | st <;> rw [hst] at h <;> split_ifs at h ⊢
  · rfl
  · cases h
  · cases h
  · simp [MetaTable.execAll, MetaTable.exec, Option.some.inj h]

/-- **The step lemma of `batchAddInstanceMeta`**: its statement, when it sends one, inserts the
rows of every instance. -/
theorem execAll_batchAddInstanceMeta (t : MetaTable) (instances : List Instance) :
    t.execAll (batchAddInstanceMeta instances).toList =
      if batchMetaRows instances = [] then some t else t.insertRows (batchMetaRows instances) := by
  have hrows : metaRows instances =
      (batchMetaRows instances).map fun r => metaArgs r.id r.mkey r.mvalue := by
    simp only [metaRows, batchMetaRows, metaRowsOf, List.map_flatMap, List.map_map,
      ← (metaArgs_columns.2.2 _ _ _).1]
    rfl
  have hnil : metaRows instances = [] ↔ batchMetaRows instances = [] := by
    rw [hrows, List.map_eq_nil_iff]
  rw [batchAddInstanceMeta_eq, hrows, if_congr (hrows ▸ hnil) rfl rfl]
  split_ifs with h
  · rfl
  · simp only [Option.toList_some, MetaTable.execAll, List.map_map, Function.comp_def,
      t.exec_insert h (.inr ⟨rfl, rfl⟩), Option.bind_some]

/-! ## The writes -/

/-- **`batchAddInstanceMeta` stores each instance's map.**  For instances with distinct ids and
maps with distinct keys, on a table without a row of their ids, as `BatchClearInstances` is
meant to leave it, its statement never fails; each instance then holds `storedMetadata` of its
map, none for a nil or an empty one, and every other id keeps its metadata. -/
theorem batchAddInstanceMeta_stores (t : MetaTable) (instances : List Instance)
    (hids : (instances.map (·.id)).Nodup)
    (hkeys : ∀ e ∈ instances, ((e.metadata.getD []).map Prod.fst).Nodup)
    (hfresh : ∀ r ∈ t.rows, ∀ e ∈ instances, r.id ≠ e.id) :
    ∃ t', t.execAll (batchAddInstanceMeta instances).toList = some t' ∧
      (∀ id, (∀ e ∈ instances, e.id ≠ id) → t'.metadataOf id = t.metadataOf id) ∧
      ∀ e ∈ instances, t'.metadataOf e.id = storedMetadata e.metadata := by
  obtain ⟨t', hexec, hrows⟩ := MetaTable.insert_fresh (execAll_batchAddInstanceMeta t instances)
    (batchMetaRows_keys_nodup hids hkeys) fun r hr r' hr' => by
      obtain ⟨e, he, hr'e⟩ := List.mem_flatMap.mp hr'
      rw [mem_metaRowsOf hr'e]
      exact hfresh r hr e he
  have hfilter : ∀ id, t'.rows.filter (·.id = id) =
      t.rows.filter (·.id = id) ++ batchMetaRows (instances.filter (·.id = id)) := fun id => by
    rw [hrows, List.filter_append, batchMetaRows_filter]
  refine ⟨t', hexec, fun id hid => ?_, fun e he => MetaTable.metadataOf_eq_stored ?_⟩
  · exact MetaTable.metadataOf_congr
      (by rw [hfilter, filter_key_of_not_mem _ hid]; simp [batchMetaRows])
  · rw [hfilter, filter_key_of_mem _ hids he,
      filter_key_of_not_mem _ fun r hr => hfresh r hr e he]
    simp [batchMetaRows]

/-- Two new instances, one with a map and one with an empty map, beside the rows of `i1`. -/
theorem batchAddInstanceMeta_stores_two :
    let instances : List Instance :=
      [⟨ascii "i2", [], [], [], 0, [], [], false, false, 0, false, [], [], [], [], 0, [], none,
          some [(ascii "k1", ascii "u"), (ascii "k2", ascii "v")]⟩,
        ⟨ascii "i3", [], [], [], 0, [], [], false, false, 0, false, [], [], [], [], 0, [], none,
          some []⟩]
    (instances.map (·.id)).Nodup ∧
    (∀ e ∈ instances, ((e.metadata.getD []).map Prod.fst).Nodup) ∧
    (∀ r ∈ twoEntries.rows, ∀ e ∈ instances, r.id ≠ e.id) ∧
    ∃ t', twoEntries.execAll (batchAddInstanceMeta instances).toList = some t' ∧
      (∀ id, (∀ e ∈ instances, e.id ≠ id) → t'.metadataOf id = twoEntries.metadataOf id) ∧
      ∀ e ∈ instances, t'.metadataOf e.id = storedMetadata e.metadata :=
  ⟨by decide, by decide, by decide, batchAddInstanceMeta_stores twoEntries _ (by decide) (by decide)
    (by decide)⟩

end Polaris

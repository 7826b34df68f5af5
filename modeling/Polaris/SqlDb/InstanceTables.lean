import Polaris.SqlDb.MetaWrite

/-!
# `instance` and the foreign keys the instance writes rely on

The comments on `BatchClearInstances` and `CleanInstance` say that the code relies on the `id`
of the tables beside `instance` being a foreign key to `instance.id`, deleting in cascade:
`CleanInstance` deletes only the `instance` row of a deleted instance (`flag = 1`), and that
instance's health check and metadata rows are to go with it.  The schema is not among the
sources.  `InstanceTables` models the three tables by what the instance writes read and change,
with those keys as fields, so that no state of the model breaks them:

* `instance` — the id of each row, the primary key, and whether its `flag` is 1;
* `health_check` — the id of each row, the primary key, each the id of an `instance` row;
* `instance_metadata` — a `MetaTable`, each row's id that of an `instance` row.

The statements mean what their text says (`InstanceStatement.parse`, beside
`MetaStatement.parse`): an insert fails, changing nothing, when it repeats a primary key or
names an id that `instance` does not hold; a delete of `instance` rows deletes the rows of the
other two tables whose parent it deleted.

Principal results:

* `updateInstanceMeta_replaces_metadata` — for an instance with a row in `instance`, the
  statements of `updateInstanceMeta` never fail and leave its metadata as the comment says,
  which `GetInstanceMeta` reads back; for an id without one, they fail exactly when the map has
  entries;
* `addInstanceMeta_succeeds_iff` — `addInstanceMeta`'s insert fails exactly when the map has
  entries and the instance has no row, or a row of its metadata under one of the map's keys;
  `CleanInstance`'s delete removes the instance's row only when its `flag` is 1, and its health
  check and metadata with it; after it, the statements of `addInstance` succeed exactly when no
  row of the instance with `flag` 0 remains, and leave the instance with its new metadata.
-/

set_option autoImplicit false

namespace Polaris

open Entries

/-! ## The tables -/

/-- A row of `instance`, by what the writes read of it: its `id`, the primary key, and whether
its `flag` is 1, the mark of a deleted instance. -/
structure InstanceRow where
  id : Bytes
  deleted : Bool
  deriving DecidableEq, Repr

/-- `instance`, `health_check` and `instance_metadata`, each with its primary key, and the ids
of `health_check` and `instance_metadata` foreign keys to `instance.id`. -/
structure InstanceTables where
  instances : List InstanceRow
  checks : List Bytes
  meta : MetaTable
  instance_key : (instances.map (·.id)).Nodup
  check_key : checks.Nodup
  check_fk : ∀ id ∈ checks, id ∈ instances.map (·.id)
  meta_fk : ∀ r ∈ meta.rows, r.id ∈ instances.map (·.id)

/-- `instance_metadata` keeping the rows that satisfy `p`. -/
def MetaTable.filter (t : MetaTable) (p : MetaRow → Bool) : MetaTable :=
  ⟨t.rows.filter p, t.key_unique.sublist ((List.filter_sublist _).map _)⟩

namespace InstanceTables

/-- The ids of the rows of `instance`. -/
def ids (db : InstanceTables) : List Bytes := db.instances.map (·.id)

/-- A delete of the rows of `instance` that satisfy `p`; the rows of `health_check` and
`instance_metadata` whose `instance` row it deletes go with them (`ON DELETE CASCADE`). -/
def deleteWhere (db : InstanceTables) (p : InstanceRow → Bool) : InstanceTables where
  instances := db.instances.filter (!p ·)
  checks := db.checks.filter (· ∈ (db.instances.filter (!p ·)).map (·.id))
  meta := db.meta.filter (·.id ∈ (db.instances.filter (!p ·)).map (·.id))
  instance_key := db.instance_key.sublist ((List.filter_sublist _).map _)
  check_key := db.check_key.sublist (List.filter_sublist _)
  check_fk _ h := of_decide_eq_true (List.mem_filter.mp h).2
  meta_fk _ h := of_decide_eq_true (List.mem_filter.mp h).2

/-- `CleanInstance(instanceID)`'s `delete from instance where id = ? and flag = 1`. -/
def cleanInstance (db : InstanceTables) (instanceID : Bytes) : InstanceTables :=
  db.deleteWhere fun r => decide (r.id = instanceID) && r.deleted

/-- `addMainInstance`'s insert of a row `id`, whose `flag` takes its default, 0; `none` when
`id` has a row already: the insert fails. -/
def insertInstance (db : InstanceTables) (id : Bytes) : Option InstanceTables :=
  if h : id ∈ db.instances.map (·.id) then none
  else some
    { instances := db.instances ++ [⟨id, false⟩]
      checks := db.checks
      meta := db.meta
      check_key := db.check_key
      instance_key := by
        rw [List.map_append]
        exact db.instance_key.append (List.nodup_singleton _) (List.disjoint_singleton.mpr h)
      check_fk := fun x hx => by
        rw [List.map_append]
        exact List.mem_append_left _ (db.check_fk x hx)
      meta_fk := fun r hr => by
        rw [List.map_append]
        exact List.mem_append_left _ (db.meta_fk r hr) }

/-- `addInstanceCheck`'s insert of a row `id`; `none` when `id` has a row already or no
`instance` row: the insert fails. -/
def insertCheck (db : InstanceTables) (id : Bytes) : Option InstanceTables :=
  if h : id ∉ db.checks ∧ id ∈ db.instances.map (·.id) then some
    { db with
      checks := db.checks ++ [id]
      check_key := db.check_key.append (List.nodup_singleton _) (List.disjoint_singleton.mpr h.1)
      check_fk := fun x hx => (List.mem_append.mp hx).elim (db.check_fk x) fun hx => by
        rw [List.mem_singleton.mp hx]
        exact h.2 }
  else none

/-- The delete of the metadata rows of `id`. -/
def deleteMeta (db : InstanceTables) (id : Bytes) : InstanceTables :=
  { db with
    meta := db.meta.deleteID id
    meta_fk := fun r hr => db.meta_fk r (List.mem_filter.mp hr).1 }

/-- An insert of metadata rows; `none` when a row names an id without an `instance` row, or
repeats a primary key: the insert fails. -/
def insertMeta (db : InstanceTables) (rows : List MetaRow) : Option InstanceTables :=
  if hfk : ∀ r ∈ rows, r.id ∈ db.instances.map (·.id) then
    match h : db.meta.insertRows rows with
    | some t => some
      { db with
        meta := t
        meta_fk := fun r hr => by
          rw [MetaTable.rows_of_insertRows h] at hr
          exact (List.mem_append.mp hr).elim (db.meta_fk r) (hfk r) }
    | none => none
  else none

end InstanceTables

/-! ## The statements on `instance` and `health_check` -/

/-- Modelled from the statements' text: a statement of the instance writes on `instance` or
`health_check`. -/
inductive InstanceStatement where
  /-- `delete from instance where id = ? and flag = 1`. -/
  | clean (id : Bytes)
  /-- `addMainInstance`'s insert, whose first argument is the id. -/
  | insertMain (id : Bytes)
  /-- `addInstanceCheck`'s insert, whose first argument is the id. -/
  | insertCheck (id : Bytes)
  deriving DecidableEq, Repr

/-- Modelled from the statements' text: the statement by its text and the number of its
arguments, the first of which is the id. -/
def InstanceStatement.parse (st : Statement) : Option InstanceStatement :=
  match st.args with
  | [.string id] =>
    if st.str = ascii "delete from instance where id = ? and flag = 1" then some (.clean id)
    else none
  | .string id :: rest =>
    if st.str = addMainStr ∧ rest.length = 16 then some (.insertMain id)
    else if st.str = addCheckStr ∧ rest.length = 2 then some (.insertCheck id)
    else none
  | _ => none

namespace InstanceTables

/-- The tables after one statement; `none` when it fails, or is none of the statements on them
this file models. -/
def exec (db : InstanceTables) (st : Statement) : Option InstanceTables :=
  match MetaStatement.parse st with
  | some (.delete id) => some (db.deleteMeta id)
  | some (.insert rows) => db.insertMeta rows
  | none =>
    match InstanceStatement.parse st with
    | some (.clean id) => some (db.cleanInstance id)
    | some (.insertMain id) => db.insertInstance id
    | some (.insertCheck id) => db.insertCheck id
    | none => none

/-- The tables after statements sent one after another, `none` when one fails. -/
def execAll (db : InstanceTables) : List Statement → Option InstanceTables
  | [] => some db
  | st :: rest => (db.exec st).bind (·.execAll rest)

/-! ## The keys -/

theorem mem_ids {db : InstanceTables} {id : Bytes} :
    id ∈ db.ids ↔ ∃ r ∈ db.instances, r.id = id :=
  List.mem_map

/-- An id without an `instance` row has no health check. -/
theorem not_mem_checks {db : InstanceTables} {id : Bytes} (h : id ∉ db.ids) : id ∉ db.checks :=
  fun hc => h (db.check_fk id hc)

/-- An id without an `instance` row has no metadata rows. -/
theorem filter_meta_of_not_mem {db : InstanceTables} {id : Bytes} (h : id ∉ db.ids) :
    db.meta.rows.filter (·.id = id) = [] :=
  filter_key_of_not_mem _ fun r hr hid => h (hid ▸ db.meta_fk r hr)

/-- An instance row survives `CleanInstance` exactly when it is not the instance's deleted row;
the instance keeps a row exactly when its row has `flag` 0. -/
theorem mem_ids_cleanInstance (db : InstanceTables) (instanceID id : Bytes) :
    id ∈ (db.cleanInstance instanceID).ids ↔
      if id = instanceID then ⟨id, false⟩ ∈ db.instances else id ∈ db.ids := by
  simp only [ids, cleanInstance, deleteWhere, List.mem_map, List.mem_filter, Bool.not_and,
    Bool.or_eq_true, Bool.not_eq_true', decide_eq_false_iff_not]
  split_ifs with h
  · subst h
    constructor
    · rintro ⟨⟨i, d⟩, ⟨hr, hd⟩, rfl⟩
      rcases hd with hd | hd
      · exact absurd rfl hd
      · obtain rfl : d = false := hd
        exact hr
    · exact fun hr => ⟨_, ⟨hr, .inr rfl⟩, rfl⟩
  · exact ⟨fun ⟨r, ⟨hr, _⟩, hid⟩ => ⟨r, hr, hid⟩,
      fun ⟨r, hr, hid⟩ => ⟨r, ⟨hr, .inl (hid ▸ h)⟩, hid⟩⟩

/-- `CleanInstance` keeps the metadata rows of every id that keeps its `instance` row, and
removes the others. -/
theorem filter_meta_cleanInstance (db : InstanceTables) (instanceID id : Bytes) :
    (db.cleanInstance instanceID).meta.rows.filter (·.id = id) =
      if id ∈ (db.cleanInstance instanceID).ids then db.meta.rows.filter (·.id = id)
      else [] := by
  split_ifs with h
  · have hrows : (db.cleanInstance instanceID).meta.rows =
        db.meta.rows.filter (·.id ∈ (db.cleanInstance instanceID).ids) := rfl
    rw [hrows, List.filter_filter]
    refine List.filter_congr fun r _ => ?_
    by_cases hr : r.id = id
    · simp [hr, h]
    · simp [hr]
  · exact filter_meta_of_not_mem h

/-! ## What each statement does -/

theorem execAll_append (db : InstanceTables) (l₁ l₂ : List Statement) :
    db.execAll (l₁ ++ l₂) = (db.execAll l₁).bind (·.execAll l₂) := by
  induction l₁ generalizing db with
  | nil => rfl
  | cons st l₁ ih =>
    simp only [List.cons_append, execAll]
    cases db.exec st <;> simp [ih]

theorem exec_cleanInstance (db : InstanceTables) (instanceID : Bytes) :
    db.exec (cleanInstanceStatement instanceID) = some (db.cleanInstance instanceID) := by
  have hne : ascii "delete from instance where id = ? and flag = 1" ≠
      ascii "delete from instance_metadata where id = ?" := by decide
  simp [exec, cleanInstanceStatement, MetaStatement.parse, InstanceStatement.parse, hne]

theorem exec_addMainInstance (db : InstanceTables) (ins : Instance) :
    db.exec (addMainInstance ins) = db.insertInstance ins.id := by
  simp [exec, addMainInstance, mainArgs, MetaStatement.parse, metaRowsOfArgs,
    InstanceStatement.parse]

theorem exec_addInstanceCheck (db : InstanceTables) (ins : Instance) (check : HealthCheck) :
    db.exec ⟨addCheckStr, checkArgs ins check⟩ = db.insertCheck ins.id := by
  have hne : addCheckStr ≠ addMainStr := by decide
  simp [exec, checkArgs, MetaStatement.parse, metaRowsOfArgs, InstanceStatement.parse, hne]

theorem exec_deleteInstanceMeta (db : InstanceTables) (id : Bytes) :
    db.exec ⟨ascii "delete from instance_metadata where id = ?", [.string id]⟩ =
      some (db.deleteMeta id) := by
  simp [exec, MetaStatement.parse]

/-- **The step lemma of `addInstanceMeta`**, on the three tables. -/
theorem execAll_addInstanceMeta (db : InstanceTables) (id : Bytes)
    (meta : Option (List (Bytes × Bytes))) :
    db.execAll (addInstanceMeta id meta).toList =
      if metaRowsOf id meta = [] then some db else db.insertMeta (metaRowsOf id meta) := by
  have h := parse_addInstanceMeta id meta
  rcases hst : addInstanceMeta id meta with _ | st <;> rw [hst] at h <;> split_ifs at h ⊢
  · rfl
  · cases h
  · cases h
  · simp [execAll, exec, Option.some.inj h]

theorem insertInstance_eq (db : InstanceTables) (id : Bytes) :
    (db.insertInstance id).isSome ↔ id ∉ db.ids := by
  unfold insertInstance ids
  split_ifs with h <;> simp [h]

theorem of_insertInstance {db db' : InstanceTables} {id : Bytes}
    (h : db.insertInstance id = some db') :
    db'.ids = db.ids ++ [id] ∧ db'.checks = db.checks ∧ db'.meta = db.meta := by
  unfold insertInstance at h
  split_ifs at h
  cases h
  exact ⟨List.map_append _ _ _, rfl, rfl⟩

theorem insertCheck_fresh {db : InstanceTables} {id : Bytes} (hc : id ∉ db.checks)
    (hi : id ∈ db.ids) : ∃ db', db.insertCheck id = some db' ∧ db'.ids = db.ids ∧
      db'.meta = db.meta := by
  unfold insertCheck
  rw [dif_pos ⟨hc, hi⟩]
  exact ⟨_, rfl, rfl, rfl⟩

/-- The insert of metadata rows with distinct keys succeeds exactly when each names an id with
an `instance` row and none repeats the key of a row of the table. -/
theorem insertMeta_isSome_iff (db : InstanceTables) {rows : List MetaRow}
    (hrows : (rows.map fun r => (r.id, r.mkey)).Nodup) :
    (db.insertMeta rows).isSome ↔ (∀ r ∈ rows, r.id ∈ db.ids) ∧
      ∀ r ∈ db.meta.rows, (r.id, r.mkey) ∉ rows.map fun r => (r.id, r.mkey) := by
  rw [← db.meta.insertRows_isSome_iff hrows]
  unfold insertMeta ids
  split_ifs with hfk
  · split <;> simp_all
  · simp only [Option.isSome_none, Bool.false_eq_true, false_iff, not_and]
    exact fun h => absurd h hfk

theorem of_insertMeta {db db' : InstanceTables} {rows : List MetaRow}
    (h : db.insertMeta rows = some db') :
    db'.meta.rows = db.meta.rows ++ rows ∧ db'.ids = db.ids ∧ db'.checks = db.checks := by
  unfold insertMeta at h
  split_ifs at h
  split at h
  · cases h
    exact ⟨MetaTable.rows_of_insertRows ‹_›, rfl, rfl⟩
  · cases h

/-- An insert of the rows of one instance with a row, with distinct keys, when the table holds
none of its rows: it adds them. -/
theorem insertMeta_fresh {db : InstanceTables} {id : Bytes}
    {meta : Option (List (Bytes × Bytes))} (hkeys : ((meta.getD []).map Prod.fst).Nodup)
    (hid : id ∈ db.ids) (hnone : db.meta.rows.filter (·.id = id) = []) :
    ∃ db', db.insertMeta (metaRowsOf id meta) = some db' := by
  refine Option.isSome_iff_exists.mp ((db.insertMeta_isSome_iff
    (metaRowsOf_keys_nodup id hkeys)).mpr ⟨fun r hr => mem_metaRowsOf hr ▸ hid, ?_⟩)
  intro r hr hmem
  obtain ⟨r', hr', he⟩ := List.mem_map.mp hmem
  have hrid : r.id = id := (Prod.mk.inj he).1.symm.trans (mem_metaRowsOf hr')
  exact List.filter_eq_nil_iff.mp hnone r hr (by simpa using hrid)

/-- `addInstanceMeta`'s insert on tables where the instance has a row and no metadata: it never
fails, and appends the rows of the map. -/
theorem execAll_addInstanceMeta_fresh {db : InstanceTables} {id : Bytes}
    {meta : Option (List (Bytes × Bytes))} (hkeys : ((meta.getD []).map Prod.fst).Nodup)
    (hid : id ∈ db.ids) (hnone : db.meta.rows.filter (·.id = id) = []) :
    ∃ db', db.execAll (addInstanceMeta id meta).toList = some db' ∧
      db'.meta.rows = db.meta.rows ++ metaRowsOf id meta ∧ db'.ids = db.ids ∧
      db'.checks = db.checks := by
  rw [execAll_addInstanceMeta]
  split_ifs with hnil
  · exact ⟨db, rfl, by rw [hnil, List.append_nil], rfl, rfl⟩
  · obtain ⟨db', h⟩ := insertMeta_fresh hkeys hid hnone
    exact ⟨db', h, of_insertMeta h⟩

/-- `addInstanceMeta`'s insert, for a map with distinct keys, succeeds exactly when the map is
empty, or the instance has a row and no metadata row under one of the map's keys. -/
theorem execAll_addInstanceMeta_isSome_iff (db : InstanceTables) (id : Bytes)
    {meta : Option (List (Bytes × Bytes))} (hkeys : ((meta.getD []).map Prod.fst).Nodup) :
    (db.execAll (addInstanceMeta id meta).toList).isSome ↔ meta.getD [] = [] ∨
      id ∈ db.ids ∧
        ∀ r ∈ db.meta.rows, r.id = id → r.mkey ∉ (meta.getD []).map Prod.fst := by
  rw [execAll_addInstanceMeta]
  split_ifs with h
  · have hnil : meta.getD [] = [] := by simpa [metaRowsOf] using h
    simp [hnil]
  · have hne : meta.getD [] ≠ [] := by simpa [metaRowsOf] using h
    rw [db.insertMeta_isSome_iff (metaRowsOf_keys_nodup _ hkeys), metaRowsOf_keys]
    simp only [hne, false_or]
    refine and_congr ⟨fun hall => ?_, fun hid r hr => mem_metaRowsOf hr ▸ hid⟩
      (forall₂_congr fun r _ => ?_)
    · obtain ⟨r, hr⟩ := List.exists_mem_of_ne_nil _ h
      exact mem_metaRowsOf hr ▸ hall r hr
    · simp only [List.mem_map, Prod.mk.injEq, not_exists, not_and]
      exact ⟨fun hall hid kv hkv => hall kv.1 ⟨kv, hkv, rfl⟩ hid.symm,
        fun hall _ ⟨kv, hkv, he⟩ hid => he ▸ hall hid.symm kv hkv⟩

/-- The statements of `addInstance` fail at the main insert on tables that hold a row of the
instance. -/
theorem execAll_addInstanceStatements_live {db : InstanceTables} {ins : Instance}
    (hid : ins.id ∈ db.ids) : db.execAll (addInstanceStatements ins) = none := by
  have h : db.insertInstance ins.id = none := dif_pos hid
  simp [addInstanceStatements, execAll, exec_addMainInstance, h]

/-- **The statements of `addInstance` on tables without a row of the instance** never fail, and
leave the instance the rows of its map. -/
theorem execAll_addInstanceStatements_fresh {db : InstanceTables} {ins : Instance}
    (hkeys : ((ins.metadata.getD []).map Prod.fst).Nodup) (hid : ins.id ∉ db.ids) :
    ∃ db', db.execAll (addInstanceStatements ins) = some db' ∧
      db'.meta.rows.filter (·.id = ins.id) = metaRowsOf ins.id ins.metadata := by
  obtain ⟨db₁, h₁⟩ := Option.isSome_iff_exists.mp ((db.insertInstance_eq ins.id).mpr hid)
  obtain ⟨hids₁, hchecks₁, hmeta₁⟩ := of_insertInstance h₁
  have hin₁ : ins.id ∈ db₁.ids := by
    rw [hids₁]
    exact List.mem_append_right _ (List.mem_singleton_self _)
  obtain ⟨db₂, h₂, hids₂, hmeta₂⟩ : ∃ db₂,
      db₁.execAll (addInstanceCheck ins).toList = some db₂ ∧ db₂.ids = db₁.ids ∧
        db₂.meta = db₁.meta := by
    cases hc : ins.healthCheck with
    | none => exact ⟨db₁, by simp [addInstanceCheck, hc, execAll], rfl, rfl⟩
    | some check =>
      have hfresh : ins.id ∉ db₁.checks := by
        rw [hchecks₁]
        exact not_mem_checks hid
      obtain ⟨db₂, h, hids, hmeta⟩ := insertCheck_fresh hfresh hin₁
      exact ⟨db₂, by simp [addInstanceCheck, hc, execAll, exec_addInstanceCheck, h], hids,
        hmeta⟩
  have hnone : db₂.meta.rows.filter (·.id = ins.id) = [] := by
    rw [hmeta₂, hmeta₁]
    exact filter_meta_of_not_mem hid
  obtain ⟨db₃, h₃, hrows₃, -⟩ := execAll_addInstanceMeta_fresh hkeys (hids₂ ▸ hin₁) hnone
  refine ⟨db₃, ?_, ?_⟩
  · rw [addInstanceStatements, execAll_append, execAll_append]
    simp only [execAll, exec_addMainInstance, h₁, Option.some_bind, h₂, h₃]
  · rw [hrows₃, List.filter_append, hnone, metaRowsOf_filter, if_pos rfl, List.nil_append]

/-- **The statements of `updateInstanceMeta` for a map, on tables with a row of the instance**:
they never fail, change neither `instance` nor `health_check`, and leave the instance the rows of
its map and every other id its own. -/
theorem execAll_updateInstanceMeta_live {db : InstanceTables} {ins : Instance}
    {m : List (Bytes × Bytes)} (hmeta : ins.metadata = some m)
    (hkeys : ((ins.metadata.getD []).map Prod.fst).Nodup) (hid : ins.id ∈ db.ids) :
    ∃ db', db.execAll (updateInstanceMeta ins) = some db' ∧ db'.ids = db.ids ∧
      db'.checks = db.checks ∧ ∀ id, db'.meta.rows.filter (·.id = id) =
        if id = ins.id then metaRowsOf ins.id ins.metadata
        else db.meta.rows.filter (·.id = id) := by
  have hdel := db.meta.deleteID_filter ins.id
  obtain ⟨db', h, hrows, hids, hchecks⟩ := execAll_addInstanceMeta_fresh hkeys
    (show ins.id ∈ (db.deleteMeta ins.id).ids from hid) ((hdel ins.id).trans (if_pos rfl))
  refine ⟨db', ?_, hids, hchecks, fun id => ?_⟩
  · rw [hmeta] at h
    simp only [updateInstanceMeta, hmeta, execAll, exec_deleteInstanceMeta, Option.some_bind, h]
  · rw [hrows, List.filter_append, metaRowsOf_filter]
    show (db.meta.deleteID ins.id).rows.filter _ ++ _ = _
    rw [hdel]
    by_cases h : id = ins.id
    · simp [h]
    · simp [h, Ne.symm h]

/-- The statements of `updateInstanceMeta` on tables without a row of the instance fail exactly
when the map has entries, whose insert the foreign key refuses. -/
theorem execAll_updateInstanceMeta_isSome_of_not_mem {db : InstanceTables} {ins : Instance}
    (hid : ins.id ∉ db.ids) :
    (db.execAll (updateInstanceMeta ins)).isSome ↔ ins.metadata.getD [] = [] := by
  unfold updateInstanceMeta
  cases hmeta : ins.metadata with
  | none => simp [execAll]
  | some m =>
    simp only [execAll, exec_deleteInstanceMeta, Option.some_bind, execAll_addInstanceMeta,
      Option.getD_some]
    split_ifs with hnil
    · simpa [metaRowsOf] using hnil
    · obtain ⟨r, hr⟩ := List.exists_mem_of_ne_nil _ hnil
      have hnone : (db.deleteMeta ins.id).insertMeta (metaRowsOf ins.id (some m)) = none :=
        dif_neg fun hfk => hid (mem_metaRowsOf hr ▸ hfk r hr)
      rw [hnone]
      simpa [metaRowsOf] using hnil

end InstanceTables

/-- `i1` with the two metadata rows of `twoEntries`, live or deleted, with a health check. -/
def tablesOfI1 (deleted : Bool) : InstanceTables :=
  ⟨[⟨ascii "i1", deleted⟩], [ascii "i1"], twoEntries, by cases deleted <;> decide, by decide,
    by cases deleted <;> decide, by cases deleted <;> decide⟩

/-! ## The writes -/

/-- **`updateInstanceMeta` does what its comment says, for an instance with a row.**  For a map
with distinct keys, as a Go map has: when the instance has a row in `instance`, the statements
of `updateInstanceMeta` never fail; they change no other table and no other instance's
metadata; the instance's becomes `metadataAfterUpdate`'s, and `GetInstanceMeta` reads it back,
a nil map as an empty one, in every order in which the database returns the rows.  When the
instance has no row, they fail exactly when the map has entries, whose insert the foreign key
refuses. -/
theorem updateInstanceMeta_replaces_metadata {E : Type} (db : InstanceTables) (ins : Instance)
    (hkeys : ((ins.metadata.getD []).map Prod.fst).Nodup) :
    (ins.id ∈ db.ids →
      ∃ db', db.execAll (updateInstanceMeta ins) = some db' ∧
        db'.ids = db.ids ∧ db'.checks = db.checks ∧
        (∀ id, id ≠ ins.id → db'.meta.metadataOf id = db.meta.metadataOf id) ∧
        db'.meta.metadataOf ins.id = metadataAfterUpdate ins.metadata (db.meta.metadataOf ins.id) ∧
        ∀ (answerMeta : Bytes → Except E (Rows E (Bytes × Bytes))) (lm : List (Bytes × Bytes)),
          answerMeta ins.id = .ok (Rows.ofList lm) →
          lm.Perm ((db'.meta.rows.filter (·.id = ins.id)).map fun r => (r.mkey, r.mvalue)) →
          GetInstanceMeta answerMeta ins.id =
            .ok ((metadataAfterUpdate ins.metadata (db.meta.metadataOf ins.id)).getD [])) ∧
    (ins.id ∉ db.ids →
      ((db.execAll (updateInstanceMeta ins)).isSome ↔ ins.metadata.getD [] = [])) := by
  refine ⟨fun hid => ?_, InstanceTables.execAll_updateInstanceMeta_isSome_of_not_mem⟩
  obtain ⟨db', hexec, hids, hchecks, hother, hself⟩ : ∃ db',
      db.execAll (updateInstanceMeta ins) = some db' ∧ db'.ids = db.ids ∧
      db'.checks = db.checks ∧
      (∀ id, id ≠ ins.id → db'.meta.metadataOf id = db.meta.metadataOf id) ∧
      db'.meta.metadataOf ins.id =
        metadataAfterUpdate ins.metadata (db.meta.metadataOf ins.id) := by
    cases hmeta : ins.metadata with
    | none => exact ⟨db, by simp [updateInstanceMeta, hmeta, InstanceTables.execAll], rfl, rfl,
        fun _ _ => rfl, rfl⟩
    | some m =>
      obtain ⟨db', hexec, hids, hchecks, hfilter⟩ :=
        InstanceTables.execAll_updateInstanceMeta_live hmeta hkeys hid
      refine ⟨db', hexec, hids, hchecks, fun id hne => ?_, ?_⟩
      · exact MetaTable.metadataOf_congr (by rw [hfilter, if_neg hne])
      · rw [metadataAfterUpdate, ← hmeta]
        exact MetaTable.metadataOf_eq_stored (by rw [hfilter, if_pos rfl])
  exact ⟨db', hexec, hids, hchecks, hother, hself, fun answerMeta lm hM hlm => by
    rw [GetInstanceMeta_table db'.meta answerMeta ins.id hM hlm, hself]⟩

/-- Replacing the map `k1 = v, k2 = w` of the live `i1` by `k1 = u`. -/
theorem updateInstanceMeta_replaces_metadata_i1 :
    let ins : Instance := ⟨ascii "i1", [], [], [], 0, [], [], false, false, 0, false, [], [], [], [],
      0, [], none, some [(ascii "k1", ascii "u")]⟩
    ((ins.metadata.getD []).map Prod.fst).Nodup ∧
    (ins.id ∈ (tablesOfI1 false).ids →
      ∃ db', (tablesOfI1 false).execAll (updateInstanceMeta ins) = some db' ∧
        db'.ids = (tablesOfI1 false).ids ∧ db'.checks = (tablesOfI1 false).checks ∧
        (∀ id, id ≠ ins.id → db'.meta.metadataOf id = (tablesOfI1 false).meta.metadataOf id) ∧
        db'.meta.metadataOf ins.id =
          metadataAfterUpdate ins.metadata ((tablesOfI1 false).meta.metadataOf ins.id) ∧
        ∀ (answerMeta : Bytes → Except String (Rows String (Bytes × Bytes)))
          (lm : List (Bytes × Bytes)),
          answerMeta ins.id = .ok (Rows.ofList lm) →
          lm.Perm ((db'.meta.rows.filter (·.id = ins.id)).map fun r => (r.mkey, r.mvalue)) →
          GetInstanceMeta answerMeta ins.id = .ok ((metadataAfterUpdate ins.metadata
            ((tablesOfI1 false).meta.metadataOf ins.id)).getD [])) ∧
    (ins.id ∉ (tablesOfI1 false).ids →
      (((tablesOfI1 false).execAll (updateInstanceMeta ins)).isSome ↔ ins.metadata.getD [] = [])) :=
  ⟨by decide, updateInstanceMeta_replaces_metadata (tablesOfI1 false) _ (by decide)⟩

/-- **`AddInstance` relies on the cascade.**  For an instance whose map has distinct keys:
`addInstanceMeta`'s insert fails exactly when the map has entries and either the instance has no
row in `instance` or `instance_metadata` holds a row of it under one of the map's keys.
`CleanInstance`'s delete never fails; the instance keeps a row after it exactly when its row has
`flag` 0, and without a row it has neither health check nor metadata; every other id keeps its
row and its metadata.  After it, the statements of `addInstance` succeed exactly when the
instance had no row with `flag` 0, and then leave it its new map as metadata. -/
theorem addInstanceMeta_succeeds_iff (db : InstanceTables) (ins : Instance)
    (hkeys : ((ins.metadata.getD []).map Prod.fst).Nodup) :
    ((db.execAll (addInstanceMeta ins.id ins.metadata).toList).isSome ↔
      ins.metadata.getD [] = [] ∨ ins.id ∈ db.ids ∧
        ∀ r ∈ db.meta.rows, r.id = ins.id → r.mkey ∉ (ins.metadata.getD []).map Prod.fst) ∧
    db.exec (cleanInstanceStatement ins.id) = some (db.cleanInstance ins.id) ∧
    (ins.id ∈ (db.cleanInstance ins.id).ids ↔ ⟨ins.id, false⟩ ∈ db.instances) ∧
    (ins.id ∉ (db.cleanInstance ins.id).ids → ins.id ∉ (db.cleanInstance ins.id).checks ∧
      (db.cleanInstance ins.id).meta.metadataOf ins.id = none) ∧
    (∀ id, id ≠ ins.id → (id ∈ (db.cleanInstance ins.id).ids ↔ id ∈ db.ids) ∧
      (db.cleanInstance ins.id).meta.metadataOf id = db.meta.metadataOf id) ∧
    (((db.cleanInstance ins.id).execAll (addInstanceStatements ins)).isSome ↔
      ⟨ins.id, false⟩ ∉ db.instances) ∧
    ∀ db', (db.cleanInstance ins.id).execAll (addInstanceStatements ins) = some db' →
      db'.meta.metadataOf ins.id = storedMetadata ins.metadata := by
  have hclean := db.mem_ids_cleanInstance ins.id
  refine ⟨db.execAll_addInstanceMeta_isSome_iff ins.id hkeys, db.exec_cleanInstance ins.id,
    by simpa using hclean ins.id, fun h => ?_, fun id hne => ?_, ?_, fun db' h => ?_⟩
  · refine ⟨InstanceTables.not_mem_checks h, ?_⟩
    rw [MetaTable.metadataOf_of_filter (InstanceTables.filter_meta_of_not_mem h), if_pos rfl]
  · have hids : id ∈ (db.cleanInstance ins.id).ids ↔ id ∈ db.ids := by
      simpa [hne] using hclean id
    refine ⟨hids, MetaTable.metadataOf_congr ?_⟩
    rw [InstanceTables.filter_meta_cleanInstance]
    split_ifs with hin
    · rfl
    · exact (InstanceTables.filter_meta_of_not_mem (mt hids.mpr hin)).symm
  · by_cases hin : ins.id ∈ (db.cleanInstance ins.id).ids
    · rw [InstanceTables.execAll_addInstanceStatements_live hin]
      simpa using hclean ins.id |>.mp hin
    · obtain ⟨db', h, -⟩ := InstanceTables.execAll_addInstanceStatements_fresh hkeys hin
      rw [h]
      simpa using mt (hclean ins.id).mpr hin
  · by_cases hin : ins.id ∈ (db.cleanInstance ins.id).ids
    · rw [InstanceTables.execAll_addInstanceStatements_live hin] at h
      cases h
    · obtain ⟨db'', h', hrows⟩ := InstanceTables.execAll_addInstanceStatements_fresh hkeys hin
      rw [h', Option.some.injEq] at h
      subst h
      exact MetaTable.metadataOf_eq_stored hrows

/-- `i1`, deleted, with its health check and the rows `k1 = v, k2 = w`, added again with
`k1 = u`. -/
theorem addInstanceMeta_succeeds_iff_deleted_i1 :
    let ins : Instance := ⟨ascii "i1", [], [], [], 0, [], [], false, false, 0, false, [], [], [], [],
      0, [], some ⟨1, 5⟩, some [(ascii "k1", ascii "u")]⟩
    ((ins.metadata.getD []).map Prod.fst).Nodup ∧
    (((tablesOfI1 true).execAll (addInstanceMeta ins.id ins.metadata).toList).isSome ↔
      ins.metadata.getD [] = [] ∨ ins.id ∈ (tablesOfI1 true).ids ∧
        ∀ r ∈ (tablesOfI1 true).meta.rows, r.id = ins.id →
          r.mkey ∉ (ins.metadata.getD []).map Prod.fst) ∧
    (tablesOfI1 true).exec (cleanInstanceStatement ins.id) =
      some ((tablesOfI1 true).cleanInstance ins.id) ∧
    (ins.id ∈ ((tablesOfI1 true).cleanInstance ins.id).ids ↔
      ⟨ins.id, false⟩ ∈ (tablesOfI1 true).instances) ∧
    (ins.id ∉ ((tablesOfI1 true).cleanInstance ins.id).ids →
      ins.id ∉ ((tablesOfI1 true).cleanInstance ins.id).checks ∧
      ((tablesOfI1 true).cleanInstance ins.id).meta.metadataOf ins.id = none) ∧
    (∀ id, id ≠ ins.id → (id ∈ ((tablesOfI1 true).cleanInstance ins.id).ids ↔
        id ∈ (tablesOfI1 true).ids) ∧
      ((tablesOfI1 true).cleanInstance ins.id).meta.metadataOf id =
        (tablesOfI1 true).meta.metadataOf id) ∧
    ((((tablesOfI1 true).cleanInstance ins.id).execAll (addInstanceStatements ins)).isSome ↔
      ⟨ins.id, false⟩ ∉ (tablesOfI1 true).instances) ∧
    ∀ db', ((tablesOfI1 true).cleanInstance ins.id).execAll (addInstanceStatements ins) = some db' →
      db'.meta.metadataOf ins.id = storedMetadata ins.metadata :=
  ⟨by decide, addInstanceMeta_succeeds_iff (tablesOfI1 true) _ (by decide)⟩

end Polaris

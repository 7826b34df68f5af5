import Polaris.Store.NamespaceStore
import Polaris.SqlDb.Retry

/-!
# `ListNamespaces` and `GetMoreNamespaces`: callbacks that assert a field's type

Both load the namespace records with `LoadValuesByFilter`, through a callback that reads one
field and asserts its Go type: `ownerValue.(string)` in `ListNamespaces`,
`mTimeValue.(time.Time)` in `GetMoreNamespaces`.  The assertion panics on a value of another
type, and on a record without the field as well: a missing field reaches the callback as a nil
`map[string]string`, so the callback's `ok` test lets it through.  A panic in the callback ends
the whole load.

The handler's model takes callbacks that cannot panic.  `loadValuesByFilterOrPanic` is the same
loop with a callback that may; the handler's model is its instance for a callback that never
panics (`loadValuesByFilter_eq_orPanic`).

Principal results:

* `modifyTimesWellFormed_run` — the namespace store's requests keep a time under every
  namespace record's `ModifyTime`, as `namespacesWellFormed_run` keeps a string under `Owner`;
* `namespace_filters_never_panic` — on every store the requests build, `ListNamespaces` for a
  non-empty owner and `GetMoreNamespaces` succeed, and return, each once and in any order,
  exactly the namespaces of `LoadValuesAll` in whose owner the one asked for occurs, and those
  modified after the time asked for;
* `list_namespaces_fails_without_owner` — a namespace record without an `Owner` makes every
  `ListNamespaces` fail, where the callback's `ok` test meant to skip it.
-/

set_option autoImplicit false

namespace Polaris

open Entries

/-! ## A filter callback that may panic -/

section OrPanic

variable {Rec Obj : Type} (c : Codec Rec Obj)

/-- `matchObject`, with a callback that may panic. -/
def matchObjectOrPanic (bucket : Bucket) (fields : List Bytes) (typObject : Proto)
    (filter : Option (FieldMap → Except Err Bool)) : Except Err Bool :=
  if fields = [] then .ok true
  else match filter with
    | none => .ok true
    | some filter => do
      let fieldValues ← fieldValuesOf c bucket typObject fields []
      filter fieldValues

/-- `loadValuesByFilter`, with a callback that may panic: a panic ends the load. -/
def loadValuesByFilterOrPanic (db : Bucket) (typ : Bytes) (fields : List Bytes)
    (typObject : Proto) (filter : Option (FieldMap → Except Err Bool)) :
    Except Err (Entries Obj) :=
  match db.bucket typ with
  | none => .ok []
  | some typeBucket =>
    let keys := getKeys typeBucket
    if keys = [] then .ok []
    else forEachBucket typeBucket.bucket (fun key bucket values => do
      let matchResult ← matchObjectOrPanic c bucket fields typObject filter
      if !matchResult then pure values
      else do
        let targetObj ← c.deserializeObject bucket typObject
        pure (values.insert key targetObj)) keys []

/-- `LoadValuesByFilter`, with a callback that may panic. -/
def LoadValuesByFilterOrPanic (typ : Bytes) (fields : List Bytes) (typObject : Proto)
    (filter : Option (FieldMap → Except Err Bool)) (db : Bucket) : Except Err (Entries Obj) :=
  loadValuesByFilterOrPanic c db typ fields typObject filter

/-- The handler's model is the loop with a callback that never panics. -/
theorem loadValuesByFilter_eq_orPanic (db : Bucket) (typ : Bytes) (fields : List Bytes)
    (typObject : Proto) (filter : Option (FieldMap → Bool)) :
    loadValuesByFilter c db typ fields typObject filter =
      loadValuesByFilterOrPanic c db typ fields typObject (filter.map fun p m => .ok (p m)) := by
  have hm : ∀ b, matchObject c b fields typObject filter =
      matchObjectOrPanic c b fields typObject (filter.map fun p m => .ok (p m)) := by
    intro b
    unfold matchObject matchObjectOrPanic
    split_ifs
    · rfl
    · cases filter with
      | none => rfl
      | some p => cases fieldValuesOf c b typObject fields [] <;> rfl
  unfold loadValuesByFilter loadValuesByFilterOrPanic
  cases db.bucket typ with
  | none => rfl
  | some typeBucket => simp only [hm]

/-- What `loadValuesByFilterOrPanic` keeps of a record bucket. -/
def filterRecordOrPanic (fields : List Bytes) (typObject : Proto)
    (filter : Option (FieldMap → Except Err Bool)) (bucket : Bucket) : Except Err (Option Obj) := do
  let matchResult ← matchObjectOrPanic c bucket fields typObject filter
  if !matchResult then pure none
  else (c.deserializeObject bucket typObject).map some

theorem loadValuesByFilterOrPanic_eq (db : Bucket) (typ : Bytes) (fields : List Bytes)
    (typObject : Proto) (filter : Option (FieldMap → Except Err Bool)) :
    loadValuesByFilterOrPanic c db typ fields typObject filter = match db.bucket typ with
      | none => .ok []
      | some typeBucket => forEachBucket typeBucket.bucket
          (keepBody (filterRecordOrPanic c fields typObject filter)) (getKeys typeBucket) [] := by
  unfold loadValuesByFilterOrPanic keepBody filterRecordOrPanic
  rcases db.bucket typ with _ | typeBucket
  · rfl
  · dsimp only
    split_ifs with h
    · rw [h]; rfl
    · congr; funext key bucket values
      rcases matchObjectOrPanic c bucket fields typObject filter with _ | (_ | _)
      · rfl
      · rfl
      · cases c.deserializeObject bucket typObject <;> rfl

end OrPanic

/-! ## Every namespace record holds a time under `ModifyTime` -/

/-- Field `f` of a record bucket holds a time. -/
def TimeAt (rb : Bucket) (f : Bytes) : Prop :=
  ∃ t, rb.lookup f = some (.value (specCodec.encodeTimeBuffer t))

/-- Every record of the type bucket `tblNameNamespace` holds a time under `ModifyTime`. -/
def ModifyTimesWellFormed (root : Bucket) : Prop :=
  ∀ name rb, entryAt root tblNameNamespace name = some (.bucket rb) →
    TimeAt rb (ascii "ModifyTime")

/-- What an update must write to keep a time under `ModifyTime`: each field once, and a time
if it writes `ModifyTime`. -/
def KeepsModifyTimeField (properties : List (Bytes × GoValue)) : Prop :=
  (properties.map Prod.fst).Nodup ∧
    ∀ p ∈ properties, p.1 = ascii "ModifyTime" → ∃ t, p.2 = .time t

/-- The calls that keep `ModifyTimesWellFormed`: a save into `tblNameNamespace` is of a
namespace record, and an update there is a `KeepsModifyTimeField`. -/
def KeepsModifyTime : Op SpecRecord → Prop
  | .save typ _ value => typ = tblNameNamespace → ∃ ns : NamespaceRecord, value = ns.toSpec
  | .update typ _ properties => typ = tblNameNamespace → KeepsModifyTimeField properties
  | .delete _ _ => True

theorem modifyTimesWellFormed_empty : ModifyTimesWellFormed DB.empty.root := by
  intro name rb h
  simp [DB.empty, entryAt, Bucket.bucket] at h

theorem timeAt_fresh {ns : NamespaceRecord} {rb : Bucket}
    (h : freshRecord specCodec ns.toSpec = .ok rb) : TimeAt rb (ascii "ModifyTime") := by
  rw [freshRecord_namespaceRecord, liftBolt_eq_ok] at h
  exact ⟨ns.modifyTime, Bucket.lookup_putAll_of_mem h
    (by simp only [List.map_cons, List.map_nil]; decide)
    (.tail _ (.tail _ (.tail _ (.tail _ (.tail _ (.tail _ (.head _)))))))⟩

theorem updateProperty_time {b b₁ : Bucket} {k : Bytes} {t : Time}
    (h : updateProperty specCodec b k (.time t) = .ok b₁) :
    b₁.lookup k = some (.value (specCodec.encodeTimeBuffer t)) := by
  obtain ⟨-, rfl⟩ := Bucket.put_eq_ok.mp (liftBolt_eq_ok.mp h)
  exact lookup_insert_self _ _ _

theorem timeAt_update {properties : List (Bytes × GoValue)}
    (hp : KeepsModifyTimeField properties) {b b' : Bucket}
    (h : updateFields specCodec properties b = .ok b') (hb : TimeAt b (ascii "ModifyTime")) :
    TimeAt b' (ascii "ModifyTime") := by
  obtain ⟨hframe, heach⟩ := updateFields_ok specCodec hp.1 h
  by_cases hw : ∃ p ∈ properties, p.1 = ascii "ModifyTime"
  · obtain ⟨⟨f, v⟩, hpm, rfl⟩ := hw
    obtain ⟨t, rfl⟩ := hp.2 _ hpm rfl
    obtain ⟨b₁, h₁, hl⟩ := heach _ hpm
    exact ⟨t, hl.trans (updateProperty_time h₁)⟩
  · push_neg at hw
    rw [TimeAt, hframe _ hw]
    exact hb

theorem timeAt_newEntry {op : Op SpecRecord} (hop : KeepsModifyTime op) {name : Bytes}
    (hn : op.Names tblNameNamespace name) {e : Option Node}
    (he : ∀ rb, e = some (.bucket rb) → TimeAt rb (ascii "ModifyTime")) {rb : Bucket}
    (h : op.newEntry specCodec e = some (.bucket rb)) : TimeAt rb (ascii "ModifyTime") := by
  cases op with
  | save typ key value =>
    rcases Op.newEntry_save_cases specCodec typ key value e with he' | ⟨rb', hf, he'⟩ <;>
      rw [he'] at h
    · exact he rb h
    · obtain ⟨ns, rfl⟩ := hop hn.1.symm
      cases h
      exact timeAt_fresh hf
  | update typ key properties =>
    rcases Op.newEntry_update_cases specCodec typ key properties e with
      he' | ⟨b, b', rfl, hu, he'⟩ <;> rw [he'] at h
    · exact he rb h
    · cases h
      exact timeAt_update (hop hn.1.symm) hu (he b rfl)
  | delete typ keys =>
    rcases Op.newEntry_delete_cases specCodec typ keys e with he' | he' <;> rw [he'] at h
    · exact he rb h
    · cases h

/-- **The step lemma**: a committed call that keeps `ModifyTime` keeps the invariant. -/
theorem modifyTimesWellFormed_step {s : DB} (hs : ModifyTimesWellFormed s.root)
    {op : Op SpecRecord} (hop : KeepsModifyTime op) :
    ModifyTimesWellFormed (s.step specCodec op).root := by
  intro name rb h
  rw [entryAt_step] at h
  split_ifs at h with hn
  · exact timeAt_newEntry hop hn (hs name) h
  · exact hs name rb h

section Requests

variable (visit : Entries GoValue → Entries GoValue)

/-- An update built from a map of properties writes a time to `ModifyTime`, whatever order
`range` visits the map in, when the map holds one there. -/
theorem keepsModifyTimeField_range (hvisit : ∀ m, (visit m).Perm m) {m : Entries GoValue}
    (hm : m.Ordered) {now : Time} (ht : lookup (ascii "ModifyTime") m = some (.time now)) :
    KeepsModifyTimeField (rangeProperties visit m) := by
  have hkeys : (rangeProperties visit m).map Prod.fst = (visit m).keys := by
    simp [rangeProperties, List.keys, Function.comp_def]
  refine ⟨hkeys ▸ (List.perm_nodupKeys (hvisit m)).mpr hm.nodupKeys, fun p hp hf => ?_⟩
  have := lookup_of_mem_rangeProperties visit hvisit hm hp
  rw [hf, ht] at this
  exact ⟨now, (Option.some.inj this).symm⟩

theorem keepsModifyTime_AddNamespace {ns : NamespaceRecord} {op : Op SpecRecord}
    (h : AddNamespace NamespaceRecord.toSpec ns = .ok op) : KeepsModifyTime op := by
  unfold AddNamespace at h
  split_ifs at h
  cases h
  exact fun _ => ⟨_, rfl⟩

theorem keepsModifyTime_UpdateNamespace (hvisit : ∀ m, (visit m).Perm m) {now : Time}
    {ns : NamespaceRecord} {op : Op SpecRecord} (h : UpdateNamespace visit now ns = .ok op) :
    KeepsModifyTime op := by
  unfold UpdateNamespace at h
  split_ifs at h
  cases h
  exact fun _ => keepsModifyTimeField_range visit hvisit
    (((ordered_nil.insert _ _).insert _ _).insert _ _) (lookup_insert_self _ _ _)

theorem keepsModifyTime_UpdateNamespaceToken (hvisit : ∀ m, (visit m).Perm m) {now : Time}
    {name token : Bytes} {op : Op SpecRecord}
    (h : UpdateNamespaceToken visit now name token = .ok op) : KeepsModifyTime op := by
  unfold UpdateNamespaceToken at h
  split_ifs at h
  cases h
  exact fun _ => keepsModifyTimeField_range visit hvisit
    ((ordered_nil.insert _ _).insert _ _) (lookup_insert_self _ _ _)

theorem keptByRequests_modifyTimesWellFormed (hvisit : ∀ m, (visit m).Perm m) :
    KeptByRequests visit ModifyTimesWellFormed KeepsModifyTime :=
  ⟨fun hs hop => modifyTimesWellFormed_step hs hop, keepsModifyTime_AddNamespace,
    keepsModifyTime_UpdateNamespace visit hvisit, keepsModifyTime_UpdateNamespaceToken visit hvisit⟩

/-- **The run lemma**: every sequence of requests keeps a time under every namespace record's
`ModifyTime`. -/
theorem modifyTimesWellFormed_run (hvisit : ∀ m, (visit m).Perm m) (reqs : List NamespaceRequest)
    {s : DB} (hs : ModifyTimesWellFormed s.root) :
    ModifyTimesWellFormed
      (reqs.foldl (NamespaceRequest.apply specCodec NamespaceRecord.toSpec visit) s).root :=
  (keptByRequests_modifyTimesWellFormed visit hvisit).run reqs hs

end Requests

/-! ## `ListNamespaces` and `GetMoreNamespaces` -/

/-- `time.Time.After`. -/
def Time.After (t u : Time) : Bool := decide (u.nanos < t.nanos)

/-- The callback of `ListNamespaces(owner)`. -/
def listNamespacesFilter (owner : Bytes) (value : FieldMap) : Except Err Bool :=
  match lookup (ascii "Owner") value with
  | none => pure false
  | some ownerValue => do
    let s ← ownerValue.assertString
    pure (Contains s owner)

/-- The callback of `GetMoreNamespaces(mtime)`. -/
def getMoreNamespacesFilter (mtime : Time) (value : FieldMap) : Except Err Bool :=
  match lookup (ascii "ModifyTime") value with
  | none => pure false
  | some mTimeValue => do
    let t ← mTimeValue.assertTime
    pure (t.After mtime)

section Reads

variable {Rec : Type} (c : Codec Rec Namespace) (visit : Entries Namespace → Entries Namespace)

/-- `ListNamespaces(owner)`. -/
def ListNamespaces (owner : Bytes) (db : Bucket) : Except StoreErr (List Namespace) :=
  if owner = [] then .error (.text "store lst namespaces owner is empty")
  else match LoadValuesByFilterOrPanic c tblNameNamespace [ascii "Owner"] namespaceProto
      (some (listNamespacesFilter owner)) db with
    | .error e => .error (.handler e)
    | .ok values => .ok (toNamespaces visit values)

/-- `GetMoreNamespaces(mtime)`. -/
def GetMoreNamespaces (mtime : Time) (db : Bucket) : Except StoreErr (List Namespace) :=
  match LoadValuesByFilterOrPanic c tblNameNamespace [ascii "ModifyTime"] namespaceProto
      (some (getMoreNamespacesFilter mtime)) db with
  | .error e => .error (.handler e)
  | .ok values => .ok (toNamespaces visit values)

/-- **A namespace record without an `Owner` makes `ListNamespaces` fail.**  The missing field
reaches the callback as a nil `map[string]string`, the callback's `ok` test passes it, and
`ownerValue.(string)` panics; the panic ends the load, whatever the other records hold. -/
theorem list_namespaces_fails_without_owner (db : Bucket) {owner : Bytes} (howner : owner ≠ [])
    {name : Bytes} {rb : Bucket} (hrb : getBucket db tblNameNamespace name = some rb)
    (hmissing : rb.lookup (c.toBucketField (ascii "Owner")) = none) :
    ∀ r, ListNamespaces c visit owner db ≠ .ok r := by
  have hg : getFieldObject c rb namespaceProto (ascii "Owner") = .ok (.stringMap none) := by
    simp [getFieldObject, Bucket.get, Bucket.bucket, reflectMapMsg, hmissing]
  have hpanic : filterRecordOrPanic c [ascii "Owner"] namespaceProto
      (some (listNamespacesFilter owner)) rb = .error (.panic .interfaceConversion) := by
    simp [filterRecordOrPanic, matchObjectOrPanic, fieldValuesOf, hg, listNamespacesFilter,
      Entries.insert, lookup_cons, GoValue.assertString]
  intro r h
  unfold ListNamespaces LoadValuesByFilterOrPanic at h
  rw [if_neg howner, loadValuesByFilterOrPanic_eq] at h
  unfold getBucket at hrb
  rcases htb : db.bucket tblNameNamespace with _ | tb <;> rw [htb] at hrb h
  · cases hrb
  · have hk : name ∈ getKeys tb := by
      rw [getKeys_eq, ← lookup_isSome_iff, Bucket.bucket_eq_some.mp hrb]
      rfl
    split at h
    · cases h
    · obtain ⟨_, _, hbody⟩ := forEachBucket_ok_of_mem _ ‹_› hk hrb
      simp [keepBody, hpanic] at hbody

end Reads

theorem list_namespaces_fails_without_owner_nameless_record :
    ascii "p" ≠ [] ∧
      getBucket (run specNamespaceCodec [.save tblNameNamespace (ascii "a")
        [(ascii "Name", .string (ascii "a"))]]).root tblNameNamespace (ascii "a") =
          some [⟨ascii "Name", .value (1 :: ascii "a")⟩] ∧
      lookup (specNamespaceCodec.toBucketField (ascii "Owner"))
        ([⟨ascii "Name", .value (1 :: ascii "a")⟩] : Bucket) = none ∧
      (∀ r, ListNamespaces specNamespaceCodec id (ascii "p") (run specNamespaceCodec
        [.save tblNameNamespace (ascii "a") [(ascii "Name", .string (ascii "a"))]]).root ≠ .ok r) ∧
      ListNamespaces specNamespaceCodec id (ascii "p") (run specNamespaceCodec
        [.save tblNameNamespace (ascii "a") [(ascii "Name", .string (ascii "a"))]]).root =
          .error (.handler (.panic .interfaceConversion)) :=
  have howner : ascii "p" ≠ [] := by decide
  have hrb : getBucket (run specNamespaceCodec [.save tblNameNamespace (ascii "a")
      [(ascii "Name", .string (ascii "a"))]]).root tblNameNamespace (ascii "a") =
        some [⟨ascii "Name", .value (1 :: ascii "a")⟩] := rfl
  ⟨howner, hrb, rfl, list_namespaces_fails_without_owner specNamespaceCodec id _ howner hrb rfl, rfl⟩

/-! ## On the stores the namespace store builds -/

/-- Whether `owner` occurs in a namespace record's `Owner`, as the spec codec decodes it. -/
def ownerContains (owner : Bytes) (rb : Bucket) : Bool :=
  match (rb.lookup (ascii "Owner")).map specDecodeNode with
  | some (.string s) => decide (owner <:+: s)
  | _ => false

/-- The namespace store after the requests `reqs`, from the empty store. -/
def namespaceStoreAfter (visit : Entries GoValue → Entries GoValue)
    (reqs : List NamespaceRequest) : DB :=
  reqs.foldl (NamespaceRequest.apply specCodec NamespaceRecord.toSpec visit) DB.empty

/-- A load's loop succeeds when what it keeps of each record bucket does. -/
theorem forEachBucket_keep_ok {β : Type} {lookupBucket : Bytes → Option Bucket}
    {f : Bucket → Except Err (Option β)} (hf : ∀ k b, lookupBucket k = some b → ∃ o, f b = .ok o)
    (keys : List Bytes) (acc : Entries β) :
    ∃ m, forEachBucket lookupBucket (keepBody f) keys acc = .ok m := by
  induction keys generalizing acc with
  | nil => exact ⟨acc, rfl⟩
  | cons key keys ih =>
    simp only [forEachBucket]
    split
    · exact ih acc
    · rename_i b hb
      obtain ⟨o, ho⟩ := hf key b hb
      simp only [keepBody, ho, map_ok, ok_bind]
      exact ih _

theorem LoadValuesAll_namespace_ok (db : Bucket) :
    ∃ all, LoadValuesAll specNamespaceCodec tblNameNamespace namespaceProto db = .ok all := by
  rw [LoadValuesAll_eq]
  split
  · exact ⟨[], rfl⟩
  · exact forEachBucket_keep_ok (fun _ _ _ => ⟨_, rfl⟩) _ _

/-- **A load with a callback that returns on every record**: when the callback returns what
`p` says of every namespace record, the load holds the records of `LoadValuesAll` that `p`
accepts. -/
theorem loadValuesByFilterOrPanic_eq_filter {db : Bucket} {fields : List Bytes}
    {filter : FieldMap → Except Err Bool} {p : Bucket → Bool}
    (hagree : ∀ k b, getBucket db tblNameNamespace k = some b →
      filterRecordOrPanic specNamespaceCodec fields namespaceProto (some filter) b =
        .ok (if p b then some (namespaceOfBucket b) else none))
    {all : Entries Namespace}
    (hall : LoadValuesAll specNamespaceCodec tblNameNamespace namespaceProto db = .ok all) :
    loadValuesByFilterOrPanic specNamespaceCodec db tblNameNamespace fields namespaceProto
        (some filter) = .ok (all.filter fun e => (getBucket db tblNameNamespace e.1).any p) := by
  rw [loadValuesByFilterOrPanic_eq]
  have hget : ∀ k, getBucket db tblNameNamespace k = (db.bucket tblNameNamespace).bind
      (Bucket.bucket · k) := fun _ => rfl
  rcases htb : db.bucket tblNameNamespace with _ | tb
  · rw [LoadValuesAll_eq, htb] at hall
    cases hall
    rfl
  · obtain ⟨m, hm⟩ := @forEachBucket_keep_ok _ tb.bucket _
      (fun k b hb => ⟨_, hagree k b (by simp [hget, htb, hb])⟩) (getKeys tb) []
    simp only [hm, Except.ok.injEq]
    refine Entries.ext (ordered_forEachBucket_keep _ ordered_nil hm)
      ((ordered_LoadValuesAll _ hall).filter fun k => (getBucket db tblNameNamespace k).any p)
      fun k => ?_
    rw [lookup_forEachBucket_keep _ hm, ite_mem_getKeys,
      lookup_filter (fun k => (getBucket db tblNameNamespace k).any p),
      lookup_LoadValuesAll _ hall, hget, htb]
    rcases hb : tb.bucket k with _ | b
    · simp [hb]
    · simp only [hb, Option.some_bind, hagree k b (by simp [hget, htb, hb])]
      cases hp : p b <;> simp [hp, specNamespaceCodec]

theorem filterRecord_listNamespaces (owner : Bytes) {rb : Bucket} (hrb : NamespaceBucketOK rb) :
    filterRecordOrPanic specNamespaceCodec [ascii "Owner"] namespaceProto
        (some (listNamespacesFilter owner)) rb =
      .ok (if ownerContains owner rb then some (namespaceOfBucket rb) else none) := by
  obtain ⟨s, -, hs⟩ := hrb.owner
  have hg : getFieldObject specNamespaceCodec rb namespaceProto (ascii "Owner") =
      .ok (.string s) := by
    simp [getFieldObject, Bucket.get, hs, specNamespaceCodec, specCodec, specDecodeNode]
  have hc : ownerContains owner rb = Contains s owner := by
    rw [Bool.eq_iff_iff, contains_iff_occurs]
    simp [ownerContains, hs, specCodec, specDecodeNode]
  simp only [filterRecordOrPanic, matchObjectOrPanic, fieldValuesOf, hg, hc, ok_bind,
    if_neg (List.cons_ne_nil _ _)]
  cases h : Contains s owner <;>
    simp [listNamespacesFilter, Entries.insert, lookup_cons, GoValue.assertString, h,
      specNamespaceCodec]

theorem filterRecord_getMoreNamespaces (mtime : Time) {rb : Bucket}
    (hrb : TimeAt rb (ascii "ModifyTime")) :
    filterRecordOrPanic specNamespaceCodec [ascii "ModifyTime"] namespaceProto
        (some (getMoreNamespacesFilter mtime)) rb =
      .ok (if (namespaceOfBucket rb).modifyTime.After mtime then some (namespaceOfBucket rb)
        else none) := by
  obtain ⟨t, ht⟩ := hrb
  have hg : getFieldObject specNamespaceCodec rb namespaceProto (ascii "ModifyTime") =
      .ok (.time (namespaceOfBucket rb).modifyTime) := by
    simp [getFieldObject, Bucket.get, ht, namespaceOfBucket, specNamespaceCodec, specCodec,
      specDecodeNode]
  simp only [filterRecordOrPanic, matchObjectOrPanic, fieldValuesOf, hg, ok_bind,
    if_neg (List.cons_ne_nil _ _)]
  cases h : (namespaceOfBucket rb).modifyTime.After mtime <;>
    simp [getMoreNamespacesFilter, Entries.insert, lookup_cons, GoValue.assertTime, h,
      specNamespaceCodec]

/-- Filtering the decoded namespaces by their records is filtering them by their values. -/
theorem filter_LoadValuesAll_namespace {db : Bucket} {all : Entries Namespace}
    (hall : LoadValuesAll specNamespaceCodec tblNameNamespace namespaceProto db = .ok all)
    (q : Namespace → Bool) :
    (all.filter fun e => (getBucket db tblNameNamespace e.1).any fun b => q (namespaceOfBucket b)) =
      all.filter fun e => q e.2 := by
  refine List.filter_congr fun e he => ?_
  have hl := lookup_LoadValuesAll specNamespaceCodec hall e.1
  rw [show lookup e.1 all = some e.2 from
    List.mem_dlookup (ordered_LoadValuesAll _ hall).nodupKeys he] at hl
  cases hb : getBucket db tblNameNamespace e.1 with
  | none => simp [hb] at hl
  | some b =>
    simp only [hb, Option.some_bind] at hl
    rw [show e.2 = namespaceOfBucket b from Option.some.inj hl]
    rfl

/-- `toNamespaces` lists the values of the map, each once, in whatever order `range` visits
it. -/
theorem toNamespaces_perm {visitNs : Entries Namespace → Entries Namespace}
    (hvisitNs : ∀ m, (visitNs m).Perm m) (values : Entries Namespace) :
    (toNamespaces visitNs values).Perm (values.map Sigma.snd) := by
  unfold toNamespaces
  exact (hvisitNs values).map Sigma.snd

/-- On a store whose namespace records hold a string `Owner` and a time `ModifyTime`, neither
load panics: each returns the namespaces its callback accepts. -/
theorem namespace_filters_of_wellFormed {root : Bucket} (hns : NamespacesWellFormed root)
    (hmt : ModifyTimesWellFormed root) (visitNs : Entries Namespace → Entries Namespace)
    {owner : Bytes} (howner : owner ≠ []) (mtime : Time) {all : Entries Namespace}
    (hall : LoadValuesAll specNamespaceCodec tblNameNamespace namespaceProto root = .ok all) :
    ListNamespaces specNamespaceCodec visitNs owner root =
        .ok (toNamespaces visitNs (all.filter fun e =>
          (getBucket root tblNameNamespace e.1).any (ownerContains owner))) ∧
      GetMoreNamespaces specNamespaceCodec visitNs mtime root =
        .ok (toNamespaces visitNs (all.filter fun e => decide (mtime.nanos < e.2.modifyTime.nanos))) := by
  constructor
  · unfold ListNamespaces LoadValuesByFilterOrPanic
    rw [if_neg howner, loadValuesByFilterOrPanic_eq_filter (fun k b hb =>
      filterRecord_listNamespaces owner (hns k b (entryAt_eq_bucket.mpr hb))) hall]
  · unfold GetMoreNamespaces LoadValuesByFilterOrPanic
    rw [loadValuesByFilterOrPanic_eq_filter (fun k b hb =>
      filterRecord_getMoreNamespaces mtime (hmt k b (entryAt_eq_bucket.mpr hb))) hall,
      filter_LoadValuesAll_namespace hall fun ns => ns.modifyTime.After mtime]
    rfl

/-- **The namespace filters never panic on the store's own data.**  From the empty store, after
any sequence of requests and whatever order `range` visits each update's properties in,
`LoadValuesAll` succeeds; `ListNamespaces(owner)` for a non-empty `owner` returns the loaded
namespaces in whose stored owner `owner` occurs, and `GetMoreNamespaces(mtime)` those modified
after `mtime`, each once, in whatever order `range` visits the loaded map. -/
theorem namespace_filters_never_panic (visit : Entries GoValue → Entries GoValue)
    (hvisit : ∀ m, (visit m).Perm m) (reqs : List NamespaceRequest)
    (visitNs : Entries Namespace → Entries Namespace) (hvisitNs : ∀ m, (visitNs m).Perm m)
    {owner : Bytes} (howner : owner ≠ []) (mtime : Time) :
    ∃ all, LoadValuesAll specNamespaceCodec tblNameNamespace namespaceProto
        (namespaceStoreAfter visit reqs).root = .ok all ∧
      (∃ nss, ListNamespaces specNamespaceCodec visitNs owner
          (namespaceStoreAfter visit reqs).root = .ok nss ∧
        nss.Perm ((all.filter fun e =>
          (getBucket (namespaceStoreAfter visit reqs).root tblNameNamespace e.1).any
            (ownerContains owner)).map Sigma.snd)) ∧
      ∃ nss, GetMoreNamespaces specNamespaceCodec visitNs mtime
          (namespaceStoreAfter visit reqs).root = .ok nss ∧
        nss.Perm ((all.filter fun e => decide (mtime.nanos < e.2.modifyTime.nanos)).map
          Sigma.snd) := by
  obtain ⟨all, hall⟩ := LoadValuesAll_namespace_ok (namespaceStoreAfter visit reqs).root
  obtain ⟨hlist, hmore⟩ := namespace_filters_of_wellFormed
    (namespacesWellFormed_run visit hvisit reqs namespacesWellFormed_empty)
    (modifyTimesWellFormed_run visit hvisit reqs modifyTimesWellFormed_empty) visitNs howner mtime
    hall
  exact ⟨all, hall, ⟨_, hlist, toNamespaces_perm hvisitNs _⟩, _, hmore, toNamespaces_perm hvisitNs _⟩

theorem namespace_filters_never_panic_after_initData :
    (∀ m : Entries GoValue, (id m).Perm m) ∧ (∀ m : Entries Namespace, (id m).Perm m) ∧
      ascii "pol" ≠ [] ∧
      ∃ all, LoadValuesAll specNamespaceCodec tblNameNamespace namespaceProto
          (namespaceStoreAfter id [.initData ⟨5⟩]).root = .ok all ∧
        (∃ nss, ListNamespaces specNamespaceCodec id (ascii "pol")
            (namespaceStoreAfter id [.initData ⟨5⟩]).root = .ok nss ∧
          nss.Perm ((all.filter fun e =>
            (getBucket (namespaceStoreAfter id [.initData ⟨5⟩]).root tblNameNamespace e.1).any
              (ownerContains (ascii "pol"))).map Sigma.snd)) ∧
        ∃ nss, GetMoreNamespaces specNamespaceCodec id ⟨0⟩
            (namespaceStoreAfter id [.initData ⟨5⟩]).root = .ok nss ∧
          nss.Perm ((all.filter fun e => decide ((⟨0⟩ : Time).nanos < e.2.modifyTime.nanos)).map
            Sigma.snd) :=
  have howner : ascii "pol" ≠ [] := by decide
  ⟨fun m => .refl m, fun m => .refl m, howner,
    namespace_filters_never_panic id (fun m => .refl m) [.initData ⟨5⟩] id (fun m => .refl m)
      howner ⟨0⟩⟩

/-- The two namespaces `InitData` adds are both owned by `polaris`. -/
example : ListNamespaces specNamespaceCodec id (ascii "pol")
    (namespaceStoreAfter id [.initData ⟨5⟩]).root =
      .ok [⟨ascii "Polaris", ⟨5⟩⟩, ⟨ascii "default", ⟨5⟩⟩] := rfl

end Polaris

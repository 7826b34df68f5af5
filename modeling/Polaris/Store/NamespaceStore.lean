import Polaris.Store.Namespace
import Polaris.Store.Update

/-!
# The namespace store of `boltdb`

`namespaceStore` keeps one record per namespace in the type bucket `tblNameNamespace`, and
each of its writes is one handler call, in a transaction of its own:

* `AddNamespace` — checks that name, owner and token are set, marks the namespace valid and
  saves it (`SaveValue`);
* `UpdateNamespace` — checks name and owner, and writes `Owner`, `Comment` and `ModifyTime`
  (`UpdateValue`, which does nothing to a namespace the store does not hold);
* `UpdateNamespaceToken` — checks name and token, and writes `Token` and `ModifyTime`;
* `GetNamespace` — `LoadValues` of the one name;
* `InitData` — for `defaultNamespace` and `polarisNamespace`, adds each one the store lacks.

A write is modelled as the handler call it makes (`Op`) or its own error message; `DB.call`
then runs the call as the store's step, so a request refused by its checks leaves the store
as it was.  `time.Now()` is an input, and a Go map of properties is visited in the order
`visit` gives.  The saved record is a `SpecRecord`, its fields in declaration order, and the
invariant is read off the spec codec: every namespace record is valid and holds a non-empty
owner and token (`NamespacesWellFormed`).

Principal results:

* `KeptByRequests.run` — an invariant that every call of the requests keeps holds after every
  sequence of requests, `InitData` included;
* `namespacesWellFormed_step` — every call the store makes keeps the invariant, and
  `namespacesWellFormed_run` — so does every sequence of requests;
* `namespaces_well_formed` — from the empty store, whatever the requests, every namespace
  `GetNamespace` returns is valid and has a non-empty owner and token;
* `InitData_adds_defaults` — on every store the handler's calls can reach, `InitData`
  succeeds, leaves both default namespaces readable, adds records under their names only,
  changes no record it finds, and a second run changes nothing;
* `updates_add_no_namespace` — over any sequence of requests, a namespace is added only by
  `AddNamespace` or `InitData`: updates are not upserts.
-/

set_option autoImplicit false

namespace Polaris

open Entries

/-- `defaultNamespace`. -/
def defaultNamespace : Bytes := ascii "default"

/-- `polarisNamespace`. -/
def polarisNamespace : Bytes := ascii "Polaris"

/-- `namespaceToToken[name]`: `""` for a name the map lacks. -/
def namespaceToToken (name : Bytes) : Bytes :=
  if name = defaultNamespace then ascii "e2e473081d3d4306b52264e49f7ce227"
  else if name = polarisNamespace then ascii "2d1bfe5d12e04d54b8ee69e62494c7fd"
  else []

/-- `namespaceToComment[name]`. -/
def namespaceToComment (name : Bytes) : Bytes :=
  if name = defaultNamespace then ascii "Default Environment"
  else if name = polarisNamespace then ascii "Polaris-server"
  else []

/-- `model.Namespace`, by every field the namespace store writes. -/
structure NamespaceRecord where
  name : Bytes
  comment : Bytes
  token : Bytes
  owner : Bytes
  valid : Bool
  createTime : Time
  modifyTime : Time
  deriving DecidableEq, Repr

/-- The record `SaveValue` serializes: the struct's fields in declaration order. -/
def NamespaceRecord.toSpec (ns : NamespaceRecord) : SpecRecord :=
  [(ascii "Name", .string ns.name), (ascii "Comment", .string ns.comment),
    (ascii "Token", .string ns.token), (ascii "Owner", .string ns.owner),
    (ascii "Valid", .bool ns.valid), (ascii "CreateTime", .time ns.createTime),
    (ascii "ModifyTime", .time ns.modifyTime)]

/-- An error the namespace store returns: one of its own messages, or the handler's. -/
inductive StoreErr where
  | text (msg : String)
  | handler (e : Err)
  deriving DecidableEq, Repr

/-- The properties map of an update, as `UpdateValue` receives it: its entries in the order
`range` visits them. -/
def rangeProperties (visit : Entries GoValue → Entries GoValue) (properties : Entries GoValue) :
    List (Bytes × GoValue) :=
  (visit properties).map fun e => (e.1, e.2)

section Calls

variable {Rec Obj : Type} (c : Codec Rec Obj) (toRec : NamespaceRecord → Rec)
  (visit : Entries GoValue → Entries GoValue)

/-- `AddNamespace(namespace)`: the handler call it makes, or its error. -/
def AddNamespace (ns : NamespaceRecord) : Except String (Op Rec) :=
  if ns.name = [] ∨ ns.owner = [] ∨ ns.token = [] then
    .error "store add namespace some param are empty"
  else .ok (.save tblNameNamespace ns.name (toRec { ns with valid := true }))

/-- The properties `UpdateNamespace` writes. -/
def updateNamespaceProperties (ns : NamespaceRecord) (now : Time) : Entries GoValue :=
  insert (ascii "ModifyTime") (.time now)
    (insert (ascii "Comment") (.string ns.comment)
      (insert (ascii "Owner") (.string ns.owner) []))

/-- `UpdateNamespace(namespace)`, at time `now`. -/
def UpdateNamespace (now : Time) (ns : NamespaceRecord) : Except String (Op Rec) :=
  if ns.name = [] ∨ ns.owner = [] then
    .error "store update namespace some param are empty"
  else .ok (.update tblNameNamespace ns.name
    (rangeProperties visit (updateNamespaceProperties ns now)))

/-- The properties `UpdateNamespaceToken` writes. -/
def updateTokenProperties (token : Bytes) (now : Time) : Entries GoValue :=
  insert (ascii "ModifyTime") (.time now) (insert (ascii "Token") (.string token) [])

/-- `UpdateNamespaceToken(name, token)`, at time `now`. -/
def UpdateNamespaceToken (now : Time) (name token : Bytes) : Except String (Op Rec) :=
  if name = [] ∨ token = [] then .error "update Namespace Token missing some params"
  else .ok (.update tblNameNamespace name (rangeProperties visit (updateTokenProperties token now)))

/-- `GetNamespace(name)`. -/
def GetNamespace (name : Bytes) (db : Bucket) : Except Err (Option Obj) := do
  let values ← LoadValues c tblNameNamespace [name] namespaceProto db
  pure (lookup name values)

/-- A write of the namespace store: its own error leaves the store as it was; otherwise the
handler's call runs as one transaction, committed or rolled back. -/
def DB.call (s : DB) : Except String (Op Rec) → DB × Option StoreErr
  | .error msg => (s, some (.text msg))
  | .ok op =>
    (s.step c op, match op.exec c s.root with
      | .ok _ => none
      | .error e => some (.handler e))

/-- The namespace `InitData` adds under the name `ns`. -/
def initNamespace (now : Time) (ns : Bytes) : NamespaceRecord :=
  ⟨ns, namespaceToComment ns, namespaceToToken ns, ascii "polaris", true,
    now, now⟩

/-- The loop of `InitData` over `namespaces`. -/
def initDataLoop (now : Time) : List Bytes → DB → DB × Option StoreErr
  | [], s => (s, none)
  | ns :: rest, s =>
    match GetNamespace c ns s.root with
    | .error e => (s, some (.handler e))
    | .ok (some _) => initDataLoop now rest s
    | .ok none =>
      match s.call c (AddNamespace toRec (initNamespace now ns)) with
      | (s, some err) => (s, some err)
      | (s, none) => initDataLoop now rest s

/-- `InitData()`, at time `now`: the store after it, and its error. -/
def InitData (now : Time) (s : DB) : DB × Option StoreErr :=
  initDataLoop c toRec now [defaultNamespace, polarisNamespace] s

/-- A request to the namespace store. -/
inductive NamespaceRequest where
  | add (ns : NamespaceRecord)
  | update (ns : NamespaceRecord) (now : Time)
  | updateToken (name token : Bytes) (now : Time)
  | initData (now : Time)

/-- The store after a request. -/
def NamespaceRequest.apply (s : DB) : NamespaceRequest → DB
  | .add ns => (s.call c (AddNamespace toRec ns)).1
  | .update ns now => (s.call c (UpdateNamespace visit now ns)).1
  | .updateToken name token now => (s.call c (UpdateNamespaceToken visit now name token)).1
  | .initData now => (InitData c toRec now s).1

end Calls

/-! ## What a saved or updated record holds -/

namespace Bucket

theorem lookup_putAll_of_forall_ne {b b' : Bucket} {entries : List (Bytes × Bytes)}
    (h : b.putAll entries = .ok b') {k : Bytes} (hk : ∀ e ∈ entries, e.1 ≠ k) :
    b'.lookup k = b.lookup k := by
  induction entries generalizing b with
  | nil => cases h; rfl
  | cons e rest ih =>
    simp only [putAll, List.foldlM_cons] at h
    obtain ⟨b₁, h₁, h⟩ := bind_eq_ok.mp h
    obtain ⟨-, rfl⟩ := put_eq_ok.mp h₁
    rw [ih h fun e' he' => hk e' (.tail _ he'), lookup_insert_ne _ _ (hk e (.head _))]

theorem lookup_putAll_of_mem {b b' : Bucket} {entries : List (Bytes × Bytes)}
    (h : b.putAll entries = .ok b') (hnd : (entries.map Prod.fst).Nodup) {k v : Bytes}
    (hkv : (k, v) ∈ entries) : b'.lookup k = some (.value v) := by
  induction entries generalizing b with
  | nil => cases hkv
  | cons e rest ih =>
    simp only [putAll, List.foldlM_cons] at h
    obtain ⟨b₁, h₁, h⟩ := bind_eq_ok.mp h
    obtain ⟨-, rfl⟩ := put_eq_ok.mp h₁
    rw [List.map_cons, List.nodup_cons] at hnd
    rcases List.mem_cons.mp hkv with rfl | hkv
    · rw [lookup_putAll_of_forall_ne h fun e' he' he => hnd.1 (List.mem_map.mpr ⟨e', he', he⟩)]
      exact lookup_insert_self _ _ _
    · exact ih h hnd.2 hkv

/-- `putAll` succeeds on a bucket of plain values when every key and value has a size `Put`
accepts. -/
theorem putAll_ok {b : Bucket} (hb : ∀ k c, b.lookup k ≠ some (.bucket c))
    {entries : List (Bytes × Bytes)}
    (he : ∀ e ∈ entries, e.1 ≠ [] ∧ e.1.length ≤ MaxKeySize ∧ e.2.length ≤ MaxValueSize) :
    ∃ b', b.putAll entries = .ok b' := by
  induction entries generalizing b with
  | nil => exact ⟨b, rfl⟩
  | cons e rest ih =>
    obtain ⟨hk, hks, hvs⟩ := he e (.head _)
    have hb₁ : ∀ k c, (b.insert e.1 (.value e.2)).lookup k ≠ some (.bucket c) := fun k c => by
      by_cases hke : e.1 = k
      · subst hke; simp
      · rw [lookup_insert_ne _ _ hke]; exact hb k c
    obtain ⟨b', h'⟩ := ih hb₁ fun e' he' => he e' (.tail _ he')
    refine ⟨b', ?_⟩
    simp only [putAll, List.foldlM_cons]
    have hput : b.put e.1 e.2 = .ok (b.insert e.1 (.value e.2)) :=
      put_eq_ok.mpr ⟨⟨hk, hks, hvs, hb e.1⟩, rfl⟩
    rw [hput]
    exact h'

end Bucket

section Inversion

variable {Rec Obj : Type} (c : Codec Rec Obj)

/-- A save leaves its entry as it was or puts the fresh record there. -/
theorem Op.newEntry_save_cases (typ key : Bytes) (value : Rec) (e : Option Node) :
    (Op.save typ key value).newEntry c e = e ∨
      ∃ rb, freshRecord c value = .ok rb ∧ (Op.save typ key value).newEntry c e = some (.bucket rb) := by
  simp only [Op.newEntry]
  split
  · exact .inl rfl
  · split_ifs
    · exact .inl rfl
    · exact .inr ⟨_, ‹freshRecord c value = .ok _›, rfl⟩
  · exact .inl rfl

/-- An update leaves its entry as it was or writes its fields into the record there. -/
theorem Op.newEntry_update_cases (typ key : Bytes) (properties : List (Bytes × GoValue))
    (e : Option Node) :
    (Op.update typ key properties : Op Rec).newEntry c e = e ∨
      ∃ b b', e = some (.bucket b) ∧ updateFields c properties b = .ok b' ∧
        (Op.update typ key properties : Op Rec).newEntry c e = some (.bucket b') := by
  simp only [Op.newEntry]
  split
  · split_ifs
    · exact .inl rfl
    · split
      · exact .inr ⟨_, _, rfl, ‹updateFields c properties _ = .ok _›, rfl⟩
      · exact .inl rfl
  · exact .inl rfl

/-- A delete leaves its entry as it was or removes it. -/
theorem Op.newEntry_delete_cases (typ : Bytes) (keys : List Bytes) (e : Option Node) :
    (Op.delete typ keys : Op Rec).newEntry c e = e ∨
      (Op.delete typ keys : Op Rec).newEntry c e = none := by
  simp only [Op.newEntry]
  split
  · exact .inr rfl
  · exact .inl rfl

end Inversion

/-! ## The invariant: every namespace is valid, with an owner and a token -/

/-- Field `f` of a record bucket holds a non-empty string. -/
def NonEmptyStringAt (rb : Bucket) (f : Bytes) : Prop :=
  ∃ s, s ≠ [] ∧ rb.lookup f = some (.value (specCodec.encodeStringBuffer s))

/-- A namespace record bucket as the namespace store's writes leave it. -/
structure NamespaceBucketOK (rb : Bucket) : Prop where
  owner : NonEmptyStringAt rb (ascii "Owner")
  token : NonEmptyStringAt rb (ascii "Token")
  valid : rb.lookup (ascii "Valid") = some (.value (specCodec.encodeBoolBuffer true))

/-- Every record of the type bucket `tblNameNamespace` is a `NamespaceBucketOK`. -/
def NamespacesWellFormed (root : Bucket) : Prop :=
  ∀ name rb, entryAt root tblNameNamespace name = some (.bucket rb) → NamespaceBucketOK rb

theorem namespacesWellFormed_empty : NamespacesWellFormed DB.empty.root := by
  intro name rb h
  simp [DB.empty, entryAt, Bucket.bucket] at h

/-- The buffers `SaveValue` puts for a namespace, with the spec codec. -/
theorem freshRecord_namespaceRecord (ns : NamespaceRecord) :
    freshRecord specCodec ns.toSpec = liftBolt (Bucket.putAll []
      [(ascii "Name", 1 :: ns.name), (ascii "Comment", 1 :: ns.comment),
        (ascii "Token", 1 :: ns.token), (ascii "Owner", 1 :: ns.owner),
        (ascii "Valid", [2, if ns.valid then 1 else 0]),
        (ascii "CreateTime", 3 :: be64 (BitVec.ofInt 64 ns.createTime.nanos)),
        (ascii "ModifyTime", 3 :: be64 (BitVec.ofInt 64 ns.modifyTime.nanos))]) := rfl

theorem namespaceBucketOK_fresh {ns : NamespaceRecord} {rb : Bucket}
    (h : freshRecord specCodec ns.toSpec = .ok rb) (howner : ns.owner ≠ [])
    (htoken : ns.token ≠ []) (hvalid : ns.valid = true) : NamespaceBucketOK rb := by
  rw [freshRecord_namespaceRecord, liftBolt_eq_ok] at h
  have hnd := fun {k v : Bytes} (hkv : (k, v) ∈ _) =>
    Bucket.lookup_putAll_of_mem h (by simp only [List.map_cons, List.map_nil]; decide) hkv
  have hv := hnd (.tail _ (.tail _ (.tail _ (.tail _ (.head _)))))
  rw [hvalid] at hv
  exact ⟨⟨_, howner, hnd (.tail _ (.tail _ (.tail _ (.head _))))⟩,
    ⟨_, htoken, hnd (.tail _ (.tail _ (.head _)))⟩, hv⟩

/-- What an update must write to keep a namespace record a `NamespaceBucketOK`: each field
once, a non-empty string to `Owner` and `Token`, and nothing to `Valid`. -/
def KeepsNamespaceFields (properties : List (Bytes × GoValue)) : Prop :=
  (properties.map Prod.fst).Nodup ∧
    (∀ p ∈ properties, p.1 = ascii "Owner" ∨ p.1 = ascii "Token" → ∃ s, s ≠ [] ∧ p.2 = .string s) ∧
    ∀ p ∈ properties, p.1 ≠ ascii "Valid"

theorem updateProperty_string {b b₁ : Bucket} {k s : Bytes}
    (h : updateProperty specCodec b k (.string s) = .ok b₁) :
    b₁.lookup k = some (.value (specCodec.encodeStringBuffer s)) := by
  obtain ⟨-, rfl⟩ := Bucket.put_eq_ok.mp (liftBolt_eq_ok.mp h)
  exact lookup_insert_self _ _ _

theorem namespaceBucketOK_update {properties : List (Bytes × GoValue)}
    (hp : KeepsNamespaceFields properties) {b b' : Bucket}
    (h : updateFields specCodec properties b = .ok b') (hb : NamespaceBucketOK b) :
    NamespaceBucketOK b' := by
  obtain ⟨hnd, hstr, hvalid⟩ := hp
  obtain ⟨hframe, heach⟩ := updateFields_ok specCodec hnd h
  have hstring : ∀ f, f = ascii "Owner" ∨ f = ascii "Token" →
      NonEmptyStringAt b f → NonEmptyStringAt b' f := by
    intro f hf hbf
    by_cases hw : ∃ p ∈ properties, p.1 = f
    · obtain ⟨p, hp, rfl⟩ := hw
      obtain ⟨s, hs, hps⟩ := hstr p hp hf
      obtain ⟨b₁, h₁, hl⟩ := heach p hp
      rw [hps] at h₁
      exact ⟨s, hs, hl.trans (updateProperty_string h₁)⟩
    · push_neg at hw
      rw [NonEmptyStringAt, hframe f hw]
      exact hbf
  exact ⟨hstring _ (.inl rfl) hb.owner, hstring _ (.inr rfl) hb.token,
    (hframe _ hvalid).trans hb.valid⟩

/-- The calls of the namespace store, as far as the invariant is concerned: a save into
`tblNameNamespace` is of a valid namespace with an owner and a token, and an update there writes
its fields as `KeepsNamespaceFields` allows. -/
def KeepsNamespaces : Op SpecRecord → Prop
  | .save typ _ value => typ = tblNameNamespace →
      ∃ ns : NamespaceRecord, value = ns.toSpec ∧ ns.owner ≠ [] ∧ ns.token ≠ [] ∧ ns.valid = true
  | .update typ _ properties => typ = tblNameNamespace → KeepsNamespaceFields properties
  | .delete _ _ => True

theorem namespaceBucketOK_newEntry {op : Op SpecRecord} (hop : KeepsNamespaces op)
    {name : Bytes} (hn : op.Names tblNameNamespace name) {e : Option Node}
    (he : ∀ rb, e = some (.bucket rb) → NamespaceBucketOK rb) {rb : Bucket}
    (h : op.newEntry specCodec e = some (.bucket rb)) : NamespaceBucketOK rb := by
  cases op with
  | save typ key value =>
    rcases Op.newEntry_save_cases specCodec typ key value e with he' | ⟨rb', hf, he'⟩ <;>
      rw [he'] at h
    · exact he rb h
    · obtain ⟨ns, rfl, howner, htoken, hvalid⟩ := hop hn.1.symm
      cases h
      exact namespaceBucketOK_fresh hf howner htoken hvalid
  | update typ key properties =>
    rcases Op.newEntry_update_cases specCodec typ key properties e with
      he' | ⟨b, b', rfl, hu, he'⟩ <;> rw [he'] at h
    · exact he rb h
    · cases h
      exact namespaceBucketOK_update (hop hn.1.symm) hu (he b rfl)
  | delete typ keys =>
    rcases Op.newEntry_delete_cases specCodec typ keys e with he' | he' <;> rw [he'] at h
    · exact he rb h
    · cases h

/-- **The step lemma**: a committed call of the namespace store keeps the invariant. -/
theorem namespacesWellFormed_step {s : DB} (hs : NamespacesWellFormed s.root)
    {op : Op SpecRecord} (hop : KeepsNamespaces op) :
    NamespacesWellFormed (s.step specCodec op).root := by
  intro name rb h
  rw [entryAt_step] at h
  split_ifs at h with hn
  · exact namespaceBucketOK_newEntry hop hn (hs name) h
  · exact hs name rb h

/-! ## Each request keeps the invariant -/

section Requests

variable (visit : Entries GoValue → Entries GoValue)

theorem lookup_of_mem_rangeProperties (hvisit : ∀ m, (visit m).Perm m) {m : Entries GoValue}
    (hm : m.Ordered) {p : Bytes × GoValue} (hp : p ∈ rangeProperties visit m) :
    lookup p.1 m = some p.2 := by
  obtain ⟨e, he, rfl⟩ := List.mem_map.mp hp
  exact List.mem_dlookup hm.nodupKeys ((hvisit m).subset he)

/-- An update built from a map of properties keeps a namespace record a `NamespaceBucketOK`
when the map holds a non-empty string under `Owner` and `Token` if anything, and nothing under
`Valid`, whatever order `range` visits it in. -/
theorem keepsNamespaceFields_range (hvisit : ∀ m, (visit m).Perm m) {m : Entries GoValue}
    (hm : m.Ordered)
    (hstr : ∀ f, f = ascii "Owner" ∨ f = ascii "Token" → ∀ v, lookup f m = some v →
      ∃ s, s ≠ [] ∧ v = .string s)
    (hvalid : lookup (ascii "Valid") m = none) : KeepsNamespaceFields (rangeProperties visit m) := by
  have hkeys : (rangeProperties visit m).map Prod.fst = (visit m).keys := by
    simp [rangeProperties, List.keys, Function.comp_def]
  refine ⟨hkeys ▸ (List.perm_nodupKeys (hvisit m)).mpr hm.nodupKeys,
    fun p hp hf => hstr p.1 hf p.2 (lookup_of_mem_rangeProperties visit hvisit hm hp),
    fun p hp hv => ?_⟩
  have := lookup_of_mem_rangeProperties visit hvisit hm hp
  rw [hv, hvalid] at this
  cases this

theorem lookup_updateNamespaceProperties (ns : NamespaceRecord) (now : Time) :
    lookup (ascii "Owner") (updateNamespaceProperties ns now) = some (.string ns.owner) ∧
      lookup (ascii "Token") (updateNamespaceProperties ns now) = none ∧
      lookup (ascii "Valid") (updateNamespaceProperties ns now) = none := by
  unfold updateNamespaceProperties
  refine ⟨?_, ?_, ?_⟩ <;>
    rw [lookup_insert_ne _ _ (by decide), lookup_insert_ne _ _ (by decide)]
  · exact lookup_insert_self _ _ _
  all_goals rw [lookup_insert_ne _ _ (by decide)]; rfl

theorem lookup_updateTokenProperties (token : Bytes) (now : Time) :
    lookup (ascii "Token") (updateTokenProperties token now) = some (.string token) ∧
      lookup (ascii "Owner") (updateTokenProperties token now) = none ∧
      lookup (ascii "Valid") (updateTokenProperties token now) = none := by
  unfold updateTokenProperties
  refine ⟨?_, ?_, ?_⟩ <;> rw [lookup_insert_ne _ _ (by decide)]
  · exact lookup_insert_self _ _ _
  all_goals rw [lookup_insert_ne _ _ (by decide)]; rfl

theorem keepsNamespaces_AddNamespace {ns : NamespaceRecord} {op : Op SpecRecord}
    (h : AddNamespace NamespaceRecord.toSpec ns = .ok op) : KeepsNamespaces op := by
  unfold AddNamespace at h
  split_ifs at h with hp
  cases h
  push_neg at hp
  exact fun _ => ⟨{ ns with valid := true }, rfl, hp.2.1, hp.2.2, rfl⟩

theorem keepsNamespaces_UpdateNamespace (hvisit : ∀ m, (visit m).Perm m) {now : Time}
    {ns : NamespaceRecord} {op : Op SpecRecord} (h : UpdateNamespace visit now ns = .ok op) :
    KeepsNamespaces op := by
  unfold UpdateNamespace at h
  split_ifs at h with hp
  cases h
  push_neg at hp
  obtain ⟨howner, htoken, hvalid⟩ := lookup_updateNamespaceProperties ns now
  refine fun _ => keepsNamespaceFields_range visit hvisit
    (((ordered_nil.insert _ _).insert _ _).insert _ _) ?_ hvalid
  rintro f (rfl | rfl) v hv
  · rw [howner] at hv; cases hv; exact ⟨_, hp.2, rfl⟩
  · rw [htoken] at hv; cases hv

theorem keepsNamespaces_UpdateNamespaceToken (hvisit : ∀ m, (visit m).Perm m) {now : Time}
    {name token : Bytes} {op : Op SpecRecord}
    (h : UpdateNamespaceToken visit now name token = .ok op) : KeepsNamespaces op := by
  unfold UpdateNamespaceToken at h
  split_ifs at h with hp
  cases h
  push_neg at hp
  obtain ⟨htoken, howner, hvalid⟩ := lookup_updateTokenProperties token now
  refine fun _ => keepsNamespaceFields_range visit hvisit
    ((ordered_nil.insert _ _).insert _ _) ?_ hvalid
  rintro f (rfl | rfl) v hv
  · rw [howner] at hv; cases hv
  · rw [htoken] at hv; cases hv; exact ⟨_, hp.2, rfl⟩

/-- What an invariant `Inv` of the store needs of the requests: `Keeps` holds of every call
`AddNamespace`, `UpdateNamespace` and `UpdateNamespaceToken` make, and a committed call that
`Keeps` keeps `Inv`. -/
structure KeptByRequests (Inv : Bucket → Prop) (Keeps : Op SpecRecord → Prop) : Prop where
  step : ∀ {s : DB} {op : Op SpecRecord}, Inv s.root → Keeps op → Inv (s.step specCodec op).root
  add : ∀ {ns : NamespaceRecord} {op : Op SpecRecord},
    AddNamespace NamespaceRecord.toSpec ns = .ok op → Keeps op
  update : ∀ {now : Time} {ns : NamespaceRecord} {op : Op SpecRecord},
    UpdateNamespace visit now ns = .ok op → Keeps op
  updateToken : ∀ {now : Time} {name token : Bytes} {op : Op SpecRecord},
    UpdateNamespaceToken visit now name token = .ok op → Keeps op

namespace KeptByRequests

variable {visit} {Inv : Bucket → Prop} {Keeps : Op SpecRecord → Prop}
  (h : KeptByRequests visit Inv Keeps)
include h

theorem call {s : DB} (hs : Inv s.root) {req : Except String (Op SpecRecord)}
    (hreq : ∀ op, req = .ok op → Keeps op) : Inv (s.call specCodec req).1.root := by
  cases req with
  | error _ => exact hs
  | ok op => exact h.step hs (hreq op rfl)

theorem initDataLoop (now : Time) (names : List Bytes) {s : DB} (hs : Inv s.root) :
    Inv (Polaris.initDataLoop specCodec NamespaceRecord.toSpec now names s).1.root := by
  induction names generalizing s with
  | nil => exact hs
  | cons ns rest ih =>
    have hcall : Inv (s.call specCodec
        (AddNamespace NamespaceRecord.toSpec (initNamespace now ns))).1.root :=
      h.call hs fun _ => h.add
    simp only [Polaris.initDataLoop]
    split
    · exact hs
    · exact ih hs
    · rcases hc : s.call specCodec (AddNamespace NamespaceRecord.toSpec (initNamespace now ns))
        with ⟨s', _ | err⟩ <;> rw [hc] at hcall
      · exact ih hcall
      · exact hcall

theorem apply {s : DB} (hs : Inv s.root) (req : NamespaceRequest) :
    Inv (req.apply specCodec NamespaceRecord.toSpec visit s).root := by
  cases req with
  | add ns => exact h.call hs fun _ => h.add
  | update ns now => exact h.call hs fun _ => h.update
  | updateToken name token now => exact h.call hs fun _ => h.updateToken
  | initData now => exact h.initDataLoop now _ hs

/-- **The run lemma** of an invariant every request keeps. -/
theorem run (reqs : List NamespaceRequest) {s : DB} (hs : Inv s.root) :
    Inv (reqs.foldl (NamespaceRequest.apply specCodec NamespaceRecord.toSpec visit) s).root := by
  induction reqs generalizing s with
  | nil => exact hs
  | cons req rest ih => exact ih (h.apply hs req)

end KeptByRequests

theorem keptByRequests_namespacesWellFormed (hvisit : ∀ m, (visit m).Perm m) :
    KeptByRequests visit NamespacesWellFormed KeepsNamespaces :=
  ⟨fun hs hop => namespacesWellFormed_step hs hop, keepsNamespaces_AddNamespace,
    keepsNamespaces_UpdateNamespace visit hvisit, keepsNamespaces_UpdateNamespaceToken visit hvisit⟩

end Requests

/-! ## What `GetNamespace` reads back -/

theorem GetNamespace_eq {Rec Obj : Type} (c : Codec Rec Obj) (name : Bytes) (db : Bucket) :
    GetNamespace c name db = match getBucket db tblNameNamespace name with
      | none => .ok none
      | some b => decodeRecord c namespaceProto b := by
  unfold GetNamespace LoadValues
  rw [if_neg (List.cons_ne_nil _ _), loadValues_eq]
  simp only [forEachBucket]
  cases getBucket db tblNameNamespace name with
  | none => rfl
  | some b =>
    unfold keepBody decodeRecord
    rcases hd : c.deserializeObject b namespaceProto with _ | o <;> simp [hd, Except.map]

/-- The loop of the spec codec's `deserializeObject` decodes each field it visits. -/
theorem lookup_foldl_specDecode_of_not_mem (b : Bucket) {f : Bytes} :
    ∀ (fields : List (Bytes × FieldType)) (acc : FieldMap), f ∉ fields.map Prod.fst →
      lookup f (fields.foldl (fun obj g => match b.lookup g.1 with
        | some n => obj.insert g.1 (specDecodeNode n)
        | none => obj) acc) = lookup f acc
  | [], _, _ => rfl
  | g :: rest, acc, hf => by
    rw [List.map_cons, List.mem_cons, not_or] at hf
    rw [List.foldl_cons, lookup_foldl_specDecode_of_not_mem b rest _ hf.2]
    split
    · exact lookup_insert_ne _ _ (Ne.symm hf.1)
    · rfl

theorem lookup_foldl_specDecode (b : Bucket) {f : Bytes} {n : Node} (hn : b.lookup f = some n) :
    ∀ (fields : List (Bytes × FieldType)) (acc : FieldMap), f ∈ fields.map Prod.fst →
      lookup f (fields.foldl (fun obj g => match b.lookup g.1 with
        | some n => obj.insert g.1 (specDecodeNode n)
        | none => obj) acc) = some (specDecodeNode n)
  | [], _, hf => absurd hf (List.not_mem_nil _)
  | g :: rest, acc, hf => by
    rw [List.foldl_cons]
    by_cases hr : f ∈ rest.map Prod.fst
    · exact lookup_foldl_specDecode b hn rest _ hr
    · rw [lookup_foldl_specDecode_of_not_mem b rest _ hr]
      obtain ⟨g₁, g₂⟩ := g
      have hg : f = g₁ := by simpa [hr] using hf
      subst hg
      simp only [hn]
      exact lookup_insert_self _ _ _

/-- A namespace as `GetNamespace` reads it from a `NamespaceBucketOK` record. -/
structure NamespaceObjectOK (obj : FieldMap) : Prop where
  owner : ∃ s, s ≠ [] ∧ lookup (ascii "Owner") obj = some (.string s)
  token : ∃ s, s ≠ [] ∧ lookup (ascii "Token") obj = some (.string s)
  valid : lookup (ascii "Valid") obj = some (.bool true)

theorem namespaceObjectOK_GetNamespace {db : Bucket} (hwf : NamespacesWellFormed db)
    {name : Bytes} {obj : FieldMap} (h : GetNamespace specCodec name db = .ok (some obj)) :
    NamespaceObjectOK obj := by
  rw [GetNamespace_eq] at h
  split at h
  · cases h
  · rename_i b hb
    rw [getBucket_eq] at hb
    split at hb
    · cases hb
      cases h
      have hok := hwf name _ ‹_›
      have hfield := fun {f : Bytes} {n : Node} (hf : f ∈ namespaceProto.fields.map Prod.fst)
          (hn : b.lookup f = some n) => lookup_foldl_specDecode b hn namespaceProto.fields [] hf
      obtain ⟨so, hso, ho⟩ := hok.owner
      obtain ⟨st, hst, ht⟩ := hok.token
      exact ⟨⟨so, hso, hfield (by decide) ho⟩, ⟨st, hst, hfield (by decide) ht⟩,
        hfield (by decide) hok.valid⟩
    · cases hb

/-! ## `InitData` -/

theorem GetNamespace_spec (name : Bytes) (db : Bucket) :
    ∃ o, GetNamespace specCodec name db = .ok o ∧
      o.isSome = (getBucket db tblNameNamespace name).isSome := by
  rw [GetNamespace_eq]
  cases getBucket db tblNameNamespace name with
  | none => exact ⟨none, rfl, rfl⟩
  | some b => exact ⟨some _, rfl, rfl⟩

theorem length_be64 (x : BitVec 64) : (be64 x).length = 8 := by simp [be64]

theorem freshRecord_initNamespace (now : Time) {ns : Bytes}
    (hns : ns = defaultNamespace ∨ ns = polarisNamespace) :
    ∃ rb, freshRecord specCodec (initNamespace now ns).toSpec = .ok rb := by
  rw [freshRecord_namespaceRecord]
  have htime : ∀ t : Time, (3 :: be64 (BitVec.ofInt 64 t.nanos)).length ≤ MaxValueSize := by
    simp [length_be64, MaxValueSize]
  obtain ⟨rb, h⟩ := @Bucket.putAll_ok [] (fun _ _ h => by cases h)
    [(ascii "Name", 1 :: ns), (ascii "Comment", 1 :: namespaceToComment ns),
      (ascii "Token", 1 :: namespaceToToken ns), (ascii "Owner", 1 :: ascii "polaris"),
      (ascii "Valid", [2, 1]),
      (ascii "CreateTime", 3 :: be64 (BitVec.ofInt 64 now.nanos)),
      (ascii "ModifyTime", 3 :: be64 (BitVec.ofInt 64 now.nanos))] (by
    simp only [List.forall_mem_cons]
    rcases hns with rfl | rfl <;>
      exact ⟨by decide, by decide, by decide, by decide, by decide,
        ⟨by decide, by decide, htime now⟩, ⟨by decide, by decide, htime now⟩, nofun⟩)
  exact ⟨rb, (congrArg liftBolt h :)⟩

theorem AddNamespace_initNamespace (now : Time) {ns : Bytes}
    (hns : ns = defaultNamespace ∨ ns = polarisNamespace) :
    AddNamespace NamespaceRecord.toSpec (initNamespace now ns) =
      .ok (.save tblNameNamespace ns (initNamespace now ns).toSpec) := by
  rcases hns with rfl | rfl <;> rfl

theorem initNamespace_key {ns : Bytes} (hns : ns = defaultNamespace ∨ ns = polarisNamespace) :
    ¬(tblNameNamespace = [] ∨ ns = []) := by
  rcases hns with rfl | rfl <;> decide

/-- `InitData` only adds: every record it finds stays as it was. -/
def AddsOnly (names : List Bytes) (db db' : Bucket) : Prop :=
  ∀ t k, entryAt db' t k = entryAt db t k ∨
    entryAt db t k = none ∧ t = tblNameNamespace ∧ k ∈ names

/-- One iteration of `InitData`'s loop on a store of records: it succeeds, and goes on with a
store that holds `ns` and differs from the first only by adding it. -/
theorem initDataLoop_cons {s : DB} (hs : RecordsOnly s.root) (now : Time) {ns : Bytes}
    (hns : ns = defaultNamespace ∨ ns = polarisNamespace) (rest : List Bytes) :
    ∃ s₁ : DB, initDataLoop specCodec NamespaceRecord.toSpec now (ns :: rest) s =
        initDataLoop specCodec NamespaceRecord.toSpec now rest s₁ ∧
      RecordsOnly s₁.root ∧ (entryAt s₁.root tblNameNamespace ns).isSome ∧
      AddsOnly [ns] s.root s₁.root ∧ ((entryAt s.root tblNameNamespace ns).isSome → s₁ = s) := by
  obtain ⟨o, hget, ho⟩ := GetNamespace_spec ns s.root
  rw [getBucket_isSome_of_recordsOnly hs] at ho
  by_cases hp : (entryAt s.root tblNameNamespace ns).isSome
  · obtain ⟨obj, rfl⟩ := Option.isSome_iff_exists.mp (ho.trans hp)
    refine ⟨s, ?_, hs, hp, fun t k => .inl rfl, fun _ => rfl⟩
    simp only [initDataLoop, hget]
  · have hnone : entryAt s.root tblNameNamespace ns = none := Option.not_isSome_iff_eq_none.mp hp
    rw [hnone] at ho
    cases o with
    | some _ => cases ho
    | none =>
      obtain ⟨rb, hrb⟩ := freshRecord_initNamespace now hns
      have hexec : (Op.save tblNameNamespace ns (initNamespace now ns).toSpec).exec specCodec
          s.root = .ok (setRecord s.root tblNameNamespace ns rb) := by
        rw [Op.exec, saveValue_eq, if_neg (initNamespace_key hns), hnone, hrb]
        rfl
      refine ⟨s.step specCodec (.save tblNameNamespace ns (initNamespace now ns).toSpec), ?_,
        recordsOnly_step specCodec _ _ hs, ?_, fun t k => ?_, fun h => absurd h hp⟩
      · simp only [initDataLoop, hget, AddNamespace_initNamespace now hns, DB.call, hexec]
      · rw [entryAt_step_save, if_pos ⟨rfl, rfl⟩, hnone]
        simp only [Op.newEntry, hrb, if_neg (initNamespace_key hns), Option.isSome_some]
      · rw [entryAt_step_save]
        split_ifs with h
        · obtain ⟨rfl, rfl⟩ := h
          exact .inr ⟨hnone, rfl, List.mem_singleton_self _⟩
        · exact .inl rfl

/-- What `InitData` does on a store of records. -/
structure InitDataSpec (s : DB) (r : DB × Option StoreErr) : Prop where
  succeeds : r.2 = none
  default_readable : ∃ obj, GetNamespace specCodec defaultNamespace r.1.root = .ok (some obj)
  polaris_readable : ∃ obj, GetNamespace specCodec polarisNamespace r.1.root = .ok (some obj)
  adds_only : AddsOnly [defaultNamespace, polarisNamespace] s.root r.1.root
  idempotent : ∀ now, InitData specCodec NamespaceRecord.toSpec now r.1 = (r.1, none)

theorem AddsOnly.trans {a b : List Bytes} {db db₁ db₂ : Bucket} (h₁ : AddsOnly a db db₁)
    (h₂ : AddsOnly b db₁ db₂) : AddsOnly (a ++ b) db db₂ := by
  intro t k
  rcases h₂ t k with h | ⟨h, ht, hk⟩ <;> rcases h₁ t k with h' | ⟨h', ht', hk'⟩
  · exact .inl (h.trans h')
  · exact .inr ⟨h', ht', List.mem_append_left _ hk'⟩
  · exact .inr ⟨h'.symm.trans h, ht, List.mem_append_right _ hk⟩
  · exact .inr ⟨h', ht', List.mem_append_left _ hk'⟩

theorem AddsOnly.eq_of_isSome {a : List Bytes} {db db' : Bucket} (h : AddsOnly a db db')
    {t k : Bytes} (hk : (entryAt db t k).isSome) : entryAt db' t k = entryAt db t k := by
  rcases h t k with h | ⟨h, -⟩
  · exact h
  · rw [h] at hk; cases hk

/-- The run lemma of `InitData`'s loop, over names it knows a comment and a token for. -/
theorem initDataLoop_spec (now : Time) (names : List Bytes)
    (hnames : ∀ ns ∈ names, ns = defaultNamespace ∨ ns = polarisNamespace) {s : DB}
    (hs : RecordsOnly s.root) :
    let r := initDataLoop specCodec NamespaceRecord.toSpec now names s
    r.2 = none ∧ RecordsOnly r.1.root ∧
      (∀ ns ∈ names, (entryAt r.1.root tblNameNamespace ns).isSome) ∧
      AddsOnly names s.root r.1.root ∧
      ((∀ ns ∈ names, (entryAt s.root tblNameNamespace ns).isSome) → r = (s, none)) := by
  induction names generalizing s with
  | nil => exact ⟨rfl, hs, nofun, fun _ _ => .inl rfl, fun _ => rfl⟩
  | cons ns rest ih =>
    obtain ⟨s₁, heq, hs₁, hin, hadd, hsame⟩ := initDataLoop_cons hs now (hnames ns (.head _)) rest
    obtain ⟨hok, hro, hall, hadd', hsame'⟩ := ih (fun n hn => hnames n (.tail _ hn)) hs₁
    dsimp only
    rw [heq]
    refine ⟨hok, hro, ?_, hadd.trans hadd', fun hp => ?_⟩
    · intro n hn
      rcases List.mem_cons.mp hn with rfl | hn
      · rw [hadd'.eq_of_isSome hin]; exact hin
      · exact hall n hn
    · obtain rfl := hsame (hp ns (.head _))
      exact hsame' fun n hn => hp n (.tail _ hn)

/-- **`InitData` on every store the handler's calls can reach**: it succeeds, both default
namespaces can be read back after it, it adds records only under their two names and changes
no record it finds, and a second run, at any time, changes nothing. -/
theorem InitData_adds_defaults {s : DB} (hs : RecordsOnly s.root) (now : Time) :
    InitDataSpec s (InitData specCodec NamespaceRecord.toSpec now s) := by
  have hnames : ∀ ns ∈ [defaultNamespace, polarisNamespace],
      ns = defaultNamespace ∨ ns = polarisNamespace := by simp
  obtain ⟨hok, hro, hall, hadd, -⟩ := initDataLoop_spec now _ hnames hs
  have hread : ∀ ns ∈ [defaultNamespace, polarisNamespace], ∃ obj, GetNamespace specCodec ns
      (InitData specCodec NamespaceRecord.toSpec now s).1.root = .ok (some obj) := by
    intro ns hns
    obtain ⟨o, hget, ho⟩ := GetNamespace_spec ns _
    rw [getBucket_isSome_of_recordsOnly hro, hall ns hns] at ho
    obtain ⟨obj, rfl⟩ := Option.isSome_iff_exists.mp ho
    exact ⟨obj, hget⟩
  exact ⟨hok, hread _ (.head _), hread _ (.tail _ (.head _)), hadd,
    fun now' => (initDataLoop_spec now' _ hnames hro).2.2.2.2 hall⟩

theorem InitData_adds_defaults_empty :
    RecordsOnly DB.empty.root ∧
      InitDataSpec DB.empty (InitData specCodec NamespaceRecord.toSpec ⟨0⟩ DB.empty) :=
  ⟨recordsOnly_run specCodec [], InitData_adds_defaults (recordsOnly_run specCodec []) ⟨0⟩⟩

/-! ## Over every run -/

section Run

variable (visit : Entries GoValue → Entries GoValue)

/-- **The run lemma**: every sequence of requests keeps the invariant. -/
theorem namespacesWellFormed_run (hvisit : ∀ m, (visit m).Perm m) (reqs : List NamespaceRequest)
    {s : DB} (hs : NamespacesWellFormed s.root) :
    NamespacesWellFormed
      (reqs.foldl (NamespaceRequest.apply specCodec NamespaceRecord.toSpec visit) s).root :=
  (keptByRequests_namespacesWellFormed visit hvisit).run reqs hs

/-- Every namespace `GetNamespace` reads from the store is valid, with a non-empty owner and
token. -/
def NamespacesReadOK (root : Bucket) : Prop :=
  ∀ name obj, GetNamespace specCodec name root = .ok (some obj) → NamespaceObjectOK obj

/-- **The namespace store's invariant**: from the empty store, after any sequence of requests
and whatever order `range` visits each update's properties in, every namespace `GetNamespace`
returns is valid and has a non-empty owner and token. -/
theorem namespaces_well_formed (hvisit : ∀ m, (visit m).Perm m) (reqs : List NamespaceRequest) :
    NamespacesReadOK
      (reqs.foldl (NamespaceRequest.apply specCodec NamespaceRecord.toSpec visit) DB.empty).root :=
  fun _ _ => namespaceObjectOK_GetNamespace
    (namespacesWellFormed_run visit hvisit reqs namespacesWellFormed_empty)

theorem namespaces_well_formed_in_order :
    (∀ m : Entries GoValue, (id m).Perm m) ∧
      NamespacesReadOK ([NamespaceRequest.initData ⟨0⟩].foldl
        (NamespaceRequest.apply specCodec NamespaceRecord.toSpec id) DB.empty).root :=
  ⟨fun m => .refl m, namespaces_well_formed id (fun m => .refl m) _⟩

end Run

/-! ## Updates are not upserts -/

/-- The names under which a sequence of requests may add a namespace: that of each
`AddNamespace`, and the two defaults for each `InitData`. -/
def addedNames : List NamespaceRequest → List Bytes
  | [] => []
  | .add ns :: reqs => ns.name :: addedNames reqs
  | .initData _ :: reqs => defaultNamespace :: polarisNamespace :: addedNames reqs
  | .update _ _ :: reqs => addedNames reqs
  | .updateToken _ _ _ :: reqs => addedNames reqs

section Upserts

variable {Rec Obj : Type} (c : Codec Rec Obj) (toRec : NamespaceRecord → Rec)
  (visit : Entries GoValue → Entries GoValue)

/-- A committed call leaves a namespace record only where there was one, or where it saves
one. -/
theorem isSome_getBucket_step {s : DB} {op : Op Rec} {name : Bytes}
    (h : (getBucket (s.step c op).root tblNameNamespace name).isSome) :
    (getBucket s.root tblNameNamespace name).isSome ∨
      ∃ value, op = .save tblNameNamespace name value := by
  rw [getBucket_eq, entryAt_step] at h
  rw [getBucket_eq]
  split_ifs at h with hn
  · cases op with
    | save typ key value =>
      obtain ⟨rfl, rfl⟩ := hn
      exact .inr ⟨value, rfl⟩
    | update typ key properties =>
      rcases Op.newEntry_update_cases c typ key properties (entryAt s.root tblNameNamespace name)
        with he | ⟨b, b', hb, -, -⟩
      · rw [he] at h
        exact .inl h
      · rw [hb]
        exact .inl rfl
    | delete typ keys =>
      rcases Op.newEntry_delete_cases c typ keys (entryAt s.root tblNameNamespace name) with he | he <;>
        rw [he] at h
      · exact .inl h
      · cases h
  · exact .inl h

/-- A call of the namespace store leaves a namespace record only where there was one, or where
the call saves one. -/
theorem isSome_getBucket_call {s : DB} {req : Except String (Op Rec)} {name : Bytes}
    (h : (getBucket (s.call c req).1.root tblNameNamespace name).isSome) :
    (getBucket s.root tblNameNamespace name).isSome ∨
      ∃ value, req = .ok (.save tblNameNamespace name value) := by
  cases req with
  | error _ => exact .inl h
  | ok op =>
    rcases isSome_getBucket_step c h with h | ⟨value, rfl⟩
    · exact .inl h
    · exact .inr ⟨value, rfl⟩

/-- An update adds no namespace. -/
theorem isSome_getBucket_update {s : DB} {req : Except String (Op Rec)} {name : Bytes}
    (hreq : ∀ op, req = .ok op → ∃ key properties, op = .update tblNameNamespace key properties)
    (h : (getBucket (s.call c req).1.root tblNameNamespace name).isSome) :
    (getBucket s.root tblNameNamespace name).isSome := by
  rcases isSome_getBucket_call c h with h | ⟨value, hv⟩
  · exact h
  · obtain ⟨_, _, he⟩ := hreq _ hv
    cases he

theorem isSome_getBucket_AddNamespace {s : DB} {ns : NamespaceRecord} {name : Bytes}
    (h : (getBucket (s.call c (AddNamespace toRec ns)).1.root tblNameNamespace name).isSome) :
    (getBucket s.root tblNameNamespace name).isSome ∨ name = ns.name := by
  refine (isSome_getBucket_call c h).imp_right fun ⟨value, hv⟩ => ?_
  unfold AddNamespace at hv
  split_ifs at hv
  cases hv
  rfl

theorem isSome_getBucket_initDataLoop (now : Time) (names : List Bytes) {s : DB} {name : Bytes}
    (h : (getBucket (initDataLoop c toRec now names s).1.root tblNameNamespace name).isSome) :
    (getBucket s.root tblNameNamespace name).isSome ∨ name ∈ names := by
  induction names generalizing s with
  | nil => exact .inl h
  | cons n rest ih =>
    simp only [initDataLoop] at h
    split at h
    · exact .inl h
    · exact (ih h).imp_right (List.mem_cons_of_mem n)
    · have hadd : (getBucket (s.call c (AddNamespace toRec (initNamespace now n))).1.root
          tblNameNamespace name).isSome →
          (getBucket s.root tblNameNamespace name).isSome ∨ name ∈ n :: rest := fun h' =>
        (isSome_getBucket_AddNamespace c toRec h').imp_right fun (he : name = n) => he ▸ .head _
      rcases hc : s.call c (AddNamespace toRec (initNamespace now n)) with ⟨s', _ | err⟩ <;>
        rw [hc] at h hadd
      · exact (ih h).elim hadd fun h' => .inr (.tail n h')
      · exact hadd h

/-- **The step lemma**: a request leaves a namespace record only where there was one, or under
a name it adds. -/
theorem isSome_getBucket_apply {s : DB} (req : NamespaceRequest) {name : Bytes}
    (h : (getBucket (req.apply c toRec visit s).root tblNameNamespace name).isSome) :
    (getBucket s.root tblNameNamespace name).isSome ∨ name ∈ addedNames [req] := by
  cases req with
  | add ns =>
    exact (isSome_getBucket_AddNamespace c toRec h).imp_right fun (he : name = ns.name) =>
      he ▸ .head _
  | update _ now | updateToken _ _ now =>
    refine .inl (isSome_getBucket_update c (fun op hop => ?_) h)
    simp only [UpdateNamespace, UpdateNamespaceToken] at hop
    split_ifs at hop
    cases hop
    exact ⟨_, _, rfl⟩
  | initData now => exact isSome_getBucket_initDataLoop c toRec now _ h

/-- **Updates are not upserts.**  After any sequence of requests from any store, every
namespace the store holds was held before, or is named by one of its `AddNamespace` requests,
or is a default namespace of one of its `InitData` requests: `UpdateNamespace` and
`UpdateNamespaceToken` never add a namespace, for every codec. -/
theorem updates_add_no_namespace (reqs : List NamespaceRequest) (s : DB) (name : Bytes)
    (h : (getBucket (reqs.foldl (NamespaceRequest.apply c toRec visit) s).root tblNameNamespace
      name).isSome) :
    (getBucket s.root tblNameNamespace name).isSome ∨ name ∈ addedNames reqs := by
  induction reqs generalizing s with
  | nil => exact .inl h
  | cons req rest ih =>
    have hsplit : addedNames (req :: rest) = addedNames [req] ++ addedNames rest := by
      cases req <;> rfl
    rw [hsplit, List.mem_append]
    rcases ih (req.apply c toRec visit s) h with h' | h'
    · exact (isSome_getBucket_apply c toRec visit req h').imp_right .inl
    · exact .inr (.inr h')

theorem updates_add_no_namespace_after_initData :
    (getBucket ([NamespaceRequest.initData ⟨0⟩,
        .update (initNamespace ⟨0⟩ defaultNamespace) ⟨1⟩].foldl
      (NamespaceRequest.apply specCodec NamespaceRecord.toSpec id) DB.empty).root tblNameNamespace
        defaultNamespace).isSome ∧
      ((getBucket DB.empty.root tblNameNamespace defaultNamespace).isSome ∨
        defaultNamespace ∈ addedNames [NamespaceRequest.initData ⟨0⟩,
          .update (initNamespace ⟨0⟩ defaultNamespace) ⟨1⟩]) :=
  have h : (getBucket ([NamespaceRequest.initData ⟨0⟩,
      .update (initNamespace ⟨0⟩ defaultNamespace) ⟨1⟩].foldl
    (NamespaceRequest.apply specCodec NamespaceRecord.toSpec id) DB.empty).root tblNameNamespace
      defaultNamespace).isSome := by rfl
  ⟨h, updates_add_no_namespace specCodec NamespaceRecord.toSpec id _ DB.empty _ h⟩

end Upserts

/-- An update of a namespace nobody added leaves the empty store without it. -/
example : getBucket ([NamespaceRequest.update (initNamespace ⟨0⟩ defaultNamespace) ⟨1⟩].foldl
    (NamespaceRequest.apply specCodec NamespaceRecord.toSpec id) DB.empty).root tblNameNamespace
      defaultNamespace = none := by
  rfl

end Polaris

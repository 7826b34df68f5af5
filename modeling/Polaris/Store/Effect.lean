import Polaris.Store.Handler

/-!
# What each write does to the record buckets

The three writes of the handler touch a store only through the record buckets they name.
This file says once, for each of them, what a call does, as a statement about
`entryAt db typ key` (the entry under `key` in the type bucket `typ`) and about the type
buckets:

* `saveValue_eq` — `SaveValue` fails on an empty name or over a flat entry, and otherwise
  replaces the record bucket by `freshRecord value`, whatever it held;
* `deleteValues_eq`, `entryAt_deleteRecords` — `DeleteValues` never fails and drops exactly
  the named record buckets that exist;
* `updateValue_eq` — `UpdateValue` returns the store unchanged unless the record bucket
  exists, and otherwise rewrites that bucket only.

`DB.step` commits a write or rolls it back, and keeps the store well formed.  Later files
derive their invariants and frame conditions from these statements.
-/

set_option autoImplicit false

namespace Polaris

open Entries

variable {Rec Obj : Type} (c : Codec Rec Obj)

/-! ## Record entries -/

/-- The entry under `key` in the type bucket `typ`: a record bucket, a stray flat value, or
nothing. -/
def entryAt (db : Bucket) (typ key : Bytes) : Option Node :=
  (db.bucket typ).bind fun typeBucket => typeBucket.lookup key

/-- The type bucket `typ`, empty when it does not exist. -/
def typeBucketOf (db : Bucket) (typ : Bytes) : Bucket := (db.bucket typ).getD []

/-- The root once the record bucket `key` of type `typ` holds `rb`. -/
def setRecord (db : Bucket) (typ key : Bytes) (rb : Bucket) : Bucket :=
  db.setBucket typ ((typeBucketOf db typ).setBucket key rb)

theorem bucket_setRecord (db rb : Bucket) (typ key t : Bytes) :
    (setRecord db typ key rb).bucket t =
      if typ = t then some ((typeBucketOf db typ).setBucket key rb) else db.bucket t :=
  Bucket.bucket_setBucket _ _ _ _

theorem entryAt_setRecord (db rb : Bucket) (typ key t k : Bytes) :
    entryAt (setRecord db typ key rb) t k =
      if typ = t ∧ key = k then some (.bucket rb) else entryAt db t k := by
  unfold entryAt
  rw [bucket_setRecord]
  by_cases ht : typ = t
  · subst ht
    simp only [if_true, true_and, Option.some_bind, Bucket.lookup_setBucket]
    split
    · rfl
    · unfold typeBucketOf; cases db.bucket typ <;> simp
  · simp [ht]

theorem entryAt_eq_bucket {db rb : Bucket} {typ key : Bytes} :
    entryAt db typ key = some (.bucket rb) ↔ getBucket db typ key = some rb := by
  unfold entryAt getBucket
  cases db.bucket typ <;> simp [Bucket.bucket_eq_some]

theorem getBucket_eq (db : Bucket) (typ key : Bytes) :
    getBucket db typ key = match entryAt db typ key with
      | some (.bucket rb) => some rb
      | _ => none := by
  unfold entryAt getBucket
  cases db.bucket typ <;> rfl

namespace DB

theorem ordered_root (s : DB) : Ordered s.root := Bucket.ordered_of_wf s.wf

/-- The root holds only buckets. -/
theorem lookup_root (s : DB) (typ : Bytes) :
    s.root.lookup typ = (s.root.bucket typ).map .bucket := by
  rcases h : s.root.lookup typ with _ | (v | tb)
  · simp [Bucket.bucket, h]
  · have := s.rootBuckets _ (List.of_mem_dlookup h); simp [Node.isBucket] at this
  · simp [Bucket.bucket, h]

theorem wf_typeBucket (s : DB) (typ : Bytes) : (Node.bucket (typeBucketOf s.root typ)).WF := by
  unfold typeBucketOf
  cases h : s.root.bucket typ with
  | none => exact Node.wf_empty
  | some tb => exact Bucket.wf_bucket s.wf h

theorem ordered_typeBucket (s : DB) (typ : Bytes) : Ordered (typeBucketOf s.root typ) :=
  Bucket.ordered_of_wf (s.wf_typeBucket typ)

theorem bucket_ext {s₁ s₂ : DB} {t : Bytes}
    (hb : (s₁.root.bucket t).isSome = (s₂.root.bucket t).isSome)
    (he : ∀ k, entryAt s₁.root t k = entryAt s₂.root t k) : s₁.root.bucket t = s₂.root.bucket t := by
  cases h₁ : s₁.root.bucket t <;> cases h₂ : s₂.root.bucket t <;> simp [h₁, h₂] at hb ⊢
  exact Entries.ext (Bucket.ordered_of_wf (Bucket.wf_bucket s₁.wf h₁))
    (Bucket.ordered_of_wf (Bucket.wf_bucket s₂.wf h₂)) fun k => by
      simpa [entryAt, h₁, h₂] using he k

/-- **Extensionality of stores**: the same type buckets and the same record entries. -/
theorem root_ext {s₁ s₂ : DB} (hb : ∀ t, (s₁.root.bucket t).isSome = (s₂.root.bucket t).isSome)
    (he : ∀ t k, entryAt s₁.root t k = entryAt s₂.root t k) : s₁.root = s₂.root :=
  Entries.ext s₁.ordered_root s₂.ordered_root fun t => by
    rw [lookup_root, lookup_root, bucket_ext (hb t) (he t)]

theorem ext {s₁ s₂ : DB} (h : s₁.root = s₂.root) : s₁ = s₂ := by
  cases s₁; cases s₂; cases h; rfl

end DB

/-! ## `SaveValue` -/

/-- What `SaveValue` makes the record bucket: `serializeObject` run on a new, empty bucket,
then the `Put` loop over the buffers it returns. -/
def freshRecord (value : Rec) : Except Err Bucket := do
  let (bucket, buffers) ← serializeObject c [] value
  liftBolt (bucket.putAll buffers)

/-- The type bucket as `CreateBucketIfNotExists` returns it, and a root that agrees with the
store wherever `SaveValue` writes. -/
theorem createType_eq (s : DB) {typ : Bytes} (htyp : typ ≠ []) :
    ∃ db₀, s.root.createBucketIfNotExists typ = .ok (typeBucketOf s.root typ, db₀) ∧
      ∀ x, db₀.setBucket typ x = s.root.setBucket typ x := by
  rcases h : s.root.bucket typ with _ | tb
  · have hl : s.root.lookup typ = none := by
      simpa [h] using s.lookup_root typ
    refine ⟨s.root.setBucket typ [], ?_, fun x => insert_insert s.ordered_root _ _ _⟩
    rw [Bucket.createBucketIfNotExists_eq_ok]
    exact ⟨htyp, .inr ⟨hl, by simp [typeBucketOf, h], rfl⟩⟩
  · refine ⟨s.root, ?_, fun _ => rfl⟩
    rw [Bucket.createBucketIfNotExists_eq_ok]
    exact ⟨htyp, .inl ⟨by simpa [typeBucketOf, h] using Bucket.bucket_eq_some.mp h, rfl⟩⟩

theorem freshRecord_bind (value : Rec) (f : Bucket → Bucket) :
    (do
      let (bucket, buffers) ← serializeObject c [] value
      let bucket ← liftBolt (bucket.putAll buffers)
      pure (f bucket) : Except Err Bucket) = (freshRecord c value).map f := by
  unfold freshRecord
  rcases serializeObject c [] value with e | ⟨b, bufs⟩
  · rfl
  · simp only [ok_bind]
    rcases liftBolt (b.putAll bufs) with e | b' <;> rfl

/-- **What `SaveValue` does**: fail on an empty name or over a flat entry, otherwise make the
record bucket `freshRecord value`, whatever it held. -/
theorem saveValue_eq (s : DB) (typ key : Bytes) (value : Rec) :
    SaveValue c typ key value s.root =
      if typ = [] ∨ key = [] then .error (.bolt .bucketNameRequired)
      else match entryAt s.root typ key with
        | some (.value _) => .error (.bolt .incompatibleValue)
        | _ => (freshRecord c value).map (setRecord s.root typ key) := by
  by_cases htyp : typ = []
  · subst htyp
    simp [SaveValue, Bucket.createBucketIfNotExists, Bucket.createBucket]
  obtain ⟨db₀, hc, hdb₀⟩ := createType_eq s htyp
  have hord := s.ordered_typeBucket typ
  have hentry : entryAt s.root typ key = (typeBucketOf s.root typ).lookup key := by
    unfold entryAt typeBucketOf; cases s.root.bucket typ <;> rfl
  rw [show setRecord s.root typ key =
    fun b => s.root.setBucket typ ((typeBucketOf s.root typ).setBucket key b) from rfl]
  simp only [SaveValue, hc, liftBolt_ok, ok_bind, htyp, false_or, hentry]
  generalize typeBucketOf s.root typ = tb at hord ⊢
  have hfin : ∀ tb₁ : Bucket, tb₁.insert key (.bucket []) = tb.insert key (.bucket []) →
      (fun b => db₀.setBucket typ (Bucket.setBucket (tb₁.insert key (.bucket [])) key b)) =
        fun b => s.root.setBucket typ (tb.setBucket key b) := fun tb₁ he => by
    funext b
    rw [hdb₀, he]; unfold Bucket.setBucket; rw [insert_insert hord]
  by_cases hkey : key = []
  · subst hkey
    rcases hl : tb.lookup [] with _ | (v | rb₀) <;>
      simp [Bucket.bucket, hl, Bucket.deleteBucket, Bucket.createBucket]
  rcases hl : tb.lookup key with _ | (v | rb₀)
  · simp only [Bucket.bucket, hl, Bucket.createBucket, hkey, if_false, liftBolt_ok, ok_bind,
      pure_bind, freshRecord_bind, hfin tb rfl]
  · simp [Bucket.bucket, hl, Bucket.createBucket, hkey]
  · simp only [Bucket.bucket, hl, Bucket.deleteBucket, Bucket.createBucket, hkey, if_false,
      liftBolt_ok, ok_bind, lookup_erase_self hord, freshRecord_bind,
      hfin _ (insert_erase hord _ _)]

/-! ## `DeleteValues` -/

/-- `deleteValues`' loop over the type bucket: drop each named key that holds a bucket. -/
def dropBuckets (keys : List Bytes) (typeBucket : Bucket) : Bucket :=
  keys.foldl (fun tb key => if (tb.bucket key).isSome then tb.erase key else tb) typeBucket

/-- The root once the record buckets of `keys` under `typ` are dropped. -/
def deleteRecords (db : Bucket) (typ : Bytes) (keys : List Bytes) : Bucket :=
  match db.bucket typ with
  | none => db
  | some typeBucket => db.setBucket typ (dropBuckets keys typeBucket)

theorem deleteLoop_eq (keys : List Bytes) (tb : Bucket) :
    keys.foldlM deleteStep tb = .ok (dropBuckets keys tb) := by
  induction keys generalizing tb with
  | nil => rfl
  | cons key keys ih =>
    simp only [List.foldlM_cons, dropBuckets, List.foldl_cons, deleteStep]
    rcases h : tb.bucket key with _ | c
    · simpa [h] using ih tb
    · have hd : tb.deleteBucket key = .ok (tb.erase key) :=
        Bucket.deleteBucket_eq_ok.mpr ⟨⟨c, Bucket.bucket_eq_some.mp h⟩, rfl⟩
      simpa [h, hd] using ih (tb.erase key)

theorem ordered_dropBuckets {tb : Bucket} (h : Ordered tb) (keys : List Bytes) :
    Ordered (dropBuckets keys tb) := by
  induction keys generalizing tb with
  | nil => exact h
  | cons key keys ih =>
    simp only [dropBuckets, List.foldl_cons]
    exact ih (by split <;> [exact h.erase key; exact h])

theorem wf_dropBuckets {tb : Bucket} (h : (Node.bucket tb).WF) (keys : List Bytes) :
    (Node.bucket (dropBuckets keys tb)).WF := by
  induction keys generalizing tb with
  | nil => exact h
  | cons key keys ih =>
    simp only [dropBuckets, List.foldl_cons]
    exact ih (by split <;> [exact Bucket.wf_erase h key; exact h])

theorem lookup_dropBuckets {tb : Bucket} (h : Ordered tb) (keys : List Bytes) (k : Bytes) :
    (dropBuckets keys tb).lookup k =
      if k ∈ keys ∧ (tb.bucket k).isSome then none else tb.lookup k := by
  induction keys generalizing tb with
  | nil => simp [dropBuckets]
  | cons key keys ih =>
    simp only [dropBuckets, List.foldl_cons] at ih ⊢
    by_cases hb : (tb.bucket key).isSome
    · rw [if_pos hb, ih (h.erase key)]
      by_cases hk : k = key
      · subst hk; simp [lookup_erase_self h, Bucket.bucket_erase_self h, hb]
      · simp [hk, lookup_erase_ne tb (Ne.symm hk), Bucket.bucket_erase_ne tb (Ne.symm hk)]
    · rw [if_neg hb, ih h]
      by_cases hk : k = key
      · subst hk; simp [hb]
      · simp [hk]

/-- **What `DeleteValues` does**: it never fails, and drops the named record buckets. -/
theorem deleteValues_eq (s : DB) (typ : Bytes) (keys : List Bytes) :
    DeleteValues typ keys s.root = .ok (deleteRecords s.root typ keys) := by
  unfold DeleteValues deleteValues deleteRecords
  split
  · rename_i hk; subst hk
    rcases h : s.root.bucket typ with _ | tb
    · rfl
    · exact congrArg Except.ok
        (insert_of_lookup s.ordered_root (by simpa [h] using s.lookup_root typ)).symm
  · rcases s.root.bucket typ with _ | tb
    · rfl
    · simp only [deleteLoop_eq, ok_bind]; rfl

theorem bucket_deleteRecords (db : Bucket) (typ t : Bytes) (keys : List Bytes) :
    (deleteRecords db typ keys).bucket t =
      if typ = t then (db.bucket t).map (dropBuckets keys) else db.bucket t := by
  unfold deleteRecords
  by_cases ht : typ = t
  · subst ht; cases h : db.bucket typ <;> simp [h, Bucket.bucket_setBucket]
  · cases h : db.bucket typ <;> simp [h, ht, Bucket.bucket_setBucket]

theorem entryAt_deleteRecords (s : DB) (typ t k : Bytes) (keys : List Bytes) :
    entryAt (deleteRecords s.root typ keys) t k =
      if typ = t ∧ k ∈ keys ∧ (getBucket s.root t k).isSome then none else entryAt s.root t k := by
  unfold entryAt getBucket
  rw [bucket_deleteRecords]
  by_cases ht : typ = t
  · subst ht
    rcases h : s.root.bucket typ with _ | tb
    · simp
    · simp [lookup_dropBuckets (Bucket.ordered_of_wf (Bucket.wf_bucket s.wf h))]
  · simp [ht]

/-! ## `UpdateValue` -/

/-- `UpdateValue`'s loop over the record bucket. -/
def updateFields (properties : List (Bytes × GoValue)) (bucket : Bucket) : Except Err Bucket :=
  properties.foldlM (fun b p => updateProperty c b p.1 p.2) bucket

/-- **What `UpdateValue` does**: nothing unless the record bucket exists; then the loop runs
over that bucket alone. -/
theorem updateValue_eq (s : DB) (typ key : Bytes) (properties : List (Bytes × GoValue)) :
    UpdateValue c typ key properties s.root =
      match getBucket s.root typ key with
      | none => .ok s.root
      | some bucket =>
        if properties = [] then .ok s.root
        else (updateFields c properties bucket).map (setRecord s.root typ key) := by
  unfold UpdateValue getBucket
  rcases h : s.root.bucket typ with _ | tb
  · rfl
  · dsimp only [Option.some_bind]
    rcases tb.bucket key with _ | b
    · rfl
    · dsimp only
      split
      · rfl
      · have ht : typeBucketOf s.root typ = tb := by simp [typeBucketOf, h]
        unfold updateFields
        generalize List.foldlM (fun b p => updateProperty c b p.1 p.2) b properties = r
        cases r
        · rfl
        · simp [setRecord, ht]

/-! ## Well-formedness -/

theorem wf_encodeRawMap {b b' : Bucket} (hb : (Node.bucket b).WF) {name : Bytes}
    {m : Option (List (Bytes × Bytes))} (h : encodeRawMap b name m = .ok b') :
    (Node.bucket b').WF := by
  unfold encodeRawMap at h
  split at h
  · cases h; exact hb
  · cases h; exact hb
  · obtain ⟨⟨child, parent⟩, hc, h⟩ := bind_eq_ok.mp h
    obtain ⟨child', hp, h⟩ := bind_eq_ok.mp h
    cases h
    obtain ⟨-, hcase⟩ := Bucket.createBucketIfNotExists_eq_ok.mp (liftBolt_eq_ok.mp hc)
    have hw : (Node.bucket child).WF ∧ (Node.bucket parent).WF := by
      rcases hcase with ⟨hl, rfl⟩ | ⟨-, rfl, rfl⟩
      · exact ⟨Bucket.wf_of_lookup hb hl, hb⟩
      · exact ⟨Node.wf_empty, Bucket.wf_setBucket hb _ Node.wf_empty⟩
    exact Bucket.wf_setBucket hw.2 _ (Bucket.wf_putAll hw.1 (liftBolt_eq_ok.mp hp))

theorem wf_encodeRawMaps {b b' : Bucket} (hb : (Node.bucket b).WF)
    {maps : List (Bytes × List (Bytes × Bytes))}
    (h : maps.foldlM (fun b m => encodeRawMap b m.1 (some m.2)) b = .ok b') :
    (Node.bucket b').WF := by
  induction maps generalizing b with
  | nil => cases h; exact hb
  | cons m ms ih =>
    obtain ⟨b₁, h₁, h⟩ := bind_eq_ok.mp h
    exact ih (wf_encodeRawMap hb h₁) h

theorem wf_serializeObject {b b' : Bucket} (hb : (Node.bucket b).WF) {value : Rec}
    {buffers : List (Bytes × Bytes)} (h : serializeObject c b value = .ok (b', buffers)) :
    (Node.bucket b').WF := by
  unfold serializeObject at h
  rcases hf : c.serializeFields value with e | ⟨maps, flat⟩ <;>
    simp only [hf, error_bind, ok_bind, reduceCtorEq] at h
  rcases hm : maps.foldlM (fun b m => encodeRawMap b m.1 (some m.2)) b with e | b₁ <;>
    simp only [hm, error_bind, ok_bind, reduceCtorEq] at h
  cases h
  exact wf_encodeRawMaps hb hm

theorem wf_freshRecord {value : Rec} {rb : Bucket} (h : freshRecord c value = .ok rb) :
    (Node.bucket rb).WF := by
  unfold freshRecord at h
  rcases hs : serializeObject c [] value with e | ⟨b, bufs⟩ <;>
    simp only [hs, error_bind, ok_bind, reduceCtorEq] at h
  exact Bucket.wf_putAll (wf_serializeObject c Node.wf_empty hs) (liftBolt_eq_ok.mp h)

theorem wf_updateFields {b b' : Bucket} (hb : (Node.bucket b).WF)
    {properties : List (Bytes × GoValue)} (h : updateFields c properties b = .ok b') :
    (Node.bucket b').WF := by
  induction properties generalizing b with
  | nil => cases h; exact hb
  | cons p ps ih =>
    obtain ⟨b₁, h₁, h⟩ := bind_eq_ok.mp h
    obtain ⟨w, -, hw⟩ := bind_eq_ok.mp h₁
    refine ih ?_ h
    cases w with
    | put buf => exact Bucket.wf_put hb (liftBolt_eq_ok.mp hw)
    | rawMap m => exact wf_encodeRawMap hb hw
    | skip => cases hw; exact hb

theorem DB.wf_setRecord (s : DB) {rb : Bucket} (hrb : (Node.bucket rb).WF) (typ key : Bytes) :
    (Node.bucket (setRecord s.root typ key rb)).WF ∧
      ∀ e ∈ setRecord s.root typ key rb, e.2.isBucket :=
  ⟨Bucket.wf_setBucket s.wf _ (Bucket.wf_setBucket (s.wf_typeBucket typ) _ hrb),
    fun e he => (mem_insert he).elim (fun h => h ▸ rfl) (s.rootBuckets e)⟩

theorem DB.wf_deleteRecords (s : DB) (typ : Bytes) (keys : List Bytes) :
    (Node.bucket (deleteRecords s.root typ keys)).WF ∧
      ∀ e ∈ deleteRecords s.root typ keys, e.2.isBucket := by
  unfold deleteRecords
  rcases h : s.root.bucket typ with _ | tb
  · exact ⟨s.wf, s.rootBuckets⟩
  · exact ⟨Bucket.wf_setBucket s.wf _ (wf_dropBuckets (Bucket.wf_bucket s.wf h) keys),
      fun e he => (mem_insert he).elim (fun h => h ▸ rfl) (s.rootBuckets e)⟩

theorem DB.wf_getBucket (s : DB) {typ key : Bytes} {b : Bucket}
    (h : getBucket s.root typ key = some b) : (Node.bucket b).WF := by
  unfold getBucket at h
  rcases htb : s.root.bucket typ with _ | tb <;>
    simp only [htb, Option.none_bind, Option.some_bind, reduceCtorEq] at h
  exact Bucket.wf_bucket (Bucket.wf_bucket s.wf htb) h

/-! ## One committed write -/

/-- A write call of the handler. -/
inductive Op (Rec : Type) where
  | save (typ key : Bytes) (value : Rec)
  | update (typ key : Bytes) (properties : List (Bytes × GoValue))
  | delete (typ : Bytes) (keys : List Bytes)

/-- Run a write call on the root of a write transaction. -/
def Op.exec : Op Rec → Bucket → Except Err Bucket
  | .save typ key value => SaveValue c typ key value
  | .update typ key properties => UpdateValue c typ key properties
  | .delete typ keys => DeleteValues typ keys

theorem Op.exec_wf (s : DB) (op : Op Rec) {db' : Bucket} (h : op.exec c s.root = .ok db') :
    (Node.bucket db').WF ∧ ∀ e ∈ db', e.2.isBucket := by
  cases op with
  | save typ key value =>
    simp only [Op.exec, saveValue_eq] at h
    split_ifs at h
    split at h
    · cases h
    · obtain ⟨rb, hrb, rfl⟩ : ∃ rb, freshRecord c value = .ok rb ∧ setRecord s.root typ key rb = db' := by
        cases hf : freshRecord c value <;> simp_all
      exact s.wf_setRecord (wf_freshRecord c hrb) typ key
  | update typ key properties =>
    simp only [Op.exec, updateValue_eq] at h
    split at h
    · cases h; exact ⟨s.wf, s.rootBuckets⟩
    · rename_i b hb
      split_ifs at h
      · cases h; exact ⟨s.wf, s.rootBuckets⟩
      · obtain ⟨b', hb', rfl⟩ : ∃ b', updateFields c properties b = .ok b' ∧
            setRecord s.root typ key b' = db' := by
          cases hf : updateFields c properties b <;> simp_all
        exact s.wf_setRecord (wf_updateFields c (s.wf_getBucket hb) hb') typ key
  | delete typ keys =>
    simp only [Op.exec, deleteValues_eq] at h
    cases h; exact s.wf_deleteRecords typ keys

/-- The store after one write call: committed on success, rolled back on failure. -/
def DB.step (s : DB) (op : Op Rec) : DB :=
  match h : op.exec c s.root with
  | .ok db' => ⟨db', (Op.exec_wf c s op h).1, (Op.exec_wf c s op h).2⟩
  | .error _ => s

theorem DB.step_root (s : DB) (op : Op Rec) :
    (s.step c op).root = commit s.root (op.exec c s.root) := by
  unfold DB.step
  split <;> simp_all [commit]

end Polaris

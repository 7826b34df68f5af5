import Polaris.Store.Effect
import Polaris.Store.SpecCodec

/-!
# The loads: `LoadValues`, `LoadValuesAll`, `LoadValuesByFilter`, `IterateFields`

The three loads and `IterateFields` run one loop, `forEachBucket`, with different bodies.  We
say once what the loop does with a body of each shape:

* `keepBody f` — the loads: add the record under its key when `f` keeps it;
  `lookup_forEachBucket_keep` says what the result holds under each key;
* `callBody g cb` — `IterateFields`: call the callback on what `g` reads of the record;
  `forEachBucket_callBody` says the calls are one per visited record bucket, in key order;
* `forEachBucket_error` — a failed loop failed in its body, on a key naming a bucket.

Each load is then an instance (`loadValues_eq`, `LoadValuesAll_eq`, `loadValuesByFilter_eq`,
`IterateFields_eq`), and its result is described key by key.  The principal results:

* `loadValues_restricts_loadValuesAll` — `LoadValues(K)` fails only on a record it decodes,
  omits every key without a record bucket, and is `LoadValuesAll` restricted to `K`;
* `loadValuesByFilter_refines_loadValuesAll` — `LoadValuesByFilter` is `LoadValuesAll`
  restricted to the records whose requested fields satisfy the predicate, and never decodes
  a record the predicate rejects;
* `missing_field_reaches_filter` — a field a record does not hold still reaches the
  predicate of `matchObject`, as a nil `map[string]string`.
-/

set_option autoImplicit false

namespace Polaris

open Entries

variable {Rec Obj : Type} (c : Codec Rec Obj)

/-! ## The shared loop -/

section Loop

variable {α β γ : Type} (lookupBucket : Bytes → Option Bucket)

/-- The loop body of the loads: store what `f` keeps of the record under its key. -/
def keepBody (f : Bucket → Except Err (Option β)) (key : Bytes) (bucket : Bucket)
    (values : Entries β) : Except Err (Entries β) :=
  (f bucket).map fun o => match o with
    | none => values
    | some x => values.insert key x

/-- The loop body of `IterateFields`: call `cb` on what `g` reads of the record. -/
def callBody (g : Bucket → Except Err γ) (cb : γ → β) (_key : Bytes) (bucket : Bucket)
    (calls : List β) : Except Err (List β) :=
  (g bucket).map fun v => calls ++ [cb v]

/-- A failed loop failed in its body, on a key that names a bucket. -/
theorem forEachBucket_error {body : Bytes → Bucket → α → Except Err α} {keys : List Bytes}
    {acc : α} {e : Err} (h : forEachBucket lookupBucket body keys acc = .error e) :
    ∃ key ∈ keys, ∃ bucket acc', lookupBucket key = some bucket ∧
      body key bucket acc' = .error e := by
  induction keys generalizing acc with
  | nil => cases h
  | cons key keys ih =>
    simp only [forEachBucket] at h
    split at h
    · obtain ⟨k, hk, rest⟩ := ih h
      exact ⟨k, .tail _ hk, rest⟩
    · rename_i bucket hb
      cases hbody : body key bucket acc with
      | error e' =>
        simp only [hbody, error_bind, Except.error.injEq] at h
        exact ⟨key, .head _, bucket, acc, hb, h ▸ hbody⟩
      | ok acc' =>
        simp only [hbody, ok_bind] at h
        obtain ⟨k, hk, rest⟩ := ih h
        exact ⟨k, .tail _ hk, rest⟩

/-- A successful loop ran its body successfully on every key naming a bucket. -/
theorem forEachBucket_ok_of_mem {body : Bytes → Bucket → α → Except Err α} {keys : List Bytes}
    {acc r : α} (h : forEachBucket lookupBucket body keys acc = .ok r) {key : Bytes}
    (hk : key ∈ keys) {bucket : Bucket} (hb : lookupBucket key = some bucket) :
    ∃ acc' r', body key bucket acc' = .ok r' := by
  induction keys generalizing acc with
  | nil => cases hk
  | cons key' keys ih =>
    simp only [forEachBucket] at h
    split at h
    · rename_i hb'
      rcases List.mem_cons.mp hk with rfl | hk
      · simp [hb] at hb'
      · exact ih h hk
    · rename_i bucket' hb'
      cases hbody : body key' bucket' acc with
      | error e => simp [hbody] at h
      | ok acc' =>
        simp only [hbody, ok_bind] at h
        rcases List.mem_cons.mp hk with rfl | hk
        · rw [hb] at hb'; cases hb'; exact ⟨acc, acc', hbody⟩
        · exact ih h hk

theorem ordered_forEachBucket_keep {f : Bucket → Except Err (Option β)} {keys : List Bytes}
    {acc m : Entries β} (hacc : Ordered acc)
    (h : forEachBucket lookupBucket (keepBody f) keys acc = .ok m) : Ordered m := by
  induction keys generalizing acc with
  | nil => cases h; exact hacc
  | cons key keys ih =>
    simp only [forEachBucket] at h
    split at h
    · exact ih hacc h
    · rcases hf : f ‹Bucket› with _ | (_ | x) <;> simp only [keepBody, hf, map_error, map_ok,
        error_bind, ok_bind, reduceCtorEq] at h
      · exact ih hacc h
      · exact ih (hacc.insert key x) h

/-- **What a load's loop keeps under a key**: the value `f` keeps of the key's record bucket
when the key was visited and names one, and otherwise what the map held before. -/
theorem lookup_forEachBucket_keep {f : Bucket → Except Err (Option β)} {keys : List Bytes}
    {acc m : Entries β} (h : forEachBucket lookupBucket (keepBody f) keys acc = .ok m)
    (k : Bytes) :
    m.lookup k = (if k ∈ keys then (lookupBucket k).bind fun b => (f b).toOption.join
      else none).or (acc.lookup k) := by
  induction keys generalizing acc with
  | nil => cases h; simp
  | cons key keys ih =>
    simp only [forEachBucket] at h
    split at h
    · rename_i hb
      rw [ih h]
      by_cases hk : k = key
      · subst hk; simp [hb]
      · simp [hk]
    · rename_i b hb
      rcases hf : f b with _ | (_ | x) <;> simp only [keepBody, hf, map_error, map_ok,
        error_bind, ok_bind, reduceCtorEq] at h
      · rw [ih h]
        by_cases hk : k = key
        · subst hk; by_cases hm : k ∈ keys <;> simp [hb, hf, hm]
        · simp [hk]
      · rw [ih h]
        by_cases hk : k = key
        · subst hk; by_cases hm : k ∈ keys <;> simp [hb, hf, hm]
        · simp [hk, lookup_insert_ne _ _ (Ne.symm hk)]

/-- **The calls of `IterateFields`' loop**: one per visited key naming a bucket, in the order
of the keys, each on what `g` read of that bucket. -/
theorem forEachBucket_callBody {g : Bucket → Except Err γ} {cb : γ → β} {keys : List Bytes}
    {acc outs : List β} (h : forEachBucket lookupBucket (callBody g cb) keys acc = .ok outs) :
    ∃ vs, outs = acc ++ vs.map cb ∧
      List.Forall₂ (fun k v => ∃ b, lookupBucket k = some b ∧ g b = .ok v)
        (keys.filter fun k => (lookupBucket k).isSome) vs := by
  induction keys generalizing acc with
  | nil => cases h; exact ⟨[], by simp, .nil⟩
  | cons key keys ih =>
    simp only [forEachBucket] at h
    split at h
    · rename_i hb
      simpa [hb] using ih h
    · rename_i b hb
      rcases hg : g b with _ | v <;> simp only [callBody, hg, map_error, map_ok, error_bind,
        ok_bind, reduceCtorEq] at h
      obtain ⟨vs, rfl, hvs⟩ := ih h
      refine ⟨v :: vs, by simp, ?_⟩
      rw [List.filter_cons_of_pos (by simp [hb])]
      exact .cons ⟨b, hb, hg⟩ hvs

end Loop

/-! ## The loads as instances of the loop -/

theorem getKeys_eq (b : Bucket) : getKeys b = b.keys := by
  simp [getKeys, Bucket.forEach, List.keys]

/-- A key that is not among a bucket's keys names no bucket in it. -/
theorem ite_mem_getKeys {β : Type} (tb : Bucket) (k : Bytes) (f : Bucket → Option β) :
    (if k ∈ getKeys tb then (tb.bucket k).bind f else none) = (tb.bucket k).bind f := by
  split_ifs with hk
  · rfl
  · rw [getKeys_eq, ← lookup_isSome_iff] at hk
    simp [Bucket.bucket, Option.not_isSome_iff_eq_none.mp hk]

/-- What `LoadValues` and `LoadValuesAll` keep of a record bucket: the decoded object. -/
def decodeRecord (typObject : Proto) (bucket : Bucket) : Except Err (Option Obj) :=
  (c.deserializeObject bucket typObject).map some

/-- What `loadValuesByFilter` keeps of a record bucket: the decoded object when `matchObject`
accepts the record, nothing when it does not. -/
def filterRecord (fields : List Bytes) (typObject : Proto) (filter : Option (FieldMap → Bool))
    (bucket : Bucket) : Except Err (Option Obj) := do
  let matchResult ← matchObject c bucket fields typObject filter
  if !matchResult then pure none
  else (c.deserializeObject bucket typObject).map some

@[simp] theorem toOption_decodeRecord (typObject : Proto) (bucket : Bucket) :
    ((decodeRecord c typObject bucket).toOption.bind fun o => o) =
      (c.deserializeObject bucket typObject).toOption := by
  unfold decodeRecord; cases c.deserializeObject bucket typObject <;> rfl

theorem loadValues_eq (db : Bucket) (typ : Bytes) (keys : List Bytes) (typObject : Proto) :
    loadValues c db typ keys typObject =
      forEachBucket (getBucket db typ) (keepBody (decodeRecord c typObject)) keys [] := by
  unfold loadValues keepBody decodeRecord
  congr; funext key bucket values
  cases c.deserializeObject bucket typObject <;> rfl

theorem LoadValuesAll_eq (typ : Bytes) (typObject : Proto) (db : Bucket) :
    LoadValuesAll c typ typObject db = match db.bucket typ with
      | none => .ok []
      | some typeBucket => forEachBucket typeBucket.bucket
          (keepBody (decodeRecord c typObject)) (getKeys typeBucket) [] := by
  unfold LoadValuesAll keepBody decodeRecord
  rcases db.bucket typ with _ | typeBucket
  · rfl
  · dsimp only
    split_ifs with h
    · rw [h]; rfl
    · congr; funext key bucket values
      cases c.deserializeObject bucket typObject <;> rfl

theorem loadValuesByFilter_eq (db : Bucket) (typ : Bytes) (fields : List Bytes)
    (typObject : Proto) (filter : Option (FieldMap → Bool)) :
    loadValuesByFilter c db typ fields typObject filter = match db.bucket typ with
      | none => .ok []
      | some typeBucket => forEachBucket typeBucket.bucket
          (keepBody (filterRecord c fields typObject filter)) (getKeys typeBucket) [] := by
  unfold loadValuesByFilter keepBody filterRecord
  rcases db.bucket typ with _ | typeBucket
  · rfl
  · dsimp only
    split_ifs with h
    · rw [h]; rfl
    · congr; funext key bucket values
      rcases matchObject c bucket fields typObject filter with _ | (_ | _)
      · rfl
      · rfl
      · cases c.deserializeObject bucket typObject <;> rfl

theorem IterateFields_eq {β : Type} (typ field : Bytes) (typObject : Proto)
    (filter : GoValue → β) (db : Bucket) :
    IterateFields c typ field typObject (some filter) db = match db.bucket typ with
      | none => .ok []
      | some typeBucket => forEachBucket typeBucket.bucket
          (callBody (getFieldObject c · typObject field) filter) (getKeys typeBucket) [] := by
  unfold IterateFields callBody
  rcases db.bucket typ with _ | typeBucket
  · rfl
  · dsimp only
    split_ifs with h
    · rw [h]; rfl
    · rfl

/-! ## What each load returns -/

section Results

variable {db : Bucket} {typ : Bytes} {typObject : Proto}

theorem keepBody_error {β : Type} {f : Bucket → Except Err (Option β)} {key : Bytes}
    {bucket : Bucket} {values : Entries β} {e : Err}
    (h : keepBody f key bucket values = .error e) : f bucket = .error e := by
  unfold keepBody at h; cases hf : f bucket <;> simp_all

theorem lookup_loadValues {keys : List Bytes} {m : Entries Obj}
    (h : loadValues c db typ keys typObject = .ok m) (k : Bytes) :
    m.lookup k = if k ∈ keys then
      (getBucket db typ k).bind fun b => (c.deserializeObject b typObject).toOption else none := by
  rw [loadValues_eq] at h
  rw [lookup_forEachBucket_keep _ h]
  split <;> simp

theorem ordered_loadValues {keys : List Bytes} {m : Entries Obj}
    (h : loadValues c db typ keys typObject = .ok m) : Ordered m := by
  rw [loadValues_eq] at h; exact ordered_forEachBucket_keep _ ordered_nil h

theorem loadValues_error {keys : List Bytes} {e : Err}
    (h : loadValues c db typ keys typObject = .error e) :
    ∃ k ∈ keys, ∃ b, getBucket db typ k = some b ∧ c.deserializeObject b typObject = .error e := by
  rw [loadValues_eq] at h
  obtain ⟨k, hk, b, _, hb, he⟩ := forEachBucket_error _ h
  have := keepBody_error he
  unfold decodeRecord at this
  exact ⟨k, hk, b, hb, by cases hd : c.deserializeObject b typObject <;> simp_all⟩

/-- The records `LoadValuesAll` returns: every record bucket of the type, decoded. -/
theorem lookup_LoadValuesAll {m : Entries Obj} (h : LoadValuesAll c typ typObject db = .ok m)
    (k : Bytes) :
    m.lookup k = (getBucket db typ k).bind fun b => (c.deserializeObject b typObject).toOption := by
  rw [LoadValuesAll_eq] at h
  unfold getBucket
  split at h
  · rename_i hb; cases h; simp [hb]
  · rename_i tb hb
    rw [lookup_forEachBucket_keep _ h, ite_mem_getKeys]
    simp [hb]

/-- A successful `LoadValuesAll` holds exactly the keys of the record buckets of the type. -/
theorem isSome_lookup_LoadValuesAll {m : Entries Obj}
    (h : LoadValuesAll c typ typObject db = .ok m) (k : Bytes) :
    (m.lookup k).isSome = (getBucket db typ k).isSome := by
  rw [lookup_LoadValuesAll c h]
  rcases hb : getBucket db typ k with _ | b
  · rfl
  · rw [LoadValuesAll_eq] at h
    unfold getBucket at hb
    split at h
    · simp_all
    · rename_i tb htb
      have hk : k ∈ getKeys tb := by
        rw [getKeys_eq, ← lookup_isSome_iff]
        simp [htb, Bucket.bucket_eq_some] at hb
        simp [hb]
      obtain ⟨_, _, hok⟩ := forEachBucket_ok_of_mem _ h hk (by simpa [htb] using hb)
      unfold keepBody decodeRecord at hok
      cases hd : c.deserializeObject b typObject <;> simp_all

theorem ordered_LoadValuesAll {m : Entries Obj} (h : LoadValuesAll c typ typObject db = .ok m) :
    Ordered m := by
  rw [LoadValuesAll_eq] at h
  split at h
  · cases h; exact ordered_nil
  · exact ordered_forEachBucket_keep _ ordered_nil h

theorem lookup_loadValuesByFilter {fields : List Bytes} {filter : Option (FieldMap → Bool)}
    {m : Entries Obj} (h : loadValuesByFilter c db typ fields typObject filter = .ok m)
    (k : Bytes) :
    m.lookup k = (getBucket db typ k).bind fun b =>
      (filterRecord c fields typObject filter b).toOption.join := by
  rw [loadValuesByFilter_eq] at h
  unfold getBucket
  split at h
  · rename_i hb; cases h; simp [hb]
  · rename_i tb hb
    rw [lookup_forEachBucket_keep _ h, ite_mem_getKeys]
    simp [hb]

theorem ordered_loadValuesByFilter {fields : List Bytes} {filter : Option (FieldMap → Bool)}
    {m : Entries Obj} (h : loadValuesByFilter c db typ fields typObject filter = .ok m) :
    Ordered m := by
  rw [loadValuesByFilter_eq] at h
  split at h
  · cases h; exact ordered_nil
  · exact ordered_forEachBucket_keep _ ordered_nil h

theorem loadValuesByFilter_error {fields : List Bytes} {filter : Option (FieldMap → Bool)}
    {e : Err} (h : loadValuesByFilter c db typ fields typObject filter = .error e) :
    ∃ k b, getBucket db typ k = some b ∧ filterRecord c fields typObject filter b = .error e := by
  rw [loadValuesByFilter_eq] at h
  unfold getBucket
  split at h
  · cases h
  · rename_i tb hb
    obtain ⟨k, -, b, _, hkb, he⟩ := forEachBucket_error _ h
    exact ⟨k, b, by simp [hb, hkb], keepBody_error he⟩

end Results

/-! ## `LoadValues` against `LoadValuesAll` -/

/-- **`LoadValues` is `LoadValuesAll` restricted to the keys asked for.**  It fails only when
decoding the record bucket of a key asked for fails, never because a key or the type bucket is
absent; it holds no key without a record bucket; and when `LoadValuesAll` succeeds too, it is
that map restricted to `keys`, duplicates and all. -/
theorem loadValues_restricts_loadValuesAll (db : Bucket) (typ : Bytes) (keys : List Bytes)
    (typObject : Proto) :
    (∀ e, LoadValues c typ keys typObject db = .error e →
      ∃ k ∈ keys, ∃ b, getBucket db typ k = some b ∧
        c.deserializeObject b typObject = .error e) ∧
    ∀ m, LoadValues c typ keys typObject db = .ok m →
      (∀ k, getBucket db typ k = none → m.lookup k = none) ∧
      ∀ all, LoadValuesAll c typ typObject db = .ok all →
        m = all.filter fun e => decide (e.1 ∈ keys) := by
  have hL : LoadValues c typ keys typObject db = loadValues c db typ keys typObject := by
    unfold LoadValues; split_ifs with h
    · subst h; rfl
    · rfl
  rw [hL]
  refine ⟨fun e h => loadValues_error c h, fun m h => ⟨fun k hk => ?_, fun all hall => ?_⟩⟩
  · simp [lookup_loadValues c h, hk]
  · refine Entries.ext (ordered_loadValues c h)
      ((ordered_LoadValuesAll c hall).filter fun k => decide (k ∈ keys)) fun k => ?_
    rw [lookup_loadValues c h, lookup_filter (fun k => decide (k ∈ keys)),
      lookup_LoadValuesAll c hall]
    simp

/-! ## `LoadValuesByFilter` against `LoadValuesAll` -/

/-- Whether the requested fields of the record bucket `b`, collected as `matchObject` collects
them, satisfy the predicate `p`. -/
def passesFilter (b : Bucket) (fields : List Bytes) (typObject : Proto) (p : FieldMap → Bool) :
    Bool :=
  (fieldValuesOf c b typObject fields []).toOption.any p

@[simp] theorem passesFilter_false (b : Bucket) (fields : List Bytes) (typObject : Proto) :
    passesFilter c b fields typObject (fun _ => false) = false := by
  unfold passesFilter; cases (fieldValuesOf c b typObject fields []).toOption <;> rfl

theorem fieldValuesOf_error {b : Bucket} {typObject : Proto} {fields : List Bytes}
    {m : FieldMap} {e : Err} (h : fieldValuesOf c b typObject fields m = .error e) :
    ∃ f ∈ fields, getFieldObject c b typObject f = .error e := by
  induction fields generalizing m with
  | nil => cases h
  | cons f fields ih =>
    simp only [fieldValuesOf] at h
    cases hg : getFieldObject c b typObject f with
    | error e' =>
      simp only [hg, error_bind, Except.error.injEq] at h
      exact ⟨f, .head _, h ▸ hg⟩
    | ok v =>
      simp only [hg, ok_bind] at h
      split at h <;> obtain ⟨f', hf', h'⟩ := ih h <;> exact ⟨f', .tail _ hf', h'⟩

theorem matchObject_some {b : Bucket} {typObject : Proto} {fields : List Bytes}
    (hfields : fields ≠ []) (p : FieldMap → Bool) :
    matchObject c b fields typObject (some p) = (fieldValuesOf c b typObject fields []).map p := by
  unfold matchObject
  rw [if_neg hfields]
  cases fieldValuesOf c b typObject fields [] <;> rfl

theorem toOption_filterRecord {typObject : Proto} {fields : List Bytes} (hfields : fields ≠ [])
    (p : FieldMap → Bool) (b : Bucket) :
    (filterRecord c fields typObject (some p) b).toOption.join =
      if passesFilter c b fields typObject p then (c.deserializeObject b typObject).toOption
      else none := by
  unfold filterRecord passesFilter
  rw [matchObject_some c hfields]
  cases fieldValuesOf c b typObject fields [] with
  | error e => rfl
  | ok fv =>
    cases hp : p fv <;> cases c.deserializeObject b typObject <;>
      simp [hp, Option.any, pure, Except.pure]

theorem lookup_LoadValuesByFilter {db : Bucket} {typ : Bytes} {fields : List Bytes}
    (hfields : fields ≠ []) {typObject : Proto} {p : FieldMap → Bool} {m : Entries Obj}
    (h : LoadValuesByFilter c typ fields typObject (some p) db = .ok m) (k : Bytes) :
    m.lookup k = (getBucket db typ k).bind fun b =>
      if passesFilter c b fields typObject p then (c.deserializeObject b typObject).toOption
      else none := by
  rw [lookup_loadValuesByFilter c h]
  simp only [toOption_filterRecord c hfields]

theorem getFieldObject_with_deserializeObject
    (deserialize : Bucket → Proto → Except Err Obj) :
    getFieldObject { c with deserializeObject := deserialize } = getFieldObject c := rfl

theorem fieldValuesOf_congr {c₁ c₂ : Codec Rec Obj} (h : getFieldObject c₁ = getFieldObject c₂)
    (b : Bucket) (typObject : Proto) (fields : List Bytes) (m : FieldMap) :
    fieldValuesOf c₁ b typObject fields m = fieldValuesOf c₂ b typObject fields m := by
  induction fields generalizing m with
  | nil => rfl
  | cons f fields ih => simp only [fieldValuesOf, h, ih]

/-- With a predicate that rejects everything, the record filter never decodes. -/
theorem filterRecord_false {typObject : Proto} {fields : List Bytes} (hfields : fields ≠ []) :
    filterRecord c fields typObject (some fun _ => false) =
      fun b => (fieldValuesOf c b typObject fields []).map fun _ => none := by
  funext b
  simp only [filterRecord, matchObject_some c hfields]
  cases fieldValuesOf c b typObject fields [] <;> rfl

/-- **`LoadValuesByFilter` is `LoadValuesAll` filtered by the predicate.**  For a non-empty
field list, a successful call returns exactly the records whose requested fields satisfy `p`,
decoded, i.e. the entries of `LoadValuesAll` that pass; it fails only when reading a requested
field of some record fails, or decoding a record that passed fails; and with a predicate that
rejects everything it never calls `deserializeObject` (any decoder gives the same result) and
returns the empty map. -/
theorem loadValuesByFilter_refines_loadValuesAll (db : Bucket) (typ : Bytes)
    {fields : List Bytes} (hfields : fields ≠ []) (typObject : Proto) (p : FieldMap → Bool) :
    (∀ m, LoadValuesByFilter c typ fields typObject (some p) db = .ok m →
      (∀ k o, m.lookup k = some o ↔ ∃ b, getBucket db typ k = some b ∧
        passesFilter c b fields typObject p = true ∧ c.deserializeObject b typObject = .ok o) ∧
      ∀ all, LoadValuesAll c typ typObject db = .ok all →
        m = all.filter fun e => (getBucket db typ e.1).any (passesFilter c · fields typObject p)) ∧
    (∀ e, LoadValuesByFilter c typ fields typObject (some p) db = .error e →
      ∃ k b, getBucket db typ k = some b ∧
        ((∃ f ∈ fields, getFieldObject c b typObject f = .error e) ∨
          (passesFilter c b fields typObject p = true ∧
            c.deserializeObject b typObject = .error e))) ∧
    (∀ deserialize, LoadValuesByFilter { c with deserializeObject := deserialize } typ fields
        typObject (some fun _ => false) db =
      LoadValuesByFilter c typ fields typObject (some fun _ => false) db) ∧
    ∀ m, LoadValuesByFilter c typ fields typObject (some fun _ => false) db = .ok m → m = [] := by
  refine ⟨fun m h => ⟨fun k o => ?_, fun all hall => ?_⟩, fun e h => ?_, fun d => ?_,
    fun m h => ?_⟩
  · rw [lookup_LoadValuesByFilter c hfields h]
    cases getBucket db typ k <;> simp
  · refine Entries.ext (ordered_loadValuesByFilter c h) ((ordered_LoadValuesAll c hall).filter
      fun k => (getBucket db typ k).any (passesFilter c · fields typObject p)) fun k => ?_
    rw [lookup_LoadValuesByFilter c hfields h, lookup_filter
      (fun k => (getBucket db typ k).any (passesFilter c · fields typObject p)),
      lookup_LoadValuesAll c hall]
    cases getBucket db typ k <;> simp
  · obtain ⟨k, b, hb, he⟩ := loadValuesByFilter_error c h
    refine ⟨k, b, hb, ?_⟩
    unfold filterRecord at he
    rw [matchObject_some c hfields] at he
    unfold passesFilter
    cases hf : fieldValuesOf c b typObject fields [] with
    | error e' =>
      simp only [hf, map_error, error_bind, Except.error.injEq] at he
      exact .inl (fieldValuesOf_error c (he ▸ hf))
    | ok fv =>
      cases hp : p fv <;> simp only [hf, hp, map_ok, ok_bind] at he
      · cases he
      · refine .inr ⟨by simp [hp], ?_⟩
        cases hd : c.deserializeObject b typObject <;> simp_all
  · unfold LoadValuesByFilter
    rw [loadValuesByFilter_eq, loadValuesByFilter_eq, filterRecord_false _ hfields,
      filterRecord_false _ hfields]
    simp only [fieldValuesOf_congr (getFieldObject_with_deserializeObject c d)]
  · refine Entries.ext (ordered_loadValuesByFilter c h) ordered_nil fun k => ?_
    rw [lookup_LoadValuesByFilter c hfields h]
    cases getBucket db typ k <;> simp [passesFilter_false]

/-- Two saved records, filtered on a field both hold. -/
theorem loadValuesByFilter_refines_loadValuesAll_two_records :
    let db := ((DB.empty.step specCodec (.save [1] [2] [([7], .string [8])])).step specCodec
      (.save [1] [3] [([7], .bool true)])).root
    ([[7]] : List Bytes) ≠ [] ∧
    (∀ m, LoadValuesByFilter specCodec [1] [[7]] ⟨[], []⟩ (some fun _ => true) db = .ok m →
      (∀ k o, m.lookup k = some o ↔ ∃ b, getBucket db [1] k = some b ∧
        passesFilter specCodec b [[7]] ⟨[], []⟩ (fun _ => true) = true ∧
        specCodec.deserializeObject b ⟨[], []⟩ = .ok o) ∧
      ∀ all, LoadValuesAll specCodec [1] ⟨[], []⟩ db = .ok all →
        m = all.filter fun e => (getBucket db [1] e.1).any
          (passesFilter specCodec · [[7]] ⟨[], []⟩ fun _ => true)) ∧
    (∀ e, LoadValuesByFilter specCodec [1] [[7]] ⟨[], []⟩ (some fun _ => true) db = .error e →
      ∃ k b, getBucket db [1] k = some b ∧
        ((∃ f ∈ [[7]], getFieldObject specCodec b ⟨[], []⟩ f = .error e) ∨
          (passesFilter specCodec b [[7]] ⟨[], []⟩ (fun _ => true) = true ∧
            specCodec.deserializeObject b ⟨[], []⟩ = .error e))) ∧
    (∀ deserialize, LoadValuesByFilter { specCodec with deserializeObject := deserialize } [1]
        [[7]] ⟨[], []⟩ (some fun _ => false) db =
      LoadValuesByFilter specCodec [1] [[7]] ⟨[], []⟩ (some fun _ => false) db) ∧
    ∀ m, LoadValuesByFilter specCodec [1] [[7]] ⟨[], []⟩ (some fun _ => false) db = .ok m →
      m = [] :=
  ⟨by decide, loadValuesByFilter_refines_loadValuesAll specCodec _ [1] (by decide) ⟨[], []⟩
    fun _ => true⟩

/-! ## The fields `matchObject` passes to the predicate -/

/-- The map `matchObject` builds holds a requested field exactly when `getFieldObject` gives it
a value other than the nil interface. -/
theorem lookup_fieldValuesOf {b : Bucket} {typObject : Proto} {fields : List Bytes}
    {m fv : FieldMap} (h : fieldValuesOf c b typObject fields m = .ok fv) (f : Bytes) :
    fv.lookup f = (if f ∈ fields then
      (getFieldObject c b typObject f).toOption.filter (· != .nil) else none).or (m.lookup f) := by
  induction fields generalizing m with
  | nil => cases h; simp
  | cons f' fields ih =>
    simp only [fieldValuesOf] at h
    cases hg : getFieldObject c b typObject f' with
    | error e => simp [hg] at h
    | ok v =>
      simp only [hg, ok_bind] at h
      split at h
      · rw [ih h]
        by_cases hf : f = f'
        · subst hf; by_cases hm : f ∈ fields <;> simp [hg, hm, Option.filter]
        · simp [hf]
      · rename_i hv
        have hv : v ≠ .nil := hv
        rw [ih h]
        by_cases hf : f = f'
        · subst hf; by_cases hm : f ∈ fields <;> simp [hg, hm, hv, Option.filter]
        · simp [hf, lookup_insert_ne _ _ (Ne.symm hf)]

/-- A flat entry whose tag `getFieldObject` does not recognise reads as the nil interface, so
`matchObject` leaves the field out. -/
theorem getFieldObject_unrecognised {bucket : Bucket} {typObject : Proto} {field : Bytes}
    {t : Byte} {rest : Bytes} (h : bucket.get (c.toBucketField field) = some (t :: rest))
    (ht : ¬ c.Recognised t) : getFieldObject c bucket typObject field = .ok .nil := by
  simp only [Codec.Recognised, not_or] at ht
  simp [getFieldObject, h, ht]

/-- **A missing field reaches the predicate.**  When the record bucket holds nothing under the
field's bucket key, `getFieldObject` returns `reflectMapMsg`'s nil `map[string]string` through
an `interface{}`, which is not the nil interface; `matchObject`'s `nil == value` test keeps it,
and the predicate receives the field, bound to a nil map.  `IterateFields` likewise passes that
map, not nil, to its callback. -/
theorem missing_field_reaches_filter (bucket : Bucket) (typObject : Proto) (field : Bytes)
    (p : FieldMap → Bool) (h : bucket.lookup (c.toBucketField field) = none) :
    getFieldObject c bucket typObject field = .ok (.stringMap none) ∧
      matchObject c bucket [field] typObject (some p) = .ok (p [⟨field, .stringMap none⟩]) := by
  have hg : getFieldObject c bucket typObject field = .ok (.stringMap none) := by
    simp [getFieldObject, Bucket.get, Bucket.bucket, reflectMapMsg, h]
  exact ⟨hg, by simp [matchObject, fieldValuesOf, hg, Entries.insert]⟩

theorem missing_field_reaches_filter_empty_record :
    Entries.lookup (specCodec.toBucketField [7]) ([] : Bucket) = none ∧
      getFieldObject specCodec [] ⟨[], []⟩ [7] = .ok (.stringMap none) ∧
      matchObject specCodec [] [[7]] ⟨[], []⟩ (some fun m => m.isEmpty) = .ok false :=
  ⟨rfl, missing_field_reaches_filter specCodec [] ⟨[], []⟩ [7] (fun m => m.isEmpty) rfl⟩

end Polaris

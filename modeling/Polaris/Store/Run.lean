import Polaris.Store.Frame
import Polaris.Store.Load

/-!
# Runs of write calls

`run ops` is the store after the write calls `ops`, each committed or rolled back, from an
empty store.  The type buckets of such a store hold record buckets only (`recordsOnly_run`),
and the record keys under a type are given by the run's history alone (`mem_recordKeys_run`):
`k` is there exactly when some `SaveValue(typ, k, _)` of the run succeeded and no later
`DeleteValues(typ, K)` has `k` in `K` (`Saved`).  The loads then see exactly these keys:
`CountValues` counts them, `LoadValuesAll` returns them, and `IterateFields` calls its callback
once per key, in key order (`run_records_match_history`).
-/

set_option autoImplicit false

namespace Polaris

open Entries

variable {Rec Obj : Type} (c : Codec Rec Obj)

/-- The store after the write calls `ops`, each committed or rolled back, from an empty
store. -/
def run (ops : List (Op Rec)) : DB := ops.foldl (DB.step c) DB.empty

theorem run_append_singleton (ops : List (Op Rec)) (op : Op Rec) :
    run c (ops ++ [op]) = (run c ops).step c op := by
  simp [run, List.foldl_append]

/-- The keys of the type bucket `typ`, as `getKeys` lists them; none when it does not exist. -/
def recordKeys (db : Bucket) (typ : Bytes) : List Bytes := getKeys (typeBucketOf db typ)

theorem mem_recordKeys {db : Bucket} {typ k : Bytes} :
    k ∈ recordKeys db typ ↔ (entryAt db typ k).isSome := by
  unfold recordKeys typeBucketOf entryAt
  rw [getKeys_eq, ← lookup_isSome_iff]
  cases db.bucket typ <;> simp

theorem recordKeys_sorted (s : DB) (typ : Bytes) : (recordKeys s.root typ).Sorted (· < ·) := by
  rw [recordKeys, getKeys_eq]; exact (s.ordered_typeBucket typ).keys_sorted

theorem CountValues_eq (typ : Bytes) (db : Bucket) :
    CountValues typ db = .ok (recordKeys db typ).length := by
  unfold CountValues recordKeys typeBucketOf getKeys
  cases db.bucket typ <;> simp [Bucket.forEach]

/-! ## No flat entry in a type bucket -/

/-- Every entry of every type bucket is a record bucket. -/
def RecordsOnly (db : Bucket) : Prop := ∀ t k v, entryAt db t k ≠ some (.value v)

theorem Op.newEntry_ne_value (op : Op Rec) {e : Option Node} (he : ∀ v, e ≠ some (.value v))
    (v : Bytes) : op.newEntry c e ≠ some (.value v) := by
  cases op <;> simp only [Op.newEntry] <;> split <;> (try split) <;> (try split) <;>
    simp_all

theorem recordsOnly_step (s : DB) (op : Op Rec) (h : RecordsOnly s.root) :
    RecordsOnly (s.step c op).root := fun t k v => by
  rw [entryAt_step]
  split
  · exact Op.newEntry_ne_value c op (h t k) v
  · exact h t k v

theorem recordsOnly_run (ops : List (Op Rec)) : RecordsOnly (run c ops).root := by
  induction ops using List.reverseRecOn with
  | nil => intro t k v; simp [run, DB.empty, entryAt, Bucket.bucket]
  | append_singleton ops op ih =>
    rw [run_append_singleton]; exact recordsOnly_step c _ op ih

/-- In a store of record buckets only, every entry of a type bucket is a nested bucket. -/
theorem isBucket_of_recordsOnly {s : DB} (h : RecordsOnly s.root) {typ : Bytes} {tb : Bucket}
    (htb : s.root.bucket typ = some tb) : ∀ e ∈ tb, e.2.isBucket := by
  rintro ⟨k, n⟩ he
  have hl : tb.lookup k = some n :=
    List.mem_dlookup (Bucket.ordered_of_wf (Bucket.wf_bucket s.wf htb)).nodupKeys he
  cases n with
  | value v => exact absurd (by simp [entryAt, htb, hl]) (h typ k v)
  | bucket _ => rfl

/-! ## The record keys, by the history of the run -/

/-- `k` is a record key of type `typ` by the history of the run `ops`: some
`SaveValue(typ, k, _)` of the run succeeded, and no later `DeleteValues(typ, K)` has `k` in
`K`. -/
def Saved (ops : List (Op Rec)) (typ k : Bytes) : Prop :=
  ∃ pre value post, ops = pre ++ Op.save typ k value :: post ∧
    (∃ db', SaveValue c typ k value (run c pre).root = .ok db') ∧
    ∀ keys, Op.delete typ keys ∈ post → k ∉ keys

theorem saved_nil (typ k : Bytes) : ¬ Saved c ([] : List (Op Rec)) typ k := by
  rintro ⟨pre, value, post, h, -⟩
  simp at h

/-- The history after one more call. -/
theorem saved_append_singleton (ops : List (Op Rec)) (op : Op Rec) (typ k : Bytes) :
    Saved c (ops ++ [op]) typ k ↔
      (Saved c ops typ k ∧ ∀ keys, op = .delete typ keys → k ∉ keys) ∨
      ∃ value, op = .save typ k value ∧ ∃ db', SaveValue c typ k value (run c ops).root = .ok db' := by
  constructor
  · rintro ⟨pre, value, post, hops, hok, hdel⟩
    rcases List.eq_nil_or_concat post with rfl | ⟨post, last, rfl⟩
    · obtain ⟨rfl, hop⟩ := List.append_inj' hops rfl
      simp only [List.cons.injEq, and_true] at hop
      exact .inr ⟨value, hop, hok⟩
    · rw [List.concat_eq_append, ← List.cons_append, ← List.append_assoc] at hops
      obtain ⟨rfl, hop⟩ := List.append_inj' hops rfl
      simp only [List.cons.injEq, and_true] at hop
      subst hop
      exact .inl ⟨⟨pre, value, post, rfl, hok, fun keys hk => hdel keys (by simp [hk])⟩,
        fun keys hk => hdel keys (by simp [hk])⟩
  · rintro (⟨⟨pre, value, post, rfl, hok, hdel⟩, hop⟩ | ⟨value, rfl, hok⟩)
    · refine ⟨pre, value, post ++ [op], by simp, hok, fun keys hk => ?_⟩
      rcases List.mem_append.mp hk with hk | hk
      · exact hdel keys hk
      · exact hop keys (List.mem_singleton.mp hk).symm
    · exact ⟨ops, value, [], rfl, hok, by simp⟩

theorem Op.newEntry_update_isSome (typ key : Bytes) (properties : List (Bytes × GoValue))
    (e : Option Node) : ((Op.update typ key properties).newEntry c e).isSome = e.isSome := by
  simp only [Op.newEntry]
  split
  · split_ifs
    · rfl
    · split <;> rfl
  · rfl

theorem Op.newEntry_delete (typ : Bytes) (keys : List Bytes) {e : Option Node}
    (he : ∀ v, e ≠ some (.value v)) : (Op.delete typ keys : Op Rec).newEntry c e = none := by
  rcases e with _ | (v | b)
  · rfl
  · exact absurd rfl (he v)
  · rfl

/-- One more call changes the record keys as the history says. -/
theorem entryAt_isSome_step (s : DB) (hs : RecordsOnly s.root) (op : Op Rec) (typ k : Bytes) :
    (entryAt (s.step c op).root typ k).isSome ↔
      ((entryAt s.root typ k).isSome ∧ ∀ keys, op = .delete typ keys → k ∉ keys) ∨
      ∃ value, op = .save typ k value ∧ ∃ db', SaveValue c typ k value s.root = .ok db' := by
  cases op with
  | save typ' key value =>
    rw [DB.step_root]
    cases hx : Op.exec c (.save typ' key value) s.root with
    | error e =>
      simp only [commit, Op.save.injEq, reduceCtorEq, false_imp_iff, implies_true, and_true]
      refine (or_iff_left ?_).symm
      rintro ⟨_, ⟨rfl, rfl, rfl⟩, db', h⟩
      simp [Op.exec, h] at hx
    | ok db' =>
      obtain ⟨-, -, -, rb, -, rfl⟩ := saveValue_ok c hx
      simp only [commit, entryAt_setRecord, Op.save.injEq, reduceCtorEq, false_imp_iff,
        implies_true, and_true]
      by_cases hn : typ' = typ ∧ key = k
      · obtain ⟨rfl, rfl⟩ := hn
        simp only [and_self, if_true, Option.isSome_some, true_iff]
        exact .inr ⟨value, by simp, _, hx⟩
      · rw [if_neg hn]
        refine (or_iff_left ?_).symm
        rintro ⟨_, ⟨rfl, rfl, rfl⟩, -⟩
        exact hn ⟨rfl, rfl⟩
  | update typ' key properties =>
    rw [entryAt_step]
    simp only [Op.update.injEq, reduceCtorEq, false_imp_iff, implies_true, and_true, false_and,
      exists_false, or_false]
    split
    · rw [Op.newEntry_update_isSome]
    · rfl
  | delete typ' keys =>
    rw [entryAt_step]
    simp only [Op.delete.injEq, reduceCtorEq, false_and, exists_false, or_false]
    split
    · rename_i hn
      obtain ⟨rfl, hk⟩ := hn
      simp [Op.newEntry_delete c _ _ (hs typ k), hk]
    · rename_i hn
      exact ⟨fun h => ⟨h, fun keys ⟨h₁, h₂⟩ hk => hn ⟨h₁.symm, h₂ ▸ hk⟩⟩, And.left⟩

/-- **The record keys of a run are its history's.** -/
theorem mem_recordKeys_run (ops : List (Op Rec)) (typ k : Bytes) :
    k ∈ recordKeys (run c ops).root typ ↔ Saved c ops typ k := by
  rw [mem_recordKeys]
  induction ops using List.reverseRecOn with
  | nil => simp [run, DB.empty, entryAt, Bucket.bucket, saved_nil]
  | append_singleton ops op ih =>
    rw [run_append_singleton, entryAt_isSome_step c _ (recordsOnly_run c ops),
      saved_append_singleton, ih]

/-! ## What the loads see -/

theorem getBucket_isSome_of_recordsOnly {db : Bucket} (hs : RecordsOnly db) (typ k : Bytes) :
    (getBucket db typ k).isSome = (entryAt db typ k).isSome := by
  rw [getBucket_eq]
  rcases he : entryAt db typ k with _ | (v | b)
  · rfl
  · exact absurd he (hs typ k v)
  · rfl

/-- In a store of record buckets only, `IterateFields` calls its callback once per record key,
in key order. -/
theorem iterateFields_calls {β : Type} {s : DB} (hs : RecordsOnly s.root) {typ field : Bytes}
    {typObject : Proto} {cb : GoValue → β} {outs : List β}
    (h : IterateFields c typ field typObject (some cb) s.root = .ok outs) :
    ∃ vs, outs = vs.map cb ∧ List.Forall₂ (fun k v => ∃ b, getBucket s.root typ k = some b ∧
      getFieldObject c b typObject field = .ok v) (recordKeys s.root typ) vs := by
  rw [IterateFields_eq] at h
  unfold recordKeys typeBucketOf
  split at h
  · rename_i hb
    cases h
    exact ⟨[], rfl, by simp [hb, getKeys, Bucket.forEach]⟩
  · rename_i tb hb
    obtain ⟨vs, rfl, hvs⟩ := forEachBucket_callBody _ h
    have hall : (getKeys tb).filter (fun k => (tb.bucket k).isSome) = getKeys tb := by
      refine List.filter_eq_self.mpr fun k hk => ?_
      have := (getBucket_isSome_of_recordsOnly hs typ k).trans
        (mem_recordKeys.mp (by simpa [recordKeys, typeBucketOf, hb] using hk))
      simpa [getBucket, hb] using this
    rw [hall] at hvs
    exact ⟨vs, by simp, by simpa [hb] using hvs.imp fun k v ⟨b, h₁, h₂⟩ =>
      ⟨b, by simp [getBucket, hb, h₁], h₂⟩⟩

/-- **A run's record keys are its history's, and the loads see exactly them.**  After any run
of write calls from an empty store, for every type name `typ`: the type bucket holds nested
record buckets only; its keys are the keys of a successful `SaveValue(typ, k, _)` not named by
a later `DeleteValues(typ, K)`, listed in ascending byte order; `DeleteValues` never fails;
`CountValues` counts these keys, a successful `LoadValuesAll` holds exactly these keys, and a
successful `IterateFields` calls its callback once per key, in ascending order. -/
theorem run_records_match_history (ops : List (Op Rec)) (typ : Bytes) :
    (∀ tb, (run c ops).root.bucket typ = some tb → ∀ e ∈ tb, e.2.isBucket) ∧
    (∀ k, k ∈ recordKeys (run c ops).root typ ↔ Saved c ops typ k) ∧
    (recordKeys (run c ops).root typ).Sorted (· < ·) ∧
    (∀ keys, ∃ db', DeleteValues typ keys (run c ops).root = .ok db') ∧
    CountValues typ (run c ops).root = .ok (recordKeys (run c ops).root typ).length ∧
    (∀ typObject m, LoadValuesAll c typ typObject (run c ops).root = .ok m →
      ∀ k, (m.lookup k).isSome ↔ Saved c ops typ k) ∧
    ∀ {β : Type} (field : Bytes) (typObject : Proto) (cb : GoValue → β) (outs : List β),
      IterateFields c typ field typObject (some cb) (run c ops).root = .ok outs →
      ∃ vs, outs = vs.map cb ∧ List.Forall₂ (fun k v => ∃ b,
        getBucket (run c ops).root typ k = some b ∧ getFieldObject c b typObject field = .ok v)
        (recordKeys (run c ops).root typ) vs := by
  have hs := recordsOnly_run c ops
  refine ⟨fun tb => isBucket_of_recordsOnly hs, mem_recordKeys_run c ops typ,
    recordKeys_sorted _ typ, fun keys => ⟨_, deleteValues_eq _ typ keys⟩, CountValues_eq typ _,
    fun typObject m h k => ?_, fun field typObject cb outs h => iterateFields_calls c hs h⟩
  rw [isSome_lookup_LoadValuesAll c h, getBucket_isSome_of_recordsOnly hs, ← mem_recordKeys,
    mem_recordKeys_run]

end Polaris

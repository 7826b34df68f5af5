import Polaris.Store.Save

/-!
# Frame conditions, and commuting writes

A write call names a set of record buckets: `SaveValue(typ, key, _)` and
`UpdateValue(typ, key, _)` the pair `(typ, key)`, `DeleteValues(typ, keys)` the pairs
`(typ, k)` for `k ∈ keys`.  Whether the call succeeds, and what it leaves under a pair it
names, depend only on what the store held under that pair (`Op.newEntry`); every other
record entry and every other type bucket is left as it was (`entryAt_step`,
`bucket_isSome_step`).  Two calls that name disjoint sets therefore commute, failures and
roll-backs included (`write_frame_and_commute`).
-/

set_option autoImplicit false

namespace Polaris

open Entries

variable {Rec Obj : Type} (c : Codec Rec Obj)

/-- The record buckets a write call names. -/
def Op.Names : Op Rec → Bytes → Bytes → Prop
  | .save typ key _, t, k => t = typ ∧ k = key
  | .update typ key _, t, k => t = typ ∧ k = key
  | .delete typ keys, t, k => t = typ ∧ k ∈ keys

instance (op : Op Rec) (t k : Bytes) : Decidable (op.Names t k) :=
  match op with
  | .save typ key _ => inferInstanceAs (Decidable (t = typ ∧ k = key))
  | .update typ key _ => inferInstanceAs (Decidable (t = typ ∧ k = key))
  | .delete typ keys => inferInstanceAs (Decidable (t = typ ∧ k ∈ keys))

/-- The type bucket a write call works in. -/
def Op.typ : Op Rec → Bytes
  | .save typ _ _ | .update typ _ _ | .delete typ _ => typ

/-- What a committed write call leaves under a pair it names, from what was there. -/
def Op.newEntry : Op Rec → Option Node → Option Node
  | .save typ key value, e =>
    match e, freshRecord c value with
    | some (.value _), _ => e
    | _, .ok rb => if typ = [] ∨ key = [] then e else some (.bucket rb)
    | _, .error _ => e
  | .update _ _ properties, e =>
    match e with
    | some (.bucket b) =>
      if properties = [] then e
      else match updateFields c properties b with
        | .ok b' => some (.bucket b')
        | .error _ => e
    | _ => e
  | .delete _ _, e =>
    match e with
    | some (.bucket _) => none
    | _ => e

theorem entryAt_step_save (s : DB) (typ key : Bytes) (value : Rec) (t k : Bytes) :
    entryAt (s.step c (.save typ key value)).root t k =
      if t = typ ∧ k = key then (Op.save typ key value).newEntry c (entryAt s.root t k)
      else entryAt s.root t k := by
  rw [DB.step_root, Op.exec, saveValue_eq]
  by_cases hn : t = typ ∧ k = key
  · obtain ⟨rfl, rfl⟩ := hn
    simp only [and_self, if_true]
    by_cases h₀ : t = [] ∨ k = []
    · simp only [h₀, if_true, commit, Op.newEntry]
      split <;> simp_all
    · rcases he : entryAt s.root t k with _ | (v | b) <;>
        cases hf : freshRecord c value <;> simp [Op.newEntry, commit, h₀, entryAt_setRecord, he, hf]
  · rw [if_neg hn]
    split_ifs
    · rfl
    · split
      · rfl
      · cases freshRecord c value
        · rfl
        · simp only [map_ok, commit, entryAt_setRecord]; rw [if_neg (by tauto)]

theorem entryAt_step_update (s : DB) (typ key : Bytes) (properties : List (Bytes × GoValue))
    (t k : Bytes) :
    entryAt (s.step c (.update typ key properties)).root t k =
      if t = typ ∧ k = key then (Op.update typ key properties).newEntry c (entryAt s.root t k)
      else entryAt s.root t k := by
  rw [DB.step_root, Op.exec, updateValue_eq, getBucket_eq]
  by_cases hn : t = typ ∧ k = key
  · obtain ⟨rfl, rfl⟩ := hn
    simp only [and_self, if_true]
    rcases he : entryAt s.root t k with _ | (v | b) <;> simp only [Op.newEntry, commit, he]
    split_ifs
    · exact he
    · cases updateFields c properties b <;> simp [commit, entryAt_setRecord, he]
  · rw [if_neg hn]
    split
    · rfl
    · split_ifs
      · rfl
      · cases updateFields c properties _
        · rfl
        · simp only [map_ok, commit, entryAt_setRecord]; rw [if_neg (by tauto)]

theorem entryAt_step_delete (s : DB) (typ : Bytes) (keys : List Bytes) (t k : Bytes) :
    entryAt (s.step c (.delete typ keys)).root t k =
      if t = typ ∧ k ∈ keys then (Op.delete typ keys : Op Rec).newEntry c (entryAt s.root t k)
      else entryAt s.root t k := by
  rw [DB.step_root, Op.exec, deleteValues_eq, commit, entryAt_deleteRecords, getBucket_eq]
  by_cases hn : t = typ ∧ k ∈ keys
  · obtain ⟨rfl, hk⟩ := hn
    rcases entryAt s.root t k with _ | (v | b) <;> simp [hk, Op.newEntry]
  · simp only [if_neg hn]
    rw [if_neg (by tauto)]

/-- **What a committed write leaves in a record entry**: the entries it names become
`newEntry` of what they held, every other entry is unchanged. -/
theorem entryAt_step (s : DB) (op : Op Rec) (t k : Bytes) :
    entryAt (s.step c op).root t k =
      if op.Names t k then op.newEntry c (entryAt s.root t k) else entryAt s.root t k := by
  cases op with
  | save typ key value => exact entryAt_step_save c s typ key value t k
  | update typ key properties => exact entryAt_step_update c s typ key properties t k
  | delete typ keys => exact entryAt_step_delete c s typ keys t k

/-- Whether a committed call creates the type bucket `t`: only a save into it can. -/
def Op.creates (op : Op Rec) (db : Bucket) (t : Bytes) : Bool :=
  match op with
  | .save typ key value =>
    t == typ && ((Op.save typ key value).newEntry c (entryAt db typ key)).isSome
  | _ => false

theorem bucket_isSome_of_entryAt {db : Bucket} {t k : Bytes} (h : (entryAt db t k).isSome) :
    (db.bucket t).isSome := by
  unfold entryAt at h; cases hb : db.bucket t <;> simp_all

theorem bucket_isSome_step (s : DB) (op : Op Rec) (t : Bytes) :
    ((s.step c op).root.bucket t).isSome = ((s.root.bucket t).isSome || op.creates c s.root t) := by
  rw [DB.step_root]
  cases op with
  | save typ key value =>
    by_cases ht : t = typ
    · subst ht
      simp only [Op.exec, Op.creates, saveValue_eq]
      have hb := @bucket_isSome_of_entryAt s.root t key
      rcases he : entryAt s.root t key with _ | (v | b) <;>
        cases hf : freshRecord c value <;> by_cases h₀ : t = [] ∨ key = [] <;>
        simp_all [commit, Op.newEntry, bucket_setRecord]
    · simp only [Op.exec, Op.creates, beq_false_of_ne ht, Bool.false_and, Bool.or_false]
      cases hx : SaveValue c typ key value s.root with
      | error e => rfl
      | ok db' =>
        obtain ⟨-, -, -, rb, -, rfl⟩ := saveValue_ok c hx
        rw [commit, bucket_setRecord, if_neg (Ne.symm ht)]
  | update typ key properties =>
    simp only [Op.exec, Op.creates, Bool.or_false, updateValue_eq]
    split
    · rfl
    · rename_i b hb
      have he := entryAt_eq_bucket.mpr hb
      split_ifs
      · rfl
      · cases updateFields c properties b
        · rfl
        · simp only [map_ok, commit, bucket_setRecord]
          split
          · subst_vars; simpa using bucket_isSome_of_entryAt (k := key) (by simp [he])
          · rfl
  | delete typ keys =>
    simp only [Op.exec, Op.creates, Bool.or_false, deleteValues_eq, commit, bucket_deleteRecords]
    split <;> simp_all

theorem Op.typ_of_names {op : Op Rec} {t k : Bytes} (h : op.Names t k) : t = op.typ := by
  cases op <;> exact h.1

theorem Op.creates_eq_false {op : Op Rec} {db : Bucket} {t : Bytes} (h : t ≠ op.typ) :
    op.creates c db t = false := by
  cases op <;> simp_all [Op.creates, Op.typ]

theorem creates_step (s : DB) (op op' : Op Rec) (hd : ∀ t k, op.Names t k → ¬ op'.Names t k)
    (t : Bytes) : op.creates c (s.step c op').root t = op.creates c s.root t := by
  cases op with
  | save typ key value => simp only [Op.creates, entryAt_step, if_neg (hd typ key ⟨rfl, rfl⟩)]
  | update => rfl
  | delete => rfl

theorem lookup_step_ne (s : DB) (op : Op Rec) {t : Bytes} (ht : t ≠ op.typ) :
    (s.step c op).root.lookup t = s.root.lookup t := by
  rw [DB.lookup_root, DB.lookup_root, @DB.bucket_ext (s.step c op) s t]
  · rw [bucket_isSome_step, Op.creates_eq_false c ht, Bool.or_false]
  · intro k
    rw [entryAt_step, if_neg fun h => ht (Op.typ_of_names h)]

/-- **Frame and commutation of writes.**  A successful `SaveValue`, `UpdateValue` or
`DeleteValues` leaves every record entry it does not name, and every type bucket other than
its own, as it was; two write calls naming disjoint record buckets commute, whether each of
them commits or rolls back. -/
theorem write_frame_and_commute (s : DB) (op op' : Op Rec) :
    (∀ db', op.exec c s.root = .ok db' →
      (∀ t k, ¬ op.Names t k → entryAt db' t k = entryAt s.root t k) ∧
      ∀ t, t ≠ op.typ → db'.lookup t = s.root.lookup t) ∧
    ((∀ t k, op.Names t k → ¬ op'.Names t k) →
      (s.step c op).step c op' = (s.step c op').step c op) := by
  refine ⟨fun db' h => ?_, fun hd => ?_⟩
  · have hr : (s.step c op).root = db' := by rw [DB.step_root, h]; rfl
    exact ⟨fun t k hn => by rw [← hr, entryAt_step, if_neg hn],
      fun t ht => by rw [← hr, lookup_step_ne c s op ht]⟩
  · have hd' : ∀ t k, op'.Names t k → ¬ op.Names t k := fun t k h h' => hd t k h' h
    apply DB.ext
    apply DB.root_ext
    · intro t
      simp only [bucket_isSome_step, creates_step c s op' op hd', creates_step c s op op' hd]
      cases (s.root.bucket t).isSome <;> cases op.creates c s.root t <;>
        cases op'.creates c s.root t <;> rfl
    · intro t k
      simp only [entryAt_step]
      by_cases h₁ : op.Names t k
      · simp [h₁, hd t k h₁]
      · by_cases h₂ : op'.Names t k <;> simp [h₁, h₂]

end Polaris

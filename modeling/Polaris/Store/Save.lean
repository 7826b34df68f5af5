import Polaris.Store.Effect
import Polaris.Store.SpecCodec

/-!
# `SaveValue` replaces the record bucket

`SaveValue` deletes the record bucket under `key`, creates it afresh and serializes the
record into the new, empty bucket.  So a successful save leaves under `key` exactly
`freshRecord value` (`serializeObject` on an empty bucket, then the `Put` loop), whatever the
bucket held before: no flat entry, nested map bucket or map entry of an earlier record
survives.  A later save of the same key absorbs an earlier one, and a save is idempotent.
-/

set_option autoImplicit false

namespace Polaris

open Entries

variable {Rec Obj : Type} (c : Codec Rec Obj)

theorem typeBucketOf_setRecord (db rb : Bucket) (typ key : Bytes) :
    typeBucketOf (setRecord db typ key rb) typ = (typeBucketOf db typ).setBucket key rb := by
  simp [typeBucketOf, bucket_setRecord]

theorem setRecord_setRecord (s : DB) (typ key : Bytes) (x y : Bucket) :
    setRecord (setRecord s.root typ key x) typ key y = setRecord s.root typ key y := by
  rw [setRecord, typeBucketOf_setRecord]
  unfold setRecord Bucket.setBucket
  rw [insert_insert s.ordered_root, insert_insert (s.ordered_typeBucket typ)]

theorem saveValue_ok {s : DB} {typ key : Bytes} {value : Rec} {db' : Bucket}
    (h : SaveValue c typ key value s.root = .ok db') :
    typ ≠ [] ∧ key ≠ [] ∧ (∀ v, entryAt s.root typ key ≠ some (.value v)) ∧
      ∃ rb, freshRecord c value = .ok rb ∧ db' = setRecord s.root typ key rb := by
  rw [saveValue_eq] at h
  split_ifs at h with h₀
  push_neg at h₀
  split at h
  · cases h
  · rename_i hv
    cases hf : freshRecord c value <;> simp_all

/-- **A save replaces the record bucket.**  After a successful `SaveValue(typ, key, r)` the
record bucket is exactly what `serializeObject` and the `Put` loop make of `r` in an empty
bucket; a save of the same key just before it makes no difference, and saving again changes
nothing. -/
theorem saveValue_replaces_record (s : DB) (typ key : Bytes) (r r₁ : Rec) {db' : Bucket}
    (h : SaveValue c typ key r s.root = .ok db') :
    (∃ rb, freshRecord c r = .ok rb ∧ getBucket db' typ key = some rb) ∧
      SaveValue c typ key r (commit s.root (SaveValue c typ key r₁ s.root)) = .ok db' ∧
      SaveValue c typ key r db' = .ok db' := by
  obtain ⟨htyp, hkey, hval, rb, hrb, rfl⟩ := saveValue_ok c h
  have hrec : getBucket (setRecord s.root typ key rb) typ key = some rb := by
    rw [← entryAt_eq_bucket, entryAt_setRecord]; simp
  -- the store after any first save, as a well-formed store
  have absorb : ∀ s₁ : DB, (s₁.root = s.root ∨ ∃ rb₁, s₁.root = setRecord s.root typ key rb₁) →
      SaveValue c typ key r s₁.root = .ok (setRecord s.root typ key rb) := by
    rintro s₁ (h₁ | ⟨rb₁, h₁⟩)
    · rw [h₁]; exact h
    · rw [saveValue_eq, h₁, entryAt_setRecord]
      simp [htyp, hkey, hrb, setRecord_setRecord]
  refine ⟨⟨rb, hrb, hrec⟩, ?_, ?_⟩
  · have := absorb (s.step c (.save typ key r₁)) ?_
    · rwa [DB.step_root] at this
    · rw [DB.step_root]
      cases h₁ : SaveValue c typ key r₁ s.root with
      | error e => exact .inl (by simp [Op.exec, h₁, commit])
      | ok db₁ =>
        obtain ⟨-, -, -, rb₁, -, rfl⟩ := saveValue_ok c h₁
        exact .inr ⟨rb₁, by simp [Op.exec, h₁, commit]⟩
  · have := absorb (s.step c (.save typ key r))
      (.inr ⟨rb, by rw [DB.step_root]; simp [Op.exec, h, commit]⟩)
    rwa [DB.step_root, show Op.exec c (.save typ key r) s.root = _ from h, commit] at this

/-- A record of two fields saved over with one: the field it lacks is gone. -/
theorem saveValue_replaces_record_two_fields :
    let s := DB.empty.step specCodec (.save [1] [2] [([7], .string [8]), ([9], .bool true)])
    SaveValue specCodec [1] [2] ([([7], .string [3])] : SpecRecord) s.root = .ok [⟨[1], .bucket [⟨[2], .bucket [⟨[7], .value [1, 3]⟩]⟩]⟩] ∧
    ((∃ rb, freshRecord specCodec ([([7], .string [3])] : SpecRecord) = .ok rb ∧
        getBucket [⟨[1], .bucket [⟨[2], .bucket [⟨[7], .value [1, 3]⟩]⟩]⟩] [1] [2] = some rb) ∧
      SaveValue specCodec [1] [2] ([([7], .string [3])] : SpecRecord)
          (commit s.root (SaveValue specCodec [1] [2] ([] : SpecRecord) s.root)) = .ok [⟨[1], .bucket [⟨[2], .bucket [⟨[7], .value [1, 3]⟩]⟩]⟩] ∧
      SaveValue specCodec [1] [2] ([([7], .string [3])] : SpecRecord) [⟨[1], .bucket [⟨[2], .bucket [⟨[7], .value [1, 3]⟩]⟩]⟩] = .ok [⟨[1], .bucket [⟨[2], .bucket [⟨[7], .value [1, 3]⟩]⟩]⟩]) :=
  ⟨rfl, saveValue_replaces_record specCodec _ [1] [2] [([7], .string [3])] [] rfl⟩

end Polaris

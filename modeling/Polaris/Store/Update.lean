import Polaris.Store.Run

/-!
# `UpdateValue`: what each property writes

One iteration of `UpdateValue`'s loop writes one property: `propertyWrite` picks the write
from the value's runtime type, and `Write.run` makes it under the property's bucket key.  A
write reads and changes the entry under its own key only (`Write.lookup_run_ne`,
`Write.run_congr`).  So when the properties' bucket keys are distinct — the property names of a
Go map are, and `toBucketField` is injective on them — each property's entry ends up as if it
alone had been written into the old record bucket, every other entry is left as it was, and
the loop succeeds exactly when each property alone would (`updateFields_ok`,
`updateFields_ok_of_each`).  The order in which Go enumerates the map therefore does not
matter (`updateValue_writes_each_property`).

The values the loop cannot write make it panic rather than skip them: a nil value, whose
`reflect.TypeOf` is nil, and a value of a defined type whose kind is that of a predeclared type
the loop asserts (`updateValue_panics`).
-/

set_option autoImplicit false

namespace Polaris

open Entries

variable {Rec Obj : Type} (c : Codec Rec Obj)

/-! ## One write -/

/-- A write changes no entry but the one under its key. -/
theorem Write.lookup_run_ne (w : Write) {b b₁ : Bucket} {key f : Bytes}
    (h : w.run b key = .ok b₁) (hf : key ≠ f) : b₁.lookup f = b.lookup f := by
  cases w with
  | put buf =>
    obtain ⟨-, rfl⟩ := Bucket.put_eq_ok.mp (liftBolt_eq_ok.mp h)
    exact lookup_insert_ne _ _ hf
  | rawMap m =>
    simp only [Write.run, encodeRawMap] at h
    split at h
    · cases h; rfl
    · cases h; rfl
    · obtain ⟨⟨child, parent⟩, hc, h⟩ := bind_eq_ok.mp h
      obtain ⟨child', -, h⟩ := bind_eq_ok.mp h
      cases h
      obtain ⟨-, ⟨-, rfl⟩ | ⟨-, -, rfl⟩⟩ :=
        Bucket.createBucketIfNotExists_eq_ok.mp (liftBolt_eq_ok.mp hc) <;>
        simp [Bucket.lookup_setBucket, hf]
  | skip => cases h; rfl

/-- Whether a write succeeds, and what it leaves under its key, depend only on what was under
that key. -/
theorem Write.run_congr (w : Write) {b b₂ : Bucket} {key : Bytes}
    (h : b.lookup key = b₂.lookup key) :
    (w.run b key).map (·.lookup key) = (w.run b₂ key).map (·.lookup key) := by
  cases w with
  | put buf =>
    simp only [Write.run, liftBolt, Bucket.put, h]
    split_ifs <;> try rfl
    split <;> simp [Except.mapError]
  | rawMap m =>
    simp only [Write.run, encodeRawMap]
    split
    · simpa using h
    · simpa using h
    · rename_i entries _
      simp only [liftBolt, Bucket.createBucketIfNotExists, Bucket.createBucket, Bucket.bucket, h]
      split_ifs
      · rfl
      · rcases b₂.lookup key with _ | (_ | child)
        · rcases hp : Bucket.putAll [] entries with e | child' <;>
            simp [hp, Except.mapError, Bucket.setBucket]
        · rfl
        · rcases hp : Bucket.putAll child entries with e | child' <;>
            simp [hp, Except.mapError, Bucket.setBucket]
  | skip => simpa [Write.run] using h

/-- `putAll` leaves every key it does not put as it was. -/
theorem lookup_putAll_of_not_mem {b b' : Bucket} {entries : List (Bytes × Bytes)}
    (h : b.putAll entries = .ok b') {k : Bytes} (hk : k ∉ entries.map Prod.fst) :
    b'.lookup k = b.lookup k := by
  induction entries generalizing b with
  | nil => cases h; rfl
  | cons e rest ih =>
    simp only [Bucket.putAll, List.foldlM_cons] at h
    obtain ⟨b₁, hp, h⟩ := bind_eq_ok.mp h
    obtain ⟨-, rfl⟩ := Bucket.put_eq_ok.mp hp
    rw [List.map_cons, List.mem_cons, not_or] at hk
    rw [ih h hk.2, lookup_insert_ne _ _ (Ne.symm hk.1)]

/-- After `putAll`, each key it puts holds the value of one of its entries with that key. -/
theorem lookup_putAll_of_mem {b b' : Bucket} {entries : List (Bytes × Bytes)}
    (h : b.putAll entries = .ok b') {x : Bytes × Bytes} (hx : x ∈ entries) :
    ∃ v, (x.1, v) ∈ entries ∧ b'.lookup x.1 = some (.value v) := by
  induction entries generalizing b x with
  | nil => cases hx
  | cons e rest ih =>
    simp only [Bucket.putAll, List.foldlM_cons] at h
    obtain ⟨b₁, hp, h⟩ := bind_eq_ok.mp h
    obtain ⟨-, rfl⟩ := Bucket.put_eq_ok.mp hp
    by_cases hr : x.1 ∈ rest.map Prod.fst
    · obtain ⟨y, hy, hyx⟩ := List.mem_map.mp hr
      obtain ⟨v, hv, he⟩ := ih h hy
      exact ⟨v, .tail _ (hyx ▸ hv), hyx ▸ he⟩
    · obtain rfl : x = e := (List.mem_cons.mp hx).resolve_right
        fun hx' => hr (List.mem_map_of_mem _ hx')
      exact ⟨x.2, .head _, by rw [lookup_putAll_of_not_mem h hr, lookup_insert_self]⟩

/-- What `encodeRawMap` leaves under its key for a map with entries: a nested bucket holding
each entry's key, with the value of an entry of that key. -/
theorem lookup_encodeRawMap {b b₁ : Bucket} {key : Bytes} {e : Bytes × Bytes}
    {es : List (Bytes × Bytes)} (h : encodeRawMap b key (some (e :: es)) = .ok b₁) :
    ∃ nested : Bucket, b₁.lookup key = some (.bucket nested) ∧
      ∀ x ∈ e :: es, ∃ v, (x.1, v) ∈ e :: es ∧ nested.lookup x.1 = some (.value v) := by
  simp only [encodeRawMap] at h
  obtain ⟨⟨child, parent⟩, -, h⟩ := bind_eq_ok.mp h
  obtain ⟨child', hp, h⟩ := bind_eq_ok.mp h
  cases h
  exact ⟨child', by simp [Bucket.lookup_setBucket],
    fun x hx => lookup_putAll_of_mem (liftBolt_eq_ok.mp hp) hx⟩

theorem updateProperty_lookup_ne {b b₁ : Bucket} {p : Bytes × GoValue} {f : Bytes}
    (h : updateProperty c b p.1 p.2 = .ok b₁) (hf : c.toBucketField p.1 ≠ f) :
    b₁.lookup f = b.lookup f := by
  obtain ⟨w, -, hw⟩ := bind_eq_ok.mp h
  exact w.lookup_run_ne hw hf

theorem updateProperty_congr {b b₂ : Bucket} (p : Bytes × GoValue)
    (h : b.lookup (c.toBucketField p.1) = b₂.lookup (c.toBucketField p.1)) :
    (updateProperty c b p.1 p.2).map (·.lookup (c.toBucketField p.1)) =
      (updateProperty c b₂ p.1 p.2).map (·.lookup (c.toBucketField p.1)) := by
  unfold updateProperty
  cases propertyWrite c p.2 with
  | error e => rfl
  | ok w => exact w.run_congr h

/-- A property that succeeds on one bucket succeeds, with the same entry under its key, on any
bucket holding the same entry there. -/
theorem updateProperty_transfer {b b₂ b₁ : Bucket} {p : Bytes × GoValue}
    (h : updateProperty c b p.1 p.2 = .ok b₁)
    (he : b.lookup (c.toBucketField p.1) = b₂.lookup (c.toBucketField p.1)) :
    ∃ b₃, updateProperty c b₂ p.1 p.2 = .ok b₃ ∧
      b₃.lookup (c.toBucketField p.1) = b₁.lookup (c.toBucketField p.1) := by
  have := updateProperty_congr c p he
  rw [h] at this
  cases h₂ : updateProperty c b₂ p.1 p.2 with
  | error e => simp [h₂] at this
  | ok b₃ => exact ⟨b₃, rfl, by simpa [h₂] using this.symm⟩

/-! ## The loop -/

/-- **What the loop leaves**, for properties with distinct bucket keys: every entry no property
names is unchanged, and each property's entry is what that property alone writes into the old
record bucket. -/
theorem updateFields_ok {properties : List (Bytes × GoValue)}
    (hnd : (properties.map fun p => c.toBucketField p.1).Nodup) {b b' : Bucket}
    (h : updateFields c properties b = .ok b') :
    (∀ f, (∀ p ∈ properties, c.toBucketField p.1 ≠ f) → b'.lookup f = b.lookup f) ∧
    ∀ p ∈ properties, ∃ b₁, updateProperty c b p.1 p.2 = .ok b₁ ∧
      b'.lookup (c.toBucketField p.1) = b₁.lookup (c.toBucketField p.1) := by
  induction properties generalizing b with
  | nil => cases h; exact ⟨fun _ _ => rfl, by simp⟩
  | cons p ps ih =>
    obtain ⟨b₁, h₁, h⟩ := bind_eq_ok.mp h
    rw [List.map_cons, List.nodup_cons] at hnd
    obtain ⟨hframe, heach⟩ := ih hnd.2 h
    have hnot : ∀ q ∈ ps, c.toBucketField q.1 ≠ c.toBucketField p.1 :=
      fun q hq he => hnd.1 (he ▸ List.mem_map_of_mem _ hq)
    refine ⟨fun f hf => ?_, fun q hq => ?_⟩
    · rw [hframe f fun q hq => hf q (.tail _ hq),
        updateProperty_lookup_ne c h₁ (hf p (.head _))]
    · rcases List.mem_cons.mp hq with rfl | hq
      · exact ⟨b₁, h₁, hframe _ hnot⟩
      · obtain ⟨b₂, h₂, he⟩ := heach q hq
        obtain ⟨b₃, h₃, he₃⟩ := updateProperty_transfer c h₂
          (updateProperty_lookup_ne c h₁ (Ne.symm (hnot q hq)))
        exact ⟨b₃, h₃, he.trans he₃.symm⟩

/-- **When the loop succeeds**: exactly when each property alone succeeds on the old record
bucket, for properties with distinct bucket keys. -/
theorem updateFields_ok_of_each {properties : List (Bytes × GoValue)}
    (hnd : (properties.map fun p => c.toBucketField p.1).Nodup) {b : Bucket}
    (h : ∀ p ∈ properties, ∃ b₁, updateProperty c b p.1 p.2 = .ok b₁) :
    ∃ b', updateFields c properties b = .ok b' := by
  induction properties generalizing b with
  | nil => exact ⟨b, rfl⟩
  | cons p ps ih =>
    rw [List.map_cons, List.nodup_cons] at hnd
    obtain ⟨b₁, h₁⟩ := h p (.head _)
    obtain ⟨b', h'⟩ := ih hnd.2 (b := b₁) fun q hq => by
      obtain ⟨b₂, h₂⟩ := h q (.tail _ hq)
      have hne : c.toBucketField p.1 ≠ c.toBucketField q.1 :=
        fun he => hnd.1 (he ▸ List.mem_map_of_mem _ hq)
      obtain ⟨b₃, h₃, -⟩ := updateProperty_transfer c h₂ (updateProperty_lookup_ne c h₁ hne).symm
      exact ⟨b₃, h₃⟩
    exact ⟨b', by simp only [updateFields, List.foldlM_cons, h₁, ok_bind]; exact h'⟩

/-- Two orders of the same properties, with distinct bucket keys, give the same record bucket
when one of them succeeds. -/
theorem updateFields_perm {properties properties' : List (Bytes × GoValue)}
    (hperm : properties.Perm properties')
    (hnd : (properties.map fun p => c.toBucketField p.1).Nodup) {b b' : Bucket}
    (hb : (Node.bucket b).WF) (h : updateFields c properties b = .ok b') :
    updateFields c properties' b = .ok b' := by
  have hnd' := (hperm.map _).nodup_iff.mp hnd
  obtain ⟨hframe, heach⟩ := updateFields_ok c hnd h
  obtain ⟨b'', h''⟩ := updateFields_ok_of_each c hnd' fun p hp => by
    obtain ⟨b₁, h₁, -⟩ := heach p (hperm.mem_iff.mpr hp)
    exact ⟨b₁, h₁⟩
  obtain ⟨hframe', heach'⟩ := updateFields_ok c hnd' h''
  rw [h'']
  congr 1
  refine Entries.ext (Bucket.ordered_of_wf (wf_updateFields c hb h''))
    (Bucket.ordered_of_wf (wf_updateFields c hb h)) fun f => ?_
  by_cases hf : ∃ p ∈ properties, c.toBucketField p.1 = f
  · obtain ⟨p, hp, rfl⟩ := hf
    obtain ⟨b₁, h₁, he₁⟩ := heach p hp
    obtain ⟨b₂, h₂, he₂⟩ := heach' p (hperm.mem_iff.mp hp)
    rw [h₁, Except.ok.injEq] at h₂
    rw [he₁, he₂, h₂]
  · push_neg at hf
    rw [hframe f hf, hframe' f fun p hp => hf p (hperm.mem_iff.mpr hp)]

/-! ## What each value makes the loop write -/

/-- The write the handler's contract describes for a property value, by its runtime type: the
tagged encoding of a string, a bool, an integer of any width (tagged `numberKindToType` of its
kind, widened to 64 bits), a `time.Time` or a message; the raw map bucket of a
`map[string]string`; nothing for any other value. -/
def SpecWrite (v : GoValue) (w : Write) : Prop :=
  match v with
  | .string s => w = .put (c.encodeStringBuffer s)
  | .bool b => w = .put (c.encodeBoolBuffer b)
  | .int k x => w = .put (c.encodeIntBuffer (x.signExtend 64) (c.numberKindToType k.kind))
  | .uint k x => w = .put (c.encodeUintBuffer (x.zeroExtend 64) (c.numberKindToType k.kind))
  | .time t => w = .put (c.encodeTimeBuffer t)
  | .message m => ∃ buf, c.encodeMessageBuffer m = .ok buf ∧ w = .put buf
  | .stringMap m => w = .rawMap m
  | _ => w = .skip

/-- **Each value the loop writes, it writes as the contract describes.** -/
theorem propertyWrite_spec {v : GoValue} {w : Write} (h : propertyWrite c v = .ok w) :
    SpecWrite c v w := by
  cases v with
  | nil => cases h
  | message m =>
    simp only [propertyWrite, GoValue.kind, GoValue.implementsMessage, GoValue.assertMessage,
      if_true, ok_bind] at h
    cases he : c.encodeMessageBuffer m <;> simp_all [SpecWrite, eq_comm]
  | int k x => cases k <;> exact (Except.ok.inj h).symm
  | uint k x => cases k <;> exact (Except.ok.inj h).symm
  | other k => cases k <;> first | exact (Except.ok.inj h).symm | cases h
  | _ => exact (Except.ok.inj h).symm

/-- What the handler's contract says a property leaves under its bucket key, from the entry
`old` there before: the tagged encoding of a string, a bool, an integer of any width (tagged
`numberKindToType` of its kind, widened to 64 bits), a `time.Time` or a message, as a flat
value; for a `map[string]string` with entries, a nested bucket holding each of its keys with
the map's value; for any other value, the nil or empty map included, `old` as it was. -/
def SpecEntry (v : GoValue) (old new : Option Node) : Prop :=
  match v with
  | .string s => new = some (.value (c.encodeStringBuffer s))
  | .bool b => new = some (.value (c.encodeBoolBuffer b))
  | .int k x => new = some (.value (c.encodeIntBuffer (x.signExtend 64) (c.numberKindToType k.kind)))
  | .uint k x =>
    new = some (.value (c.encodeUintBuffer (x.zeroExtend 64) (c.numberKindToType k.kind)))
  | .time t => new = some (.value (c.encodeTimeBuffer t))
  | .message m => ∃ buf, c.encodeMessageBuffer m = .ok buf ∧ new = some (.value buf)
  | .stringMap (some (e :: es)) => ∃ nested : Bucket, new = some (.bucket nested) ∧
      ∀ x ∈ e :: es, ∃ v, (x.1, v) ∈ e :: es ∧ nested.lookup x.1 = some (.value v)
  | _ => new = old

/-- **The write the contract describes leaves the entry it describes.** -/
theorem SpecWrite.entry {v : GoValue} {w : Write} (hw : SpecWrite c v w) {b b₁ : Bucket}
    {key : Bytes} (h : w.run b key = .ok b₁) : SpecEntry c v (b.lookup key) (b₁.lookup key) := by
  have hput : ∀ buf, w = .put buf → b₁.lookup key = some (.value buf) := by
    rintro buf rfl
    obtain ⟨-, rfl⟩ := Bucket.put_eq_ok.mp (liftBolt_eq_ok.mp h)
    exact lookup_insert_self _ _ _
  have hskip : w = .skip → b₁ = b := by
    rintro rfl
    exact (Except.ok.inj h).symm
  cases v with
  | string s => exact hput _ hw
  | bool x => exact hput _ hw
  | int k x => exact hput _ hw
  | uint k x => exact hput _ hw
  | time t => exact hput _ hw
  | message m =>
    obtain ⟨buf, hb, rfl⟩ := hw
    exact ⟨buf, hb, hput _ rfl⟩
  | stringMap m =>
    subst hw
    rcases m with _ | _ | ⟨e, es⟩
    · exact congrArg _ (Except.ok.inj h).symm
    · exact congrArg _ (Except.ok.inj h).symm
    · exact lookup_encodeRawMap h
  | nil => exact congrArg _ (hskip hw)
  | other k => exact congrArg _ (hskip hw)

/-! ## `UpdateValue` -/

theorem commit_map_congr {α : Type} {x y : Except Err α} (h : x.toOption = y.toOption)
    (db : Bucket) (g : α → Bucket) : commit db (x.map g) = commit db (y.map g) := by
  cases x <;> cases y <;> simp_all [commit]

/-- **What `UpdateValue` writes.**  For a Go map of properties (distinct names) on which
`toBucketField` is injective: when the type or the record bucket is absent, the call is a
no-op; when it succeeds on a record bucket `b`, the record bucket afterwards keeps every entry
of `b` no property names, and holds under each property's bucket key the entry the contract
describes for the value's runtime type (`SpecEntry`); and the store after the call does not
depend on the order in which Go enumerates the map. -/
theorem updateValue_writes_each_property (s : DB) (typ key : Bytes)
    (properties : List (Bytes × GoValue)) (hkeys : (properties.map Prod.fst).Nodup)
    (hinj : ∀ p ∈ properties, ∀ q ∈ properties,
      c.toBucketField p.1 = c.toBucketField q.1 → p.1 = q.1) :
    (getBucket s.root typ key = none → UpdateValue c typ key properties s.root = .ok s.root) ∧
    (∀ b db', getBucket s.root typ key = some b →
      UpdateValue c typ key properties s.root = .ok db' →
      ∃ b', getBucket db' typ key = some b' ∧
        (∀ f, (∀ p ∈ properties, c.toBucketField p.1 ≠ f) → b'.lookup f = b.lookup f) ∧
        ∀ p ∈ properties,
          SpecEntry c p.2 (b.lookup (c.toBucketField p.1)) (b'.lookup (c.toBucketField p.1))) ∧
    ∀ properties', properties.Perm properties' →
      s.step c (.update typ key properties) = s.step c (.update typ key properties') := by
  have hnd : (properties.map fun p => c.toBucketField p.1).Nodup :=
    (hkeys.of_map _).map_on fun p hp q hq h =>
      List.inj_on_of_nodup_map hkeys hp hq (hinj p hp q hq h)
  refine ⟨fun h => by rw [updateValue_eq, h], fun b db' hb h => ?_, fun properties' hperm => ?_⟩
  · rw [updateValue_eq, hb] at h
    dsimp only at h
    split_ifs at h with h₀
    · cases h; subst h₀
      exact ⟨b, hb, fun _ _ => rfl, by simp⟩
    · rcases hu : updateFields c properties b with e | b' <;> rw [hu] at h <;> cases h
      obtain ⟨hframe, heach⟩ := updateFields_ok c hnd hu
      refine ⟨b', ?_, hframe, fun p hp => ?_⟩
      · rw [← entryAt_eq_bucket, entryAt_setRecord]; simp
      · obtain ⟨b₁, h₁, he⟩ := heach p hp
        obtain ⟨w, hw, hrun⟩ := bind_eq_ok.mp h₁
        rw [he]
        exact (propertyWrite_spec c hw).entry c hrun
  · apply DB.ext
    rw [DB.step_root, DB.step_root]
    simp only [Op.exec, updateValue_eq]
    split
    · rfl
    · rename_i b hb
      have hnil : properties = [] ↔ properties' = [] :=
        ⟨fun h => (h ▸ hperm).nil_eq.symm, fun h => (h ▸ hperm.symm).nil_eq.symm⟩
      by_cases h₀ : properties = []
      · rw [if_pos h₀, if_pos (hnil.mp h₀)]
      · rw [if_neg h₀, if_neg (mt hnil.mpr h₀)]
        refine commit_map_congr ?_ _ _
        have hwb := s.wf_getBucket hb
        cases h : updateFields c properties b with
        | ok b' => rw [updateFields_perm c hperm hnd hwb h]
        | error e =>
          cases h' : updateFields c properties' b with
          | error e' => rfl
          | ok b' =>
            have := updateFields_perm c hperm.symm ((hperm.map _).nodup_iff.mp hnd) hwb h'
            rw [h] at this; cases this

/-- A record saved with one string field, updated with a string and a map. -/
theorem updateValue_writes_each_property_string_and_map :
    (([([3], .string [4]), ([5], .stringMap (some [([6], [7])]))] :
      List (Bytes × GoValue)).map Prod.fst).Nodup ∧
    (∀ p ∈ ([([3], .string [4]), ([5], .stringMap (some [([6], [7])]))] : List (Bytes × GoValue)),
      ∀ q ∈ ([([3], .string [4]), ([5], .stringMap (some [([6], [7])]))] :
        List (Bytes × GoValue)),
        specCodec.toBucketField p.1 = specCodec.toBucketField q.1 → p.1 = q.1) ∧
    (getBucket (run specCodec [.save [1] [2] [([3], .string [8])]]).root [1] [2] = none →
      UpdateValue specCodec [1] [2] [([3], .string [4]), ([5], .stringMap (some [([6], [7])]))]
        (run specCodec [.save [1] [2] [([3], .string [8])]]).root =
        .ok (run specCodec [.save [1] [2] [([3], .string [8])]]).root) ∧
    (∀ b db', getBucket (run specCodec [.save [1] [2] [([3], .string [8])]]).root [1] [2] = some b →
      UpdateValue specCodec [1] [2] [([3], .string [4]), ([5], .stringMap (some [([6], [7])]))]
        (run specCodec [.save [1] [2] [([3], .string [8])]]).root = .ok db' →
      ∃ b', getBucket db' [1] [2] = some b' ∧
        (∀ f, (∀ p ∈ ([([3], .string [4]), ([5], .stringMap (some [([6], [7])]))] :
          List (Bytes × GoValue)), specCodec.toBucketField p.1 ≠ f) → b'.lookup f = b.lookup f) ∧
        ∀ p ∈ ([([3], .string [4]), ([5], .stringMap (some [([6], [7])]))] :
          List (Bytes × GoValue)),
          SpecEntry specCodec p.2 (b.lookup (specCodec.toBucketField p.1))
            (b'.lookup (specCodec.toBucketField p.1))) ∧
    ∀ properties', ([([3], .string [4]), ([5], .stringMap (some [([6], [7])]))] :
        List (Bytes × GoValue)).Perm properties' →
      (run specCodec [.save [1] [2] [([3], .string [8])]]).step specCodec
          (.update [1] [2] [([3], .string [4]), ([5], .stringMap (some [([6], [7])]))]) =
        (run specCodec [.save [1] [2] [([3], .string [8])]]).step specCodec
          (.update [1] [2] properties') :=
  ⟨by decide, by decide, updateValue_writes_each_property specCodec _ [1] [2] _ (by decide)
    (by decide)⟩

/-! ## Values the loop cannot write -/

/-- **`UpdateValue` panics on some values.**  On an existing record bucket, a property whose
value is the nil interface makes `reflect.TypeOf(propValue).Kind()` dereference a nil type, and
a property whose value has a defined type of kind string, bool, an integer or a map other than
`map[string]string` fails the assertion to the predeclared type (`propValue.(string)`, …): the
call panics, and bolt rolls the transaction back. -/
theorem updateValue_panics (s : DB) {typ key : Bytes} {b : Bucket}
    (hb : getBucket s.root typ key = some b) (p : Bytes) (rest : List (Bytes × GoValue)) :
    UpdateValue c typ key ((p, .nil) :: rest) s.root = .error (.panic .nilDereference) ∧
    ∀ k ∈ [Kind.string, .bool, .int, .int8, .int16, .int32, .int64, .uint, .uint8, .uint16,
        .uint32, .uint64, .map],
      UpdateValue c typ key ((p, .other k) :: rest) s.root =
        .error (.panic .interfaceConversion) := by
  have hfirst : ∀ v e, propertyWrite c v = .error e →
      UpdateValue c typ key ((p, v) :: rest) s.root = .error e := fun v e he => by
    simp only [updateValue_eq, hb, List.cons_ne_nil, if_false, updateFields, List.foldlM_cons,
      updateProperty, he, error_bind, map_error]
  refine ⟨hfirst _ _ rfl, fun k hk => hfirst _ _ ?_⟩
  simp only [List.mem_cons, List.mem_singleton, List.not_mem_nil, or_false] at hk
  rcases hk with rfl | rfl | rfl | rfl | rfl | rfl | rfl | rfl | rfl | rfl | rfl | rfl | rfl <;> rfl

theorem updateValue_panics_on_saved_record :
    getBucket (run specCodec [.save [1] [2] []]).root [1] [2] = some [] ∧
    UpdateValue specCodec [1] [2] [([3], .nil)] (run specCodec [.save [1] [2] []]).root =
      .error (.panic .nilDereference) ∧
    ∀ k ∈ [Kind.string, .bool, .int, .int8, .int16, .int32, .int64, .uint, .uint8, .uint16,
        .uint32, .uint64, .map],
      UpdateValue specCodec [1] [2] [([3], .other k)] (run specCodec [.save [1] [2] []]).root =
        .error (.panic .interfaceConversion) :=
  ⟨rfl, @updateValue_panics _ _ specCodec (run specCodec [.save [1] [2] []]) [1] [2] [] rfl
    [3] []⟩

end Polaris

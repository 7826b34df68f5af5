import Polaris.Bolt.SortedMap

/-!
# The bolt bucket tree and the part of its API the handler calls

A bolt file is a tree of buckets.  A bucket maps byte keys, in `bytes.Compare` order, to
either a value or a nested bucket; the root bucket of a transaction holds only buckets,
since `Tx` has no `Put`.  We model the calls `handler.go` makes, with the error each returns
(`errors.go` of `github.com/boltdb/bolt`):

* `Bucket.bucket` (`Bucket(name)`, `Tx.Bucket`), `Bucket.get` (`Get`);
* `Bucket.put` (`Put`: `ErrKeyRequired`, `ErrKeyTooLarge`, `ErrValueTooLarge`,
  `ErrIncompatibleValue` over a nested bucket);
* `Bucket.createBucket`, `Bucket.createBucketIfNotExists`, `Bucket.deleteBucket`;
* `Bucket.forEach` — the `(k, v)` pairs `ForEach` visits, nested buckets included (`v = nil`).

Go code holds live `*bolt.Bucket` handles; a functional model reads a child's entries, works
on them, and writes them back with `Bucket.setBucket`.  Well-formedness (`Node.WF`: every
level ordered) is preserved by each call (`WF.put`, `WF.createBucket`, ...), and `DB` is the
type of well-formed files.
-/

set_option autoImplicit false

namespace Polaris

/-- A bucket entry: a value, or a nested bucket with its ordered entries. -/
inductive Node where
  | value (v : Bytes)
  | bucket (children : List ((_ : Bytes) × Node))
  deriving Repr

/-- The entries of a bucket. -/
abbrev Bucket := Entries Node

/-- `bolt`'s errors, as far as the handler's calls can return them. -/
inductive BoltError where
  | bucketNotFound
  | bucketExists
  | bucketNameRequired
  | keyRequired
  | keyTooLarge
  | valueTooLarge
  | incompatibleValue
  deriving DecidableEq, Repr

/-- `MaxKeySize`. -/
def MaxKeySize : Nat := 32768

/-- `MaxValueSize` (`(1 << 31) - 2`). -/
def MaxValueSize : Nat := 2147483646

namespace Node

/-- Whether the entry is a nested bucket. -/
def isBucket : Node → Bool
  | .bucket _ => true
  | .value _ => false

/-- Every bucket of the tree is ordered. -/
inductive WF : Node → Prop
  | value (v : Bytes) : WF (.value v)
  | bucket {children : Bucket} : Entries.Ordered children → (∀ e ∈ children, WF e.2) →
      WF (.bucket children)

theorem wf_bucket_iff {b : Bucket} :
    WF (.bucket b) ↔ Entries.Ordered b ∧ ∀ e ∈ b, WF e.2 :=
  ⟨fun h => by cases h; exact ⟨‹_›, ‹_›⟩, fun h => .bucket h.1 h.2⟩

theorem wf_empty : WF (.bucket []) := .bucket Entries.ordered_nil (by simp)

end Node

namespace Bucket

open Entries

/-- `Bucket(name)`: the nested bucket under `name`, nil for a missing key or a value. -/
def bucket (b : Bucket) (name : Bytes) : Option Bucket :=
  match b.lookup name with
  | some (.bucket c) => some c
  | _ => none

/-- `Get(key)`: the value under `key`, nil for a missing key or a nested bucket. -/
def get (b : Bucket) (key : Bytes) : Option Bytes :=
  match b.lookup key with
  | some (.value v) => some v
  | _ => none

/-- `Put(key, value)`. -/
def put (b : Bucket) (key value : Bytes) : Except BoltError Bucket :=
  if key = [] then .error .keyRequired
  else if MaxKeySize < key.length then .error .keyTooLarge
  else if MaxValueSize < value.length then .error .valueTooLarge
  else match b.lookup key with
    | some (.bucket _) => .error .incompatibleValue
    | _ => .ok (b.insert key (.value value))

/-- `CreateBucket(key)`: the new (empty) child and the parent holding it. -/
def createBucket (b : Bucket) (key : Bytes) : Except BoltError (Bucket × Bucket) :=
  if key = [] then .error .bucketNameRequired
  else match b.lookup key with
    | some (.bucket _) => .error .bucketExists
    | some (.value _) => .error .incompatibleValue
    | none => .ok ([], b.insert key (.bucket []))

/-- `CreateBucketIfNotExists(key)`: `CreateBucket`, and on `ErrBucketExists` the existing child. -/
def createBucketIfNotExists (b : Bucket) (key : Bytes) : Except BoltError (Bucket × Bucket) :=
  match b.createBucket key with
  | .error .bucketExists => .ok ((b.bucket key).getD [], b)
  | r => r

/-- `DeleteBucket(key)`, with every bucket nested in it. -/
def deleteBucket (b : Bucket) (key : Bytes) : Except BoltError Bucket :=
  match b.lookup key with
  | none => .error .bucketNotFound
  | some (.value _) => .error .incompatibleValue
  | some (.bucket _) => .ok (b.erase key)

/-- The pairs `ForEach` visits, in key order; a nested bucket is visited with `v = nil`. -/
def forEach (b : Bucket) : List (Bytes × Option Bytes) :=
  b.map fun e => (e.1, match e.2 with | .value v => some v | .bucket _ => none)

/-- The handle of child `name` after its entries became `child`. -/
def setBucket (b : Bucket) (name : Bytes) (child : Bucket) : Bucket :=
  b.insert name (.bucket child)

/-- `for k, v := range entries { if err := bucket.Put(k, v); err != nil { return err } }`. -/
def putAll (b : Bucket) (entries : List (Bytes × Bytes)) : Except BoltError Bucket :=
  entries.foldlM (fun b e => b.put e.1 e.2) b

/-! ## What each call does -/

theorem bucket_eq_some {b c : Bucket} {name : Bytes} :
    b.bucket name = some c ↔ b.lookup name = some (.bucket c) := by
  unfold bucket; split <;> simp_all

theorem bucket_eq_none {b : Bucket} {name : Bytes} :
    b.bucket name = none ↔ ∀ c, b.lookup name ≠ some (.bucket c) := by
  unfold bucket; split <;> simp_all

theorem get_eq_some {b : Bucket} {key v : Bytes} :
    b.get key = some v ↔ b.lookup key = some (.value v) := by
  unfold get; split <;> simp_all

/-- The conditions under which `Put` succeeds. -/
def PutOk (b : Bucket) (key value : Bytes) : Prop :=
  key ≠ [] ∧ key.length ≤ MaxKeySize ∧ value.length ≤ MaxValueSize ∧
    ∀ c, b.lookup key ≠ some (.bucket c)

theorem put_eq_ok {b b' : Bucket} {key value : Bytes} :
    b.put key value = .ok b' ↔ PutOk b key value ∧ b' = b.insert key (.value value) := by
  unfold put PutOk
  by_cases h1 : key = []
  · simp [h1]
  by_cases h2 : MaxKeySize < key.length
  · simp [h1, h2, not_le.mpr h2]
  by_cases h3 : MaxValueSize < value.length
  · simp [h1, h2, h3, not_le.mpr h3]
  simp only [h1, h2, h3, if_false]
  rcases h : b.lookup key with _ | (_ | _) <;> simp [h, h1, not_lt.mp h2, not_lt.mp h3, eq_comm]

theorem createBucket_eq_ok {b c b' : Bucket} {key : Bytes} :
    b.createBucket key = .ok (c, b') ↔
      key ≠ [] ∧ b.lookup key = none ∧ c = [] ∧ b' = b.setBucket key [] := by
  unfold createBucket setBucket
  by_cases hk : key = []
  · simp [hk]
  · rcases h : b.lookup key with _ | (_ | _) <;> simp [hk, h, eq_comm]

theorem createBucketIfNotExists_eq_ok {b c b' : Bucket} {key : Bytes} :
    b.createBucketIfNotExists key = .ok (c, b') ↔
      key ≠ [] ∧ ((b.lookup key = some (.bucket c) ∧ b' = b) ∨
        (b.lookup key = none ∧ c = [] ∧ b' = b.setBucket key [])) := by
  unfold createBucketIfNotExists createBucket setBucket
  by_cases hk : key = []
  · simp [hk]
  · rcases h : b.lookup key with _ | (_ | _) <;> simp [hk, h, bucket, eq_comm]

theorem deleteBucket_eq_ok {b b' : Bucket} {key : Bytes} :
    b.deleteBucket key = .ok b' ↔ (∃ c, b.lookup key = some (.bucket c)) ∧ b' = b.erase key := by
  unfold deleteBucket
  rcases h : b.lookup key with _ | (_ | _) <;> simp [eq_comm]

theorem bucket_setBucket (b c : Bucket) (k k' : Bytes) :
    (b.setBucket k c).bucket k' = if k = k' then some c else b.bucket k' := by
  unfold setBucket
  by_cases h : k = k'
  · subst h; simp [bucket]
  · simp only [bucket, lookup_insert_ne _ _ h, if_neg h]

theorem lookup_setBucket (b c : Bucket) (k k' : Bytes) :
    (b.setBucket k c).lookup k' = if k = k' then some (.bucket c) else b.lookup k' :=
  lookup_insert _ _ _ _

theorem bucket_erase_ne (b : Bucket) {k k' : Bytes} (h : k ≠ k') :
    Bucket.bucket (b.erase k) k' = b.bucket k' := by
  simp only [bucket, lookup_erase_ne b h]

theorem bucket_erase_self {b : Bucket} (h : Ordered b) (k : Bytes) :
    Bucket.bucket (b.erase k) k = none := by
  simp only [bucket, lookup_erase_self h]

/-! ## Well-formedness is kept -/

theorem wf_insert {b : Bucket} (hb : (Node.bucket b).WF) (k : Bytes) {n : Node} (hn : n.WF) :
    (Node.bucket (b.insert k n)).WF := by
  rw [Node.wf_bucket_iff] at hb ⊢
  exact ⟨hb.1.insert k n, fun e he => (mem_insert he).elim (fun h => h ▸ hn) (hb.2 e)⟩

theorem wf_erase {b : Bucket} (hb : (Node.bucket b).WF) (k : Bytes) :
    (Node.bucket (b.erase k)).WF := by
  rw [Node.wf_bucket_iff] at hb ⊢
  exact ⟨hb.1.erase k, fun e he => hb.2 e ((List.kerase_sublist k b).subset he)⟩

theorem wf_of_lookup {b : Bucket} (hb : (Node.bucket b).WF) {k : Bytes} {n : Node}
    (h : b.lookup k = some n) : n.WF :=
  (Node.wf_bucket_iff.mp hb).2 _ (List.of_mem_dlookup h)

theorem wf_bucket {b c : Bucket} (hb : (Node.bucket b).WF) {k : Bytes} (h : b.bucket k = some c) :
    (Node.bucket c).WF :=
  wf_of_lookup hb (bucket_eq_some.mp h)

theorem wf_setBucket {b c : Bucket} (hb : (Node.bucket b).WF) (k : Bytes) (hc : (Node.bucket c).WF) :
    (Node.bucket (b.setBucket k c)).WF :=
  wf_insert hb k hc

theorem wf_put {b b' : Bucket} (hb : (Node.bucket b).WF) {k v : Bytes} (h : b.put k v = .ok b') :
    (Node.bucket b').WF := by
  obtain ⟨-, rfl⟩ := put_eq_ok.mp h
  exact wf_insert hb k (.value v)

theorem wf_putAll {b b' : Bucket} (hb : (Node.bucket b).WF) {entries : List (Bytes × Bytes)}
    (h : b.putAll entries = .ok b') : (Node.bucket b').WF := by
  induction entries generalizing b with
  | nil => cases h; exact hb
  | cons e rest ih =>
    simp only [putAll, List.foldlM_cons] at h
    cases hp : b.put e.1 e.2 with
    | error _ => simp [hp] at h; cases h
    | ok b₁ => simp only [hp] at h; exact ih (wf_put hb hp) h

theorem ordered_of_wf {b : Bucket} (hb : (Node.bucket b).WF) : Entries.Ordered b :=
  (Node.wf_bucket_iff.mp hb).1

end Bucket

/-- A bolt database: its root bucket, which holds only buckets, and is well formed. -/
structure DB where
  root : Bucket
  wf : (Node.bucket root).WF
  rootBuckets : ∀ e ∈ root, e.2.isBucket

/-- A new, empty database file. -/
def DB.empty : DB := ⟨[], Node.wf_empty, by simp⟩

end Polaris

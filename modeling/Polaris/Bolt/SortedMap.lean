import Mathlib.Data.List.Sigma
import Mathlib.Data.List.Sort
import Mathlib.Data.List.Lex
import Mathlib.Order.Fin.Basic

/-!
# Byte strings and ordered entry lists

`bolt` keeps each bucket as a B+tree whose leaves are sorted by key under `bytes.Compare`:
byte-wise lexicographic order, a proper prefix first.  We denote a bucket by the list of its
entries in that order, `Entries β`, with keys strictly increasing (`Ordered`).  The same
representation serves for the Go maps the handler builds (`values[key] = obj`): a Go map has
no order, and its sorted entry list is a canonical representative, so two maps are equal
exactly when their lists are.

* `insert` — sorted insertion, replacing an entry with the same key (`bucket.Put`,
  `values[key] = v`);
* `erase` — `List.kerase` (`bucket.Delete`, `DeleteBucket`);
* `lookup_insert_self`, `lookup_insert_ne`, `lookup_erase_self`, `lookup_erase_ne` — the
  lookup algebra, the first two with no well-formedness premise;
* `ext` — two ordered lists with the same lookups are equal.
-/

set_option autoImplicit false

namespace Polaris

/-- A Go `[]byte`, and a Go `string` read as its bytes. -/
abbrev Bytes := List (Fin 256)

/-- The bytes of an ASCII string literal. -/
def ascii (s : String) : Bytes := s.toList.map fun ch => Fin.ofNat ch.toNat

/-- A key-ordered entry list. -/
abbrev Entries (β : Type) := List ((_ : Bytes) × β)

namespace Entries

variable {β : Type}

/-- Keys strictly increasing: the order of a bolt leaf. -/
def Ordered (l : Entries β) : Prop := l.Pairwise (fun a b => a.1 < b.1)

/-- The value stored under `k`. -/
def lookup (k : Bytes) (l : Entries β) : Option β := l.dlookup k

/-- Sorted insertion, replacing any entry with the same key. -/
def insert (k : Bytes) (x : β) : Entries β → Entries β
  | [] => [⟨k, x⟩]
  | e :: rest =>
    if k < e.1 then ⟨k, x⟩ :: e :: rest
    else if k = e.1 then ⟨k, x⟩ :: rest
    else e :: insert k x rest

/-- Removal of the entry under `k`. -/
def erase (k : Bytes) (l : Entries β) : Entries β := l.kerase k

theorem Ordered.nodupKeys {l : Entries β} (h : Ordered l) : l.NodupKeys :=
  List.nodupKeys_iff_pairwise.mpr (h.imp ne_of_lt)

theorem ordered_nil : Ordered ([] : Entries β) := List.Pairwise.nil

@[simp] theorem lookup_nil (k : Bytes) : lookup k ([] : Entries β) = none := rfl

theorem lookup_cons (k k' : Bytes) (x : β) (l : Entries β) :
    lookup k (⟨k', x⟩ :: l) = if k' = k then some x else lookup k l := by
  by_cases h : k' = k
  · subst h; rw [if_pos rfl]; exact List.dlookup_cons_eq l k' x
  · rw [if_neg h]; exact List.dlookup_cons_ne l ⟨k', x⟩ (Ne.symm h)

theorem mem_insert {k : Bytes} {x : β} {a : (_ : Bytes) × β} {l : Entries β}
    (h : a ∈ insert k x l) : a = ⟨k, x⟩ ∨ a ∈ l := by
  induction l with
  | nil => simpa [insert] using h
  | cons e rest ih =>
    simp only [insert] at h
    split_ifs at h
    · exact (List.mem_cons.mp h).imp_right id
    · exact (List.mem_cons.mp h).imp_right (List.mem_cons_of_mem e)
    · rcases List.mem_cons.mp h with rfl | h
      · exact .inr (List.mem_cons_self _ _)
      · exact (ih h).imp_right (List.mem_cons_of_mem e)

@[simp] theorem lookup_insert_self (k : Bytes) (x : β) (l : Entries β) :
    lookup k (insert k x l) = some x := by
  induction l with
  | nil => simp [insert, lookup_cons]
  | cons e rest ih =>
    simp only [insert]
    split_ifs with h1 h2
    · simp [lookup_cons]
    · simp [lookup_cons]
    · rw [lookup_cons, if_neg (Ne.symm h2), ih]

theorem lookup_insert_ne {k k' : Bytes} (x : β) (l : Entries β) (h : k ≠ k') :
    lookup k' (insert k x l) = lookup k' l := by
  induction l with
  | nil => simp [insert, lookup_cons, h]
  | cons e rest ih =>
    obtain ⟨ke, xe⟩ := e
    simp only [insert]
    split_ifs with h1 h2
    · simp [lookup_cons, h]
    · subst h2; simp [lookup_cons, h]
    · simp only [lookup_cons, ih]

theorem lookup_insert (k k' : Bytes) (x : β) (l : Entries β) :
    lookup k' (insert k x l) = if k = k' then some x else lookup k' l := by
  split
  · subst_vars; exact lookup_insert_self _ _ _
  · exact lookup_insert_ne x l ‹_›

theorem Ordered.insert {l : Entries β} (h : Ordered l) (k : Bytes) (x : β) :
    Ordered (insert k x l) := by
  induction l with
  | nil => exact List.pairwise_singleton _ _
  | cons e rest ih =>
    have hr : ∀ a ∈ rest, e.1 < a.1 := fun _ ha => List.rel_of_pairwise_cons h ha
    simp only [Entries.insert]
    split_ifs with h1 h2
    · exact h.cons fun a ha => (List.mem_cons.mp ha).elim (fun e' => e' ▸ h1)
        (fun m => h1.trans (hr a m))
    · subst h2; exact h.of_cons.cons hr
    · exact (ih h.of_cons).cons fun a ha => (mem_insert ha).elim
        (fun e' => e' ▸ lt_of_le_of_ne (not_lt.mp h1) (Ne.symm h2)) (hr a)

theorem Ordered.erase {l : Entries β} (h : Ordered l) (k : Bytes) : Ordered (erase k l) :=
  List.Pairwise.sublist (List.kerase_sublist k l) h

theorem lookup_erase_self {l : Entries β} (h : Ordered l) (k : Bytes) :
    lookup k (erase k l) = none :=
  List.dlookup_kerase k h.nodupKeys

theorem lookup_erase_ne {k k' : Bytes} (l : Entries β) (h : k ≠ k') :
    lookup k' (erase k l) = lookup k' l :=
  List.dlookup_kerase_ne (Ne.symm h)

theorem lookup_erase {l : Entries β} (h : Ordered l) (k k' : Bytes) :
    lookup k' (erase k l) = if k = k' then none else lookup k' l := by
  split
  · subst_vars; exact lookup_erase_self h _
  · exact lookup_erase_ne l ‹_›

theorem Ordered.filter {l : Entries β} (h : Ordered l) (p : Bytes → Bool) :
    Ordered (l.filter fun e => p e.1) :=
  List.Pairwise.filter _ h

theorem lookup_filter (p : Bytes → Bool) (l : Entries β) (k : Bytes) :
    lookup k (l.filter fun e => p e.1) = if p k then lookup k l else none := by
  induction l with
  | nil => simp
  | cons e l ih =>
    obtain ⟨k', x⟩ := e
    rw [List.filter_cons]
    by_cases he : k' = k
    · subst he
      cases hp : p k' <;> simp [lookup_cons, hp, ih]
    · split <;> simp [lookup_cons, he, ih]

theorem lookup_isSome_iff (k : Bytes) (l : Entries β) : (lookup k l).isSome ↔ k ∈ l.keys :=
  List.dlookup_isSome

theorem Ordered.keys_sorted {l : Entries β} (h : Ordered l) : l.keys.Sorted (· < ·) :=
  List.Pairwise.map _ (fun _ _ => id) h

/-- **Extensionality**: ordered entry lists with the same lookups are equal. -/
theorem ext {l₁ l₂ : Entries β} (h₁ : Ordered l₁) (h₂ : Ordered l₂)
    (h : ∀ k, lookup k l₁ = lookup k l₂) : l₁ = l₂ := by
  haveI : IsAntisymm ((_ : Bytes) × β) (fun a b => a.1 < b.1) :=
    ⟨fun _ _ hab hba => absurd (hab.trans hba) (lt_irrefl _)⟩
  exact List.eq_of_perm_of_sorted
    (List.lookup_ext h₁.nodupKeys h₂.nodupKeys (fun k y => by rw [← lookup, ← lookup, h k])) h₁ h₂

/-! ## Rewriting by extensionality -/

theorem insert_insert {l : Entries β} (h : Ordered l) (k : Bytes) (x y : β) :
    insert k y (insert k x l) = insert k y l :=
  ext ((h.insert k x).insert k y) (h.insert k y) fun k' => by
    simp only [lookup_insert]; split <;> rfl

theorem insert_erase {l : Entries β} (h : Ordered l) (k : Bytes) (x : β) :
    insert k x (erase k l) = insert k x l :=
  ext ((h.erase k).insert k x) (h.insert k x) fun k' => by
    rw [lookup_insert, lookup_insert, lookup_erase h]; split <;> rfl

theorem insert_of_lookup {l : Entries β} (h : Ordered l) {k : Bytes} {x : β}
    (hk : lookup k l = some x) : insert k x l = l :=
  ext (h.insert k x) h fun k' => by
    rw [lookup_insert]; split <;> simp_all

theorem erase_of_lookup {l : Entries β} (h : Ordered l) {k : Bytes} (hk : lookup k l = none) :
    erase k l = l :=
  ext (h.erase k) h fun k' => by
    rw [lookup_erase h]; split <;> simp_all

theorem insert_comm {l : Entries β} (h : Ordered l) {k k' : Bytes} (hk : k ≠ k') (x y : β) :
    insert k x (insert k' y l) = insert k' y (insert k x l) :=
  ext ((h.insert k' y).insert k x) ((h.insert k x).insert k' y) fun j => by
    simp only [lookup_insert]; split_ifs <;> simp_all

end Entries

end Polaris

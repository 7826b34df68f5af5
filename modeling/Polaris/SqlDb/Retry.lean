import Mathlib.Data.List.Infix
import Polaris.Bolt.SortedMap

/-!
# `Retry`: the SQL store's retry of transient database errors

`Retry(label, handle)` (package `sqldb`) calls `handle` up to `maxTryTimes = 20` times.  It
stops at the first call that returns nil, and at the first error whose text contains none of
`errMsg` ("Deadlock", "bad connection", "invalid connection").  After the `i`-th call fails
with such a text it sleeps `5 * i` ms, the last time included.  `RetryTransaction`,
`BaseDB.Exec`, `Query` and `Begin` run `Retry` on a closure that stores each call's results
in variables of the caller and return those variables afterwards: they return what the last
call returned.

The database is a schedule of outcomes, `outcome k` being what the `k`-th call returns; the
results hold for every schedule.

## Results

* `retryable_eq` — `retryable` is the search of the three texts in the error's text
  (`TransientText`);
* `retryLoop_schedule` — the loop from any attempt: the calls, the sleeps and the stored
  results;
* `retryStoring_run` — the same for `retryStoring`, from no call made;
* `retry_schedule` — for every schedule, the calls made, the sleeps and the results returned,
  by `RetryTransaction`, `Exec`, `Query` and `Begin` alike.
-/

set_option autoImplicit false

namespace Polaris

/-! ## The model -/

/-- `strings.Contains(s, substr)`: `substr` occurs in `s`. -/
def Contains : Bytes → Bytes → Bool
  | [], substr => substr.isEmpty
  | c :: s, substr => substr.isPrefixOf (c :: s) || Contains s substr

/-- `errMsg`: the texts of the database errors worth retrying. -/
def errMsg : List Bytes := [ascii "Deadlock", ascii "bad connection", ascii "invalid connection"]

variable {m : Type → Type} [Monad m] {E : Type}

/-- The inner loop of `Retry`, `for _, msg := range errMsg`: whether the text `err.Error()`
contains one of `errMsg`.  It breaks at the first that does, after one sleep. -/
def retryable (errorText : E → Bytes) (err : E) : Bool :=
  errMsg.any fun msg => Contains (errorText err) msg

/-! ## Errors worth retrying -/

/-- An error text worth retrying, as the comment on `errMsg` puts it: one in which "Deadlock",
"bad connection" or "invalid connection" occurs. -/
def TransientText (text : Bytes) : Prop :=
  ascii "Deadlock" <:+: text ∨ ascii "bad connection" <:+: text ∨
    ascii "invalid connection" <:+: text

instance : DecidablePred TransientText := fun _ => instDecidableOr

/-- `strings.Contains` finds exactly the texts that occur in `s`. -/
theorem contains_iff_occurs (s substr : Bytes) : Contains s substr = true ↔ substr <:+: s := by
  induction s with
  | nil => cases substr <;> simp [Contains]
  | cons c s ih =>
    rw [List.infix_cons_iff, ← ih, ← List.isPrefixOf_iff_prefix]
    simp [Contains]

/-- **`retryable` is the search of `errMsg` in the error's text.** -/
theorem retryable_eq (errorText : E → Bytes) (err : E) :
    retryable errorText err = decide (TransientText (errorText err)) := by
  simp only [retryable, errMsg, TransientText, List.any_cons, List.any_nil, Bool.or_false,
    Bool.decide_or, ← contains_iff_occurs, Bool.decide_eq_true]

/-- The loop `for i := 1; i <= maxTryTimes; i++` of `Retry` at attempt `i`, with `n` attempts
left; `time.Sleep(time.Millisecond * 5 * time.Duration(i))` is `sleep (5 * i)`. -/
def retryLoop (sleep : Nat → m Unit) (errorText : E → Bytes) (handle : m (Option E))
    (i : Nat) : Nat → m Unit
  | 0 => pure ()
  | n + 1 => do
    match ← handle with
    | none => pure ()
    | some err =>
      if retryable errorText err then
        sleep (5 * i)
        retryLoop sleep errorText handle (i + 1) n
      else pure ()

/-- `Retry(label, handle)`, `maxTryTimes := 20`; the label is only logged. -/
def Retry (sleep : Nat → m Unit) (errorText : E → Bytes) (handle : m (Option E)) : m Unit :=
  retryLoop sleep errorText handle 1 20

/-- What `RetryTransaction`, `BaseDB.Exec`, `Query` and `Begin` share: `Retry` runs a closure
that stores each call's results in the caller's variables (`result, err = b.DB.Exec(...)`)
and returns its error; the caller then returns the variables, which start at their zero
values. -/
def retryStoring {α : Type} (zero : α) (sleep : Nat → m Unit) (errorText : E → Bytes)
    (attempt : m (α × Option E)) : m (α × Option E) := do
  let (_, vars) ← (Retry (fun ms => StateT.lift (sleep ms)) errorText (do
      let r ← StateT.lift attempt
      set r
      pure r.2) : StateT (α × Option E) m Unit).run (zero, none)
  pure vars

/-- `RetryTransaction(label, handle)`: the error of the last call of `handle`. -/
def RetryTransaction (sleep : Nat → m Unit) (errorText : E → Bytes) (handle : m (Option E)) :
    m (Option E) :=
  Prod.snd <$> retryStoring () sleep errorText ((fun err => ((), err)) <$> handle)

/-- `BaseDB.Exec(query, args...)`; `dbExec` is the driver's `b.DB.Exec(query, args...)`, and
`Result` stands for `sql.Result`, nil at first. -/
def BaseDB.Exec {Result : Type} (sleep : Nat → m Unit) (errorText : E → Bytes)
    (dbExec : m (Option Result × Option E)) : m (Option Result × Option E) :=
  retryStoring none sleep errorText dbExec

/-- `BaseDB.Query(query, args...)`; `dbQuery` is the driver's `b.DB.Query(query, args...)`. -/
def BaseDB.Query {Rows : Type} (sleep : Nat → m Unit) (errorText : E → Bytes)
    (dbQuery : m (Option Rows × Option E)) : m (Option Rows × Option E) :=
  retryStoring none sleep errorText dbQuery

/-- `BaseDB.Begin()`: the options carry the isolation level only when it is positive;
`beginTx` is the driver's `b.DB.BeginTx(context.Background(), option)`, and the transaction
is returned wrapped in a `BaseTx` even when it is nil. -/
def BaseDB.Begin {Tx : Type} (sleep : Nat → m Unit) (errorText : E → Bytes)
    (isolationLevel : Int) (beginTx : Option Int → m (Option Tx × Option E)) :
    m (Option Tx × Option E) :=
  let option := if isolationLevel > 0 then some isolationLevel else none
  retryStoring none sleep errorText (beginTx option)

/-! ## A schedule of outcomes -/

/-- A database whose calls are answered from a schedule: the state counts the calls made and
records the sleeps asked for, in milliseconds. -/
structure Schedule where
  calls : Nat
  slept : List Nat
  deriving DecidableEq, Repr

/-- The next call, answered by `outcome` at the number of calls made so far. -/
def Schedule.attempt {β : Type} (outcome : Nat → β) : StateM Schedule β :=
  modifyGet fun s => (outcome s.calls, { s with calls := s.calls + 1 })

/-- `time.Sleep`, recorded. -/
def Schedule.sleep (ms : Nat) : StateM Schedule Unit :=
  modify fun s => { s with slept := s.slept ++ [ms] }

/-- Of the calls `start, start + 1, …`, at most `n` of them, how many in a row fail with an
error whose text is worth retrying. -/
def leadingRetryable (errorText : E → Bytes) (outcome : Nat → Option E) (start : Nat) :
    Nat → Nat
  | 0 => 0
  | n + 1 =>
    if (outcome start).any fun e => decide (TransientText (errorText e)) then
      leadingRetryable errorText outcome (start + 1) n + 1
    else 0

theorem leadingRetryable_le (errorText : E → Bytes) (outcome : Nat → Option E) (start n : Nat) :
    leadingRetryable errorText outcome start n ≤ n := by
  induction n generalizing start with
  | zero => rfl
  | succ n ih =>
    unfold leadingRetryable
    split
    · exact Nat.succ_le_succ (ih _)
    · exact Nat.zero_le _

section Schedule

variable {α : Type} (errorText : E → Bytes) (outcome : Nat → α × Option E)

/-- The closure `Retry` runs, against the schedule: one call, whose results it stores. -/
def scheduledClosure : StateT (α × Option E) (StateM Schedule) (Option E) := do
  let r ← StateT.lift (Schedule.attempt outcome)
  set r
  pure r.2

/-- One attempt of the loop: the call; then the end of the loop, or a sleep and the next
attempt. -/
theorem retryLoop_schedule_succ (i n c : Nat) (v : α × Option E) (L : List Nat) :
    ((retryLoop (fun ms => StateT.lift (Schedule.sleep ms)) errorText
        (scheduledClosure outcome) i (n + 1)).run v).run ⟨c, L⟩ =
      if (outcome c).2.any fun e => decide (TransientText (errorText e)) then
        ((retryLoop (fun ms => StateT.lift (Schedule.sleep ms)) errorText
          (scheduledClosure outcome) (i + 1) n).run (outcome c)).run ⟨c + 1, L ++ [5 * i]⟩
      else (((), outcome c), ⟨c + 1, L⟩) := by
  rcases h : (outcome c).2 with _ | err
  · simp [retryLoop, scheduledClosure, Schedule.attempt, h]
  · by_cases hr : TransientText (errorText err) <;>
      simp [retryLoop, scheduledClosure, Schedule.attempt, Schedule.sleep, retryable_eq, h, hr]

/-- **The loop against the schedule**, from attempt `c + 1` with `n > 0` attempts left: with
`q` calls in a row failing with an error worth retrying, it makes `min (q + 1) n` calls,
sleeps `5 * i` ms after each failing call `i`, and stores the results of the last call. -/
theorem retryLoop_schedule (n c : Nat) (hn : 0 < n) (v : α × Option E) (L : List Nat) :
    ((retryLoop (fun ms => StateT.lift (Schedule.sleep ms)) errorText
        (scheduledClosure outcome) (c + 1) n).run v).run ⟨c, L⟩ =
      (((), outcome (c + min (leadingRetryable errorText (fun k => (outcome k).2) c n) (n - 1))),
        ⟨c + min (leadingRetryable errorText (fun k => (outcome k).2) c n + 1) n,
          L ++ (List.range' (c + 1) (leadingRetryable errorText (fun k => (outcome k).2) c n)).map
            (5 * ·)⟩) := by
  induction n generalizing c v L with
  | zero => omega
  | succ n ih =>
    rw [retryLoop_schedule_succ]
    by_cases h : (outcome c).2.any fun e => decide (TransientText (errorText e))
    · rw [if_pos h]
      simp only [leadingRetryable, h, if_true]
      rcases n with _ | n
      · simp [retryLoop, leadingRetryable]
      · rw [ih (c + 1) (by omega)]
        have hq := leadingRetryable_le errorText (fun k => (outcome k).2) (c + 1) (n + 1)
        generalize leadingRetryable errorText (fun k => (outcome k).2) (c + 1) (n + 1) = q at hq ⊢
        rw [List.range'_succ, show c + 1 + min q (n + 1 - 1) = c + min (q + 1) (n + 1 + 1 - 1)
          by omega, show c + 1 + min (q + 1) (n + 1) = c + min (q + 1 + 1) (n + 1 + 1) by omega]
        simp
    · rw [if_neg h]
      simp [leadingRetryable, h]

/-- `retryStoring` against the schedule, from no call made. -/
theorem retryStoring_run (zero : α) :
    (retryStoring zero Schedule.sleep errorText (Schedule.attempt outcome)).run ⟨0, []⟩ =
      (outcome (min (leadingRetryable errorText (fun k => (outcome k).2) 0 20) 19),
        ⟨min (leadingRetryable errorText (fun k => (outcome k).2) 0 20 + 1) 20,
          (List.range' 1 (leadingRetryable errorText (fun k => (outcome k).2) 0 20)).map
            (5 * ·)⟩) := by
  have h := retryLoop_schedule errorText outcome 20 0 (by omega) (zero, none) []
  simp only [Nat.zero_add, List.nil_append, scheduledClosure] at h
  simp only [retryStoring, Retry, StateT.run_bind, h]
  rfl

end Schedule

/-- The closure of `RetryTransaction` against the schedule: the call, paired with no other
result. -/
theorem Schedule.map_attempt {β γ : Type} (f : β → γ) (outcome : Nat → β) :
    f <$> Schedule.attempt outcome = Schedule.attempt (f ∘ outcome) := rfl

/-- **`Retry` against every schedule.**  Let `p` be the number of calls, among the first 20,
that fail in a row with an error in whose text "Deadlock", "bad connection" or "invalid
connection" occurs.  Then `RetryTransaction`, and `BaseDB.Exec`, `Query` and `Begin`
(`retryStoring`), make `min (p + 1) 20` calls, sleep `5, 10, …, 5 * p` ms (one sleep after each
such failure, the twentieth included), and return what the last call returned: success or the
first other error if one came within 20 calls, otherwise the twentieth transient error.  That
is twenty calls in all at most, nineteen of them retries, where the comment on `Retry` speaks
of twenty retries; and the sleep after the twentieth failure is followed by no call. -/
theorem retry_schedule (errorText : E → Bytes) :
    (∀ {α : Type} (zero : α) (outcome : Nat → α × Option E),
      (retryStoring zero Schedule.sleep errorText (Schedule.attempt outcome)).run ⟨0, []⟩ =
        (outcome (min (leadingRetryable errorText (fun k => (outcome k).2) 0 20) 19),
          ⟨min (leadingRetryable errorText (fun k => (outcome k).2) 0 20 + 1) 20,
            (List.range' 1 (leadingRetryable errorText (fun k => (outcome k).2) 0 20)).map
              (5 * ·)⟩)) ∧
    ∀ outcome : Nat → Option E,
      (RetryTransaction Schedule.sleep errorText (Schedule.attempt outcome)).run ⟨0, []⟩ =
        (outcome (min (leadingRetryable errorText outcome 0 20) 19),
          ⟨min (leadingRetryable errorText outcome 0 20 + 1) 20,
            (List.range' 1 (leadingRetryable errorText outcome 0 20)).map (5 * ·)⟩) := by
  refine ⟨fun zero outcome => retryStoring_run errorText outcome zero, fun outcome => ?_⟩
  have h := retryStoring_run errorText (fun k => ((), outcome k)) ()
  simp only [RetryTransaction, Schedule.map_attempt, Function.comp_def]
  rw [StateT.run_map, h]
  rfl

/-- Three deadlocks, then success: four calls and three sleeps. -/
example : (RetryTransaction Schedule.sleep id (Schedule.attempt fun k =>
    if k < 3 then some (ascii "Error 1213: Deadlock found") else none)).run ⟨0, []⟩ =
    (none, ⟨4, [5, 10, 15]⟩) := by rfl

end Polaris

import Polaris.Store.Value

/-!
# `BatchQuery` and `BatchOperation`: a list handed out in chunks

`BatchQuery` (store/sqldb/common.go) hands `data` to its handler 200 entries at a time: while
more than 200 remain it passes `data[beg:beg+200]`, then the rest.  `BatchOperation` does the
same 100 at a time with a `for begin := 0; begin < len(data); begin += maxCount` loop that caps
`end` at `len(data)`.  Each stops at the first error the handler returns and returns it; the
label and the progress counter are only logged.

The handler runs in any lawful monad `m` (a database connection, a state, a log): the loops
are shown to make exactly the calls of `runChunks` on a list of chunks that cuts `data` into
consecutive non-empty pieces of at most the chunk size, `⌈len / size⌉` of them, with no slice
expression out of bounds.

Principal results:

* `batchQueryLoop_chunks`, `batchOperationLoop_chunks` — what each loop does from a position;
* `batch_handler_calls_chunk_data` — both functions, on every list.
-/

set_option autoImplicit false

namespace Polaris

variable {m : Type → Type} [Monad m] {α E : Type}

/-! ## The model -/

/-- The `for` loop of `BatchQuery` (`maxCount := 200`), at `beg` with `remain` entries left. -/
def batchQueryLoop (handler : List α → m (Option E)) (data : List α) (beg remain : Nat) :
    m (Except Err (Option E)) :=
  if remain > 200 then
    match goSlice data beg (beg + 200) with
    | .error p => pure (.error p)
    | .ok objects => do
      match ← handler objects with
      | some err => pure (.ok (some err))
      | none => batchQueryLoop handler data (beg + 200) (remain - 200)
  else
    match goSlice data beg (beg + remain) with
    | .error p => pure (.error p)
    | .ok objects => do
      match ← handler objects with
      | some err => pure (.ok (some err))
      | none => pure (.ok none)
termination_by remain
decreasing_by all_goals simp_wf; omega

/-- `BatchQuery(label, data, handler)`: the error the handler returned, `none` for nil, and
`.error` for a run-time panic. -/
def BatchQuery (handler : List α → m (Option E)) (data : List α) : m (Except Err (Option E)) :=
  if data.length = 0 then pure (.ok none) else batchQueryLoop handler data 0 data.length

/-- The `for` loop of `BatchOperation` (`maxCount := 100`), from `begin`. -/
def batchOperationLoop (handler : List α → m (Option E)) (data : List α) (begin : Nat) :
    m (Except Err (Option E)) :=
  if begin < data.length then
    let end_ := if begin + 100 > data.length then data.length else begin + 100
    match goSlice data begin end_ with
    | .error p => pure (.error p)
    | .ok objects => do
      match ← handler objects with
      | some err => pure (.ok (some err))
      | none => batchOperationLoop handler data (begin + 100)
  else pure (.ok none)
termination_by data.length - begin
decreasing_by all_goals simp_wf; omega

/-- `BatchOperation(label, data, handler)`.  A nil `data` returns at once, as the loop does on
an empty slice. -/
def BatchOperation (handler : List α → m (Option E)) (data : List α) :
    m (Except Err (Option E)) :=
  batchOperationLoop handler data 0

/-! ## Chunks, and the calls on them -/

/-- A chunking: `cs` cuts `data` into consecutive non-empty pieces of at most
`size` entries, `⌈len(data) / size⌉` of them. -/
structure Chunking (size : Nat) (data : List α) (cs : List (List α)) : Prop where
  nonempty : ∀ c ∈ cs, c ≠ []
  length_le : ∀ c ∈ cs, c.length ≤ size
  join_eq : cs.flatten = data
  length_eq : cs.length = (data.length + size - 1) / size

/-- The handler called on each chunk in turn; the first error it
returns stops the calls and is returned. -/
def runChunks (handler : List α → m (Option E)) : List (List α) → m (Option E)
  | [] => pure none
  | c :: cs => do
    match ← handler c with
    | some err => pure (some err)
    | none => runChunks handler cs

theorem Chunking.nil (size : Nat) (hsize : 0 < size) : Chunking size ([] : List α) [] where
  nonempty := by simp
  length_le := by simp
  join_eq := rfl
  length_eq := by simp only [List.length_nil, Nat.zero_add]; exact (Nat.div_eq_of_lt (by omega)).symm

/-- The first `size` entries, then a chunking of the rest. -/
theorem Chunking.take_drop {size : Nat} (hsize : 0 < size) {l : List α} (hl : l ≠ [])
    {cs : List (List α)} (h : Chunking size (l.drop size) cs) :
    Chunking size l (l.take size :: cs) where
  nonempty := by
    rintro d (_ | ⟨_, hd⟩)
    · simp [List.take_eq_nil_iff, hl, hsize.ne']
    · exact h.nonempty d hd
  length_le := by
    rintro d (_ | ⟨_, hd⟩)
    · exact List.length_take_le _ _
    · exact h.length_le d hd
  join_eq := by rw [List.flatten_cons, h.join_eq, List.take_append_drop]
  length_eq := by
    have hL : 0 < l.length := List.length_pos.mpr hl
    rw [List.length_cons, h.length_eq, List.length_drop]
    rcases Nat.lt_or_ge l.length size with hlt | hge
    · rw [Nat.sub_eq_zero_of_le hlt.le, Nat.zero_add, Nat.div_eq_of_lt (by omega), eq_comm]
      exact Nat.div_eq_of_lt_le (by omega) (by omega)
    · rw [show l.length + size - 1 = l.length - size + size - 1 + size * 1 by omega,
        Nat.add_mul_div_left _ _ hsize]

section Lawful

variable [LawfulMonad m]

/-- One call, then the rest: the shape both loops share. -/
theorem runChunks_cons_map (handler : List α → m (Option E)) (c : List α)
    (cs : List (List α)) (rest : m (Except Err (Option E)))
    (hrest : rest = Except.ok <$> runChunks handler cs) :
    (do
      match ← handler c with
      | some err => pure (.ok (some err))
      | none => rest) = Except.ok <$> runChunks handler (c :: cs) := by
  simp only [runChunks, map_bind]
  congr 1; funext r
  cases r <;> simp [hrest]

/-- **What the `BatchQuery` loop does** from position `beg` with `remain > 0` entries left:
the calls of `runChunks` on a chunking of the rest of `data` into pieces of 200. -/
theorem batchQueryLoop_chunks (data : List α) (remain : Nat) :
    ∀ beg, beg + remain = data.length → 0 < remain →
      ∃ cs, Chunking 200 (data.drop beg) cs ∧ ∀ handler : List α → m (Option E),
        batchQueryLoop handler data beg remain = Except.ok <$> runChunks handler cs := by
  induction remain using Nat.strong_induction_on with
  | _ remain ih =>
    intro beg hlen hpos
    have hne : data.drop beg ≠ [] := List.ne_nil_of_length_pos (by simp; omega)
    by_cases hr : remain > 200
    · obtain ⟨cs, hcs, hrun⟩ := ih (remain - 200) (by omega) (beg + 200) (by omega) (by omega)
      rw [← List.drop_drop] at hcs
      refine ⟨_, hcs.take_drop (by omega) hne, fun handler => ?_⟩
      rw [batchQueryLoop, if_pos hr, goSlice_ok (by omega) (by omega),
        show ((beg : Int) + 200 - beg).toNat = 200 by omega]
      exact runChunks_cons_map handler _ cs _ (hrun handler)
    · have hnil : (data.drop beg).drop 200 = [] := List.drop_eq_nil_of_le (by simp; omega)
      refine ⟨_, (hnil ▸ Chunking.nil 200 (by omega)).take_drop (by omega) hne,
        fun handler => ?_⟩
      rw [batchQueryLoop, if_neg hr, goSlice_ok (by omega) (by omega),
        show ((beg : Int) + remain - beg).toNat = remain by omega, List.take_of_length_le (by simp; omega),
        List.take_of_length_le (by simp; omega)]
      exact runChunks_cons_map handler _ [] _ (by simp [runChunks])

/-- **What the `BatchOperation` loop does** from position `begin`: the calls of `runChunks`
on a chunking of the rest of `data` into pieces of 100. -/
theorem batchOperationLoop_chunks (data : List α) (begin : Nat) :
    ∃ cs, Chunking 100 (data.drop begin) cs ∧ ∀ handler : List α → m (Option E),
      batchOperationLoop handler data begin = Except.ok <$> runChunks handler cs := by
  obtain ⟨n, hn⟩ : ∃ n, data.length - begin = n := ⟨_, rfl⟩
  induction n using Nat.strong_induction_on generalizing begin with
  | _ n ih =>
    by_cases hb : begin < data.length
    · have hne : data.drop begin ≠ [] := List.ne_nil_of_length_pos (by simp; omega)
      obtain ⟨cs, hcs, hrun⟩ := ih (data.length - (begin + 100)) (by omega) (begin + 100) rfl
      rw [← List.drop_drop] at hcs
      refine ⟨_, hcs.take_drop (by omega) hne, fun handler => ?_⟩
      rw [batchOperationLoop, if_pos hb]
      dsimp only
      have hc : (data.drop begin).take
          (((if begin + 100 > data.length then data.length else begin + 100 : Nat) : Int) -
            begin).toNat = (data.drop begin).take 100 :=
        List.take_eq_take.mpr (by simp only [List.length_drop]; split_ifs <;> omega)
      rw [goSlice_ok (by split_ifs <;> omega) (by split_ifs <;> omega), hc]
      exact runChunks_cons_map handler _ cs _ (hrun handler)
    · refine ⟨[], by rw [List.drop_eq_nil_of_le (by omega)]; exact Chunking.nil 100 (by omega),
        fun handler => ?_⟩
      rw [batchOperationLoop, if_neg hb]
      simp [runChunks]

/-- **The calls of `BatchQuery` and `BatchOperation`.**  On every list `data`, each function
makes exactly the calls of `runChunks` on a chunking of `data` into pieces of 200 and 100
entries, and no slice expression panics: the handler sees consecutive non-empty pieces of at
most the chunk size whose concatenation is `data`, `⌈len / size⌉` of them when no call fails,
and the first error it returns stops the calls and is returned. -/
theorem batch_handler_calls_chunk_data (data : List α) :
    (∃ cs, Chunking 200 data cs ∧ ∀ handler : List α → m (Option E),
      BatchQuery handler data = Except.ok <$> runChunks handler cs) ∧
    ∃ cs, Chunking 100 data cs ∧ ∀ handler : List α → m (Option E),
      BatchOperation handler data = Except.ok <$> runChunks handler cs := by
  refine ⟨?_, by simpa using batchOperationLoop_chunks (m := m) (E := E) data 0⟩
  by_cases h : data.length = 0
  · refine ⟨[], List.eq_nil_of_length_eq_zero h ▸ Chunking.nil 200 (by omega),
      fun handler => ?_⟩
    simp [BatchQuery, h, runChunks]
  · obtain ⟨cs, hcs, hrun⟩ :=
      batchQueryLoop_chunks (m := m) (E := E) data data.length 0 (by simp) (by omega)
    exact ⟨cs, by simpa using hcs, fun handler => by rw [BatchQuery, if_neg h, hrun]⟩

end Lawful

/-- `batch_handler_calls_chunk_data` for handlers in a state monad (such as one that records
the chunks it is given), on 250 entries. -/
theorem batch_handler_calls_chunk_data_state :
    LawfulMonad (StateM (List (List Nat))) ∧
    (∃ cs, Chunking 200 (List.range 250) cs ∧
      ∀ handler : List Nat → StateM (List (List Nat)) (Option Nat),
        BatchQuery handler (List.range 250) = Except.ok <$> runChunks handler cs) ∧
    ∃ cs, Chunking 100 (List.range 250) cs ∧
      ∀ handler : List Nat → StateM (List (List Nat)) (Option Nat),
        BatchOperation handler (List.range 250) = Except.ok <$> runChunks handler cs :=
  ⟨inferInstance, batch_handler_calls_chunk_data (List.range 250)⟩

end Polaris

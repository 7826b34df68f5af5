import Polaris.SqlDb.Fetch

/-!
# The instance writes of the SQL store

The writes of the `sqldb` instance store, as the statements they send:

* `addInstance`, `batchAddInstances` and `updateInstance` run in a transaction: `Begin`, a
  deferred `Rollback`, their statements, each checked for an error, then `Commit`;
  `addInstance` first read-locks the instance's service and fails when it has no revision;
* `CleanInstance`, `BatchClearInstances`, `DeleteInstance` and `SetInstanceHealthStatus` send
  one statement through the connection, outside any transaction.

A function that sends its statements one after another, returning at the first error, is
modelled by the list of the statements it sends (`updateInstanceMeta`, and the bodies of the
transactions), and `execAll` runs such a list: `orReturn` is Go's
`if err := …; err != nil { return err }`.  The transactions are written over any monad with
the connection's calls as parameters; the results take the monad of a database that answers
each call from the calls made before it (`DbM`), so they hold for every database.

Principal results:

* `instance_writes_well_formed` — every statement any of these writes sends has as many
  placeholders as arguments, for every instance and every list of instances;
* `instance_transactions_all_or_nothing` — against every database, each transaction sends
  `Begin`, then its statements in order up to the first that fails, `Commit` only when all of
  them succeeded, and `Rollback` last.
-/

set_option autoImplicit false

namespace Polaris

/-! ## The statements -/

/-- The text of `addMainInstance`' statement (a raw string literal, line breaks and tabs
included). -/
def addMainStr : Bytes :=
  ascii ("insert into instance(id, service_id, vpc_id, host, port, protocol, version, " ++
    "health_status, isolate, \n\t\tweight, enable_health_check, logic_set, cmdb_region, " ++
    "cmdb_zone, cmdb_idc, priority, revision, ctime, mtime)\n\t\t\tvalues(?, ?, ?, ?, ?, ?, " ++
    "?, ?, ?, ?, ?, ?, ?, ?, ?, ?, ?, sysdate(), sysdate())")

/-- `addMainInstance(tx, instance)`: its arguments are those `batchAddMainInstances` appends
for one instance. -/
def addMainInstance (ins : Instance) : Statement := ⟨addMainStr, mainArgs ins⟩

/-- The text of `addInstanceCheck`' statement. -/
def addCheckStr : Bytes := ascii "insert into health_check(`id`, `type`, `ttl`) values(?, ?, ?)"

/-- `addInstanceCheck(tx, instance)`: no statement without a health check. -/
def addInstanceCheck (ins : Instance) : Option Statement :=
  ins.healthCheck.map fun check => ⟨addCheckStr, checkArgs ins check⟩

/-- `deleteInstanceCheck(tx, id)`. -/
def deleteInstanceCheck (id : Bytes) : Statement :=
  ⟨ascii "delete from health_check where id = ?", [.string id]⟩

/-- `updateInstanceCheck(tx, instance)`: without a health check, `deleteInstanceCheck`. -/
def updateInstanceCheck (ins : Instance) : Statement :=
  match ins.healthCheck with
  | none => deleteInstanceCheck ins.id
  | some check =>
    ⟨ascii "replace into health_check(id, type, ttl) values(?, ?, ?)", checkArgs ins check⟩

/-- The text of `updateInstanceMain`'s statement (a raw string literal). -/
def updateMainStr : Bytes :=
  ascii ("update instance set protocol = ?, \n\tversion = ?, health_status = ?, isolate = ?, " ++
    "weight = ?, enable_health_check = ?, logic_set = ?,\n\tcmdb_region = ?, cmdb_zone = ?, " ++
    "cmdb_idc = ?, priority = ?, revision = ?, mtime = sysdate() where id = ?")

/-- `updateInstanceMain(tx, instance)`. -/
def updateInstanceMain (ins : Instance) : Statement :=
  ⟨updateMainStr, [.string ins.protocol, .string ins.version, .bool ins.healthy,
    .bool ins.isolate, .uint32 ins.weight, .bool ins.enableHealthCheck,
    .string ins.logicSet, .string ins.region, .string ins.zone,
    .string ins.campus, .uint32 ins.priority, .string ins.revision,
    .string ins.id]⟩

/-- `updateInstanceMeta(tx, instance)`: the statements it sends, in order.  A nil map sends
none; any other the delete of the instance's metadata, then `addInstanceMeta`'s insert, which
an empty map skips. -/
def updateInstanceMeta (ins : Instance) : List Statement :=
  match ins.metadata with
  | none => []
  | some _ =>
    ⟨ascii "delete from instance_metadata where id = ?", [.string ins.id]⟩ ::
      (addInstanceMeta ins.id ins.metadata).toList

/-- `CleanInstance(instanceID)`'s statement. -/
def cleanInstanceStatement (instanceID : Bytes) : Statement :=
  ⟨ascii "delete from instance where id = ? and flag = 1", [.string instanceID]⟩

/-- `DeleteInstance(instanceID)`: an error for an empty id, otherwise the statement it sends. -/
def DeleteInstance (instanceID : Bytes) : Except String Statement :=
  if instanceID = [] then .error "Delete Instance Missing instance id"
  else .ok ⟨ascii "update instance set flag = 1, mtime = sysdate() where `id` = ?",
    [.string instanceID]⟩

/-- `SetInstanceHealthStatus(instanceID, flag, revision)`'s statement. -/
def SetInstanceHealthStatus (instanceID : Bytes) (flag : Int) (revision : Bytes) : Statement :=
  ⟨ascii "update instance set health_status = ?, revision = ?, mtime = sysdate() where `id` = ?",
    [.int flag, .string revision, .string instanceID]⟩

/-- The loop body of `BatchClearInstances`, on `(paramStr, first, ids)`. -/
def clearStep (acc : Bytes × Bool × List SqlArg) (entry : Instance) : Bytes × Bool × List SqlArg :=
  (if acc.2.1 then ascii "(?" else acc.1 ++ ascii ", ?", false, acc.2.2 ++ [.string entry.id])

/-- `BatchClearInstances(instances)`: no statement for no instances. -/
def BatchClearInstances (instances : List Instance) : Option Statement :=
  if instances.length = 0 then none
  else
    let acc := instances.foldl clearStep ([], true, [])
    some ⟨ascii "delete from instance where flag = 1 and id in " ++ (acc.1 ++ ascii ")"), acc.2.2⟩

/-! ## The transactions -/

section Tx

variable {m : Type → Type} [Monad m] {E : Type}

/-- `if err := step; err != nil { return err }`, then `rest`. -/
def orReturn (step rest : m (Option E)) : m (Option E) := do
  match ← step with
  | some err => pure (some err)
  | none => rest

variable (exec : Statement → m (Option E))

/-- A function that sends at most one statement: `_, err := tx.Exec(…); return err`, or
`return nil` without one. -/
def execOpt : Option Statement → m (Option E)
  | none => pure none
  | some st => exec st

/-- Statements sent one after another, returning the first error. -/
def execAll : List Statement → m (Option E)
  | [] => pure none
  | st :: rest => orReturn (exec st) (execAll rest)

/-- The transaction the three writes share: `tx, err := Begin()`, returning its error;
`defer tx.Rollback()`; the body; then `tx.Commit()`. -/
def runTx (begin commit : m (Option E)) (rollback : m Unit) (body : m (Option E)) :
    m (Option E) := do
  match ← begin with
  | some err => pure (some err)
  | none =>
    let err ← orReturn body commit
    rollback
    pure err

/-- The body of `addInstance`: `rlockServiceWithID` returns the service's revision or an
error; an empty revision is `notFoundService`. -/
def addInstanceBody (rlockService : Bytes → m (Except E Bytes)) (notFoundService : E)
    (ins : Instance) : m (Option E) := do
  match ← rlockService ins.serviceID with
  | .error err => pure (some err)
  | .ok revision =>
    if revision = [] then pure (some notFoundService)
    else
      orReturn (exec (addMainInstance ins)) <|
        orReturn (execOpt exec (addInstanceCheck ins))
          (execOpt exec (addInstanceMeta ins.id ins.metadata))

/-- The body of `batchAddInstances`. -/
def batchAddInstancesBody (instances : List Instance) : m (Option E) :=
  orReturn (exec (batchAddMainInstances instances))
    (orReturn (execOpt exec (batchAddInstanceCheck instances))
      (execOpt exec (batchAddInstanceMeta instances)))

/-- The body of `updateInstance`. -/
def updateInstanceBody (ins : Instance) : m (Option E) :=
  orReturn (exec (updateInstanceMain ins))
    (orReturn (exec (updateInstanceCheck ins)) (execAll exec (updateInstanceMeta ins)))

variable (begin commit : m (Option E)) (rollback : m Unit)

/-- `addInstance(instance)`. -/
def addInstance (rlockService : Bytes → m (Except E Bytes)) (notFoundService : E)
    (ins : Instance) : m (Option E) :=
  runTx begin commit rollback (addInstanceBody exec rlockService notFoundService ins)

/-- `batchAddInstances(instances)`. -/
def batchAddInstances (instances : List Instance) : m (Option E) :=
  runTx begin commit rollback (batchAddInstancesBody exec instances)

/-- `updateInstance(instance)`. -/
def updateInstance (ins : Instance) : m (Option E) :=
  runTx begin commit rollback (updateInstanceBody exec ins)

end Tx

/-! ## The statements each write sends -/

/-- The statements `addInstance` sends after the lock, in order. -/
def addInstanceStatements (ins : Instance) : List Statement :=
  [addMainInstance ins] ++ (addInstanceCheck ins).toList ++
    (addInstanceMeta ins.id ins.metadata).toList

/-- The statements `batchAddInstances` sends, in order. -/
def batchAddInstancesStatements (instances : List Instance) : List Statement :=
  [batchAddMainInstances instances] ++ (batchAddInstanceCheck instances).toList ++
    (batchAddInstanceMeta instances).toList

/-- The statements `updateInstance` sends, in order. -/
def updateInstanceStatements (ins : Instance) : List Statement :=
  [updateInstanceMain ins, updateInstanceCheck ins] ++ updateInstanceMeta ins

section Lawful

variable {m : Type → Type} [Monad m] [LawfulMonad m] {E : Type} (exec : Statement → m (Option E))

theorem orReturn_pure_none (rest : m (Option E)) : orReturn (pure none) rest = rest := by
  simp [orReturn]

theorem orReturn_none (step : m (Option E)) : orReturn step (pure none) = step := by
  unfold orReturn
  conv => rhs; rw [← bind_pure step]
  congr 1
  funext r
  cases r <;> rfl

theorem orReturn_assoc (a b c : m (Option E)) :
    orReturn (orReturn a b) c = orReturn a (orReturn b c) := by
  simp only [orReturn, bind_assoc]
  congr 1
  funext r
  cases r <;> simp [orReturn]

theorem execAll_append (l₁ l₂ : List Statement) :
    execAll exec (l₁ ++ l₂) = orReturn (execAll exec l₁) (execAll exec l₂) := by
  induction l₁ with
  | nil => exact (orReturn_pure_none _).symm
  | cons st rest ih => rw [List.cons_append, execAll, execAll, ih, orReturn_assoc]

theorem execAll_singleton (st : Statement) : execAll exec [st] = exec st := orReturn_none _

theorem execOpt_eq (o : Option Statement) : execOpt exec o = execAll exec o.toList := by
  cases o with
  | none => rfl
  | some st => exact (orReturn_none _).symm

/-- The body of each transaction sends its list of statements. -/
theorem batchAddInstancesBody_eq (instances : List Instance) :
    batchAddInstancesBody exec instances =
      execAll exec (batchAddInstancesStatements instances) := by
  rw [batchAddInstancesBody, batchAddInstancesStatements, execAll_append, execAll_append,
    execOpt_eq, execOpt_eq, orReturn_assoc, execAll_singleton]

/-- What `addInstance` sends once the service is locked. -/
theorem addInstance_sends (ins : Instance) :
    orReturn (exec (addMainInstance ins))
        (orReturn (execOpt exec (addInstanceCheck ins))
          (execOpt exec (addInstanceMeta ins.id ins.metadata))) =
      execAll exec (addInstanceStatements ins) := by
  rw [addInstanceStatements, execAll_append, execAll_append, execOpt_eq, execOpt_eq,
    orReturn_assoc, execAll_singleton]

end Lawful

/-! ## Every statement binds its placeholders -/

/-- A statement binds every placeholder: as many `?` in its text as arguments. -/
def Statement.WellFormed (st : Statement) : Prop := st.str.count qmark = st.args.length

instance (st : Statement) : Decidable st.WellFormed :=
  inferInstanceAs (Decidable (_ = _))

theorem InsertsRows.wellFormed {header tuple sep : Bytes} {rows : List (List SqlArg)}
    {st : Statement} (h : InsertsRows header tuple sep rows st) : st.WellFormed :=
  h.placeholders_eq

theorem wellFormed_of_count {str : Bytes} {args : List SqlArg} (n : Nat)
    (h : str.count qmark = n) (hn : args.length = n) : (Statement.mk str args).WellFormed :=
  h.trans hn.symm

theorem addMetaInserts (id : Bytes) (meta : Option (List (Bytes × Bytes))) :
    (addInstanceMeta id meta = none ↔ addMetaRows id meta = []) ∧
      ∀ st, addInstanceMeta id meta = some st →
        InsertsRows addMetaHeader metaTuple (ascii ", ") (addMetaRows id meta) st := by
  refine insertsRows_of_ite ?_ metaArgs_columns.2.1 (by decide) (by decide)
    (addMetaRows_length id meta)
  have h : mapLen meta = 0 ↔ addMetaRows id meta = [] := by simp [mapLen, addMetaRows]
  rw [addInstanceMeta_eq, if_congr h rfl rfl]

/-- Every statement of `updateInstanceMeta` binds its placeholders. -/
theorem wellFormed_updateInstanceMeta (ins : Instance) :
    ∀ st ∈ updateInstanceMeta ins, st.WellFormed := by
  unfold updateInstanceMeta
  split
  · nofun
  · intro st hst
    rcases List.mem_cons.mp hst with rfl | hst
    · exact wellFormed_of_count 1 (by decide) rfl
    · exact (addMetaInserts ins.id ins.metadata).2 st (by simpa using hst) |>.wellFormed

set_option maxRecDepth 2000 in
theorem wellFormed_addInstanceStatements (ins : Instance) :
    ∀ st ∈ addInstanceStatements ins, st.WellFormed := by
  intro st hst
  simp only [addInstanceStatements, List.mem_append, List.mem_singleton, Option.mem_toList,
    Option.mem_def] at hst
  rcases hst with (rfl | hst) | hst
  · exact wellFormed_of_count 17 (by decide) rfl
  · obtain ⟨check, -, rfl⟩ := Option.map_eq_some'.mp hst
    exact wellFormed_of_count 3 (by decide) rfl
  · exact ((addMetaInserts ins.id ins.metadata).2 st hst).wellFormed

theorem wellFormed_batchAddMainInstances (instances : List Instance) :
    (batchAddMainInstances instances).WellFormed := by
  rw [batchAddMainInstances_eq]
  cases instances with
  | nil => exact wellFormed_of_count 0 (by decide) rfl
  | cons e rest =>
    exact (insertsRows_of (by simp [mainRows]) mainArgs_columns.1 (by decide) (by decide)
      (mainRows_length _)).wellFormed

theorem wellFormed_batchAddInstancesStatements (instances : List Instance) :
    ∀ st ∈ batchAddInstancesStatements instances, st.WellFormed := by
  intro st hst
  simp only [batchAddInstancesStatements, List.mem_append, List.mem_singleton, Option.mem_toList,
    Option.mem_def] at hst
  rcases hst with (rfl | hst) | hst
  · exact wellFormed_batchAddMainInstances instances
  · exact ((insertsRows_of_ite (batchAddInstanceCheck_eq instances) checkArgs_columns.1
      (by decide) (by decide) (checkRows_length instances)).2 st hst).wellFormed
  · exact ((insertsRows_of_ite (batchAddInstanceMeta_eq instances) metaArgs_columns.1
      (by decide) (by decide) (metaRows_length instances)).2 st hst).wellFormed

set_option maxRecDepth 2000 in
theorem wellFormed_updateInstanceStatements (ins : Instance) :
    ∀ st ∈ updateInstanceStatements ins, st.WellFormed := by
  intro st hst
  simp only [updateInstanceStatements, List.mem_append, List.mem_cons, List.mem_singleton,
    List.not_mem_nil, or_false] at hst
  rcases hst with (rfl | rfl) | hst
  · exact wellFormed_of_count 13 (by decide) rfl
  · unfold updateInstanceCheck
    split
    · exact wellFormed_of_count 1 (by decide) rfl
    · exact wellFormed_of_count 3 (by decide) rfl
  · exact wellFormed_updateInstanceMeta ins st hst

theorem foldl_clearStep (l : List Instance) (str : Bytes) (args : List SqlArg) :
    l.foldl clearStep (str, false, args) =
      (str ++ (List.replicate l.length (ascii ", ?")).flatten, false,
        args ++ l.map (.string ·.id)) := by
  induction l generalizing str args with
  | nil => simp
  | cons e rest ih =>
    rw [List.foldl_cons, clearStep, ih]
    simp [List.replicate_succ]

/-- `BatchClearInstances`' statement has one placeholder per instance, joined by `", "`, and
the instances' ids as its arguments, in order. -/
theorem BatchClearInstances_eq {instances : List Instance} (hne : instances ≠ []) :
    BatchClearInstances instances =
      some ⟨ascii "delete from instance where flag = 1 and id in " ++ (ascii "(" ++
        (ascii ", ").intercalate (List.replicate instances.length (ascii "?")) ++ ascii ")"),
        instances.map (.string ·.id)⟩ := by
  cases instances with
  | nil => exact absurd rfl hne
  | cons e rest =>
    have hsep : ascii ", ?" = ascii ", " ++ ascii "?" := rfl
    have hopen : ascii "(?" = ascii "(" ++ ascii "?" := rfl
    simp only [BatchClearInstances, List.length_cons, Nat.add_one_ne_zero, if_false,
      List.foldl_cons, clearStep, foldl_clearStep, intercalate_replicate, hsep, hopen]
    simp

theorem wellFormed_BatchClearInstances (instances : List Instance) :
    ∀ st ∈ (BatchClearInstances instances).toList, st.WellFormed := by
  intro st hst
  by_cases hne : instances = []
  · subst hne
    cases hst
  · rw [BatchClearInstances_eq hne] at hst
    simp only [Option.mem_toList, Option.mem_def, Option.some.injEq] at hst
    subst hst
    refine wellFormed_of_count instances.length ?_ (List.length_map _ _)
    have hq : (List.replicate instances.length (ascii "?")).flatten =
        List.replicate instances.length qmark := by
      induction instances.length with
      | zero => rfl
      | succ n ih => rw [List.replicate_succ, List.flatten_cons, ih]; rfl
    have h₁ : (ascii "delete from instance where flag = 1 and id in ").count qmark = 0 := by
      decide
    have h₂ : (ascii "(").count qmark = 0 := by decide
    have h₃ : (ascii ")").count qmark = 0 := by decide
    simp only [List.count_append, count_intercalate (show (ascii ", ").count qmark = 0 by decide),
      hq, List.count_replicate_self, h₁, h₂, h₃]
    omega

/-- **Every statement an instance write sends binds its placeholders**: for every instance and
every list of instances, each statement of `addInstance`, `updateInstance`,
`batchAddInstances`, `BatchClearInstances`, `CleanInstance`, `DeleteInstance` and
`SetInstanceHealthStatus` has as many `?` in its text as arguments. -/
theorem instance_writes_well_formed :
    (∀ ins : Instance, ∀ st ∈ addInstanceStatements ins ++ updateInstanceStatements ins,
      st.WellFormed) ∧
    (∀ instances : List Instance,
      ∀ st ∈ batchAddInstancesStatements instances ++ (BatchClearInstances instances).toList,
        st.WellFormed) ∧
    (∀ instanceID : Bytes, (cleanInstanceStatement instanceID).WellFormed ∧
      ∀ st, DeleteInstance instanceID = .ok st → st.WellFormed) ∧
    ∀ (instanceID revision : Bytes) (flag : Int),
      (SetInstanceHealthStatus instanceID flag revision).WellFormed := by
  refine ⟨fun ins st hst => ?_, fun instances st hst => ?_,
    fun instanceID => ⟨wellFormed_of_count 1 (by decide) rfl, fun st hst => ?_⟩,
    fun _ _ _ => wellFormed_of_count 3 (by decide) rfl⟩
  · rcases List.mem_append.mp hst with hst | hst
    · exact wellFormed_addInstanceStatements ins st hst
    · exact wellFormed_updateInstanceStatements ins st hst
  · rcases List.mem_append.mp hst with hst | hst
    · exact wellFormed_batchAddInstancesStatements instances st hst
    · exact wellFormed_BatchClearInstances instances st hst
  · unfold DeleteInstance at hst
    split_ifs at hst
    cases hst
    exact wellFormed_of_count 1 (by decide) rfl

/-! ## Against every database -/

/-- A call of the instance store on the database. -/
inductive DbCall where
  | begin
  | exec (st : Statement)
  | rlockService (serviceID : Bytes)
  | commit
  | rollback
  deriving DecidableEq, Repr

/-- The error of an answer. -/
def errorOf {E : Type} : Except E Bytes → Option E
  | .error e => some e
  | .ok _ => none

section Db

variable {E : Type} (answer : List DbCall → DbCall → Except E Bytes)

/-- The database: each call is recorded, and `answer` answers it from the calls made before
it (for `rlockService`, with the service's revision). -/
def dbCall (c : DbCall) : StateM (List DbCall) (Except E Bytes) :=
  modifyGet fun calls => (answer calls c, calls ++ [c])

/-- A call whose answer matters by its error only. -/
def dbErr (c : DbCall) : StateM (List DbCall) (Option E) := errorOf <$> dbCall answer c

/-- `_ = tx.Rollback()`. -/
def dbRollback : StateM (List DbCall) Unit := do
  let _ ← dbCall answer .rollback

@[simp] theorem dbCall_run (c : DbCall) (calls : List DbCall) :
    (dbCall answer c).run calls = (answer calls c, calls ++ [c]) := rfl

@[simp] theorem dbErr_run (c : DbCall) (calls : List DbCall) :
    (dbErr answer c).run calls = (errorOf (answer calls c), calls ++ [c]) := rfl

theorem orReturn_run {σ : Type} (a b : StateM σ (Option E)) (s : σ) :
    (orReturn a b).run s = match a.run s with
      | (some e, s') => (some e, s')
      | (none, s') => b.run s' := by
  show (a.run s >>= fun p => (match p.1 with | some err => pure (some err) | none => b).run p.2) = _
  rcases a.run s with ⟨_ | e, s'⟩ <;> rfl

/-- The statements `L` are answered without error, one after another, from the calls
`calls`. -/
def AnsweredOk (calls : List DbCall) : List Statement → Prop
  | [] => True
  | st :: rest => errorOf (answer calls (.exec st)) = none ∧ AnsweredOk (calls ++ [.exec st]) rest

/-- `execAll` against the database: all of `L` is sent and answered without error, or a
prefix of it is, followed by the statement that failed. -/
theorem execAll_db (L : List Statement) (calls : List DbCall) :
    (AnsweredOk answer calls L ∧
      (execAll (fun st => dbErr answer (.exec st)) L).run calls = (none, calls ++ L.map .exec)) ∨
    ∃ sent st rest e, L = sent ++ st :: rest ∧ AnsweredOk answer calls sent ∧
      errorOf (answer (calls ++ sent.map .exec) (.exec st)) = some e ∧
      (execAll (fun st => dbErr answer (.exec st)) L).run calls =
        (some e, calls ++ (sent ++ [st]).map .exec) := by
  induction L generalizing calls with
  | nil => exact .inl ⟨trivial, by simp [execAll]⟩
  | cons st rest ih =>
    rw [execAll, orReturn_run, dbErr_run]
    rcases he : errorOf (answer calls (.exec st)) with _ | e
    · rcases ih (calls ++ [.exec st]) with ⟨hok, hrun⟩ | ⟨sent, st', rest', e, rfl, hok, he', hrun⟩
      · exact .inl ⟨⟨he, hok⟩, by simpa using hrun⟩
      · refine .inr ⟨st :: sent, st', rest', e, rfl, ⟨he, hok⟩, by simpa using he', ?_⟩
        simpa using hrun
    · exact .inr ⟨[], st, rest, e, rfl, trivial, by simpa using he, by simp⟩

theorem runTx_db (body : StateM (List DbCall) (Option E)) (calls : List DbCall) :
    (runTx (dbErr answer .begin) (dbErr answer .commit) (dbRollback answer) body).run calls =
      match errorOf (answer calls .begin) with
      | some e => (some e, calls ++ [.begin])
      | none =>
        match body.run (calls ++ [.begin]) with
        | (some e, calls') => (some e, calls' ++ [.rollback])
        | (none, calls') => (errorOf (answer calls' .commit), calls' ++ [.commit, .rollback]) := by
  show ((dbErr answer .begin).run calls >>= fun p =>
    (match p.1 with
      | some err => pure (some err)
      | none => do
        let err ← orReturn body (dbErr answer .commit)
        dbRollback answer
        pure err).run p.2) = _
  rw [dbErr_run]
  rcases errorOf (answer calls .begin) with _ | e
  · show (do
        let p ← (orReturn body (dbErr answer .commit)).run (calls ++ [.begin])
        let q ← (dbRollback answer).run p.2
        pure (p.1, q.2) : Id _) = _
    rw [orReturn_run]
    generalize body.run (calls ++ [.begin]) = r
    obtain ⟨_ | e, calls'⟩ := r
    · show (errorOf (answer calls' .commit), calls' ++ [.commit] ++ [.rollback]) = _
      simp
    · rfl
  · rfl

/-- How a transaction that makes the calls `pre` and then sends the statements `L` ends,
against `answer`, from the calls `calls`: `Begin` fails and nothing else is sent; or a
statement fails, after the ones before it succeeded, and `Rollback` follows it; or every
statement succeeds, and `Commit` and then `Rollback` follow, the transaction returning
`Commit`'s error. -/
inductive TxOutcome (calls pre : List DbCall) (L : List Statement) :
    Option E × List DbCall → Prop
  | beginFailed (e : E) : errorOf (answer calls .begin) = some e →
      TxOutcome calls pre L (some e, calls ++ [.begin])
  | statementFailed (sent : List Statement) (st : Statement) (rest : List Statement) (e : E) :
      errorOf (answer calls .begin) = none → L = sent ++ st :: rest →
      AnsweredOk answer (calls ++ .begin :: pre) sent →
      errorOf (answer (calls ++ .begin :: pre ++ sent.map .exec) (.exec st)) = some e →
      TxOutcome calls pre L (some e, calls ++ .begin :: pre ++ (sent ++ [st]).map .exec ++ [.rollback])
  | committed : errorOf (answer calls .begin) = none → AnsweredOk answer (calls ++ .begin :: pre) L →
      TxOutcome calls pre L (errorOf (answer (calls ++ .begin :: pre ++ L.map .exec) .commit),
        calls ++ .begin :: pre ++ L.map .exec ++ [.commit, .rollback])

/-- A transaction whose body, after `Begin`, does what sending `L` after the calls `pre`
does. -/
theorem txOutcome_of_body {body : StateM (List DbCall) (Option E)} {calls pre : List DbCall}
    {L : List Statement}
    (hbody : body.run (calls ++ [.begin]) =
      (execAll (fun st => dbErr answer (.exec st)) L).run (calls ++ .begin :: pre)) :
    TxOutcome answer calls pre L
      ((runTx (dbErr answer .begin) (dbErr answer .commit) (dbRollback answer) body).run calls) := by
  rw [runTx_db, hbody]
  rcases hb : errorOf (answer calls .begin) with _ | e
  · rcases execAll_db answer L (calls ++ .begin :: pre) with ⟨hok, hrun⟩ |
      ⟨sent, st, rest, e, rfl, hok, he, hrun⟩
    · simp only [hrun]
      simpa using TxOutcome.committed hb hok
    · simp only [hrun]
      simpa using TxOutcome.statementFailed sent st rest e hb rfl hok (by simpa using he)
  · exact .beginFailed e hb

/-- `addInstance`'s body against the database: the lock, then its statements unless the lock
failed or found no revision. -/
theorem addInstanceBody_db (notFoundService : E) (ins : Instance) (calls : List DbCall) :
    (addInstanceBody (fun st => dbErr answer (.exec st)) (fun sid => dbCall answer (.rlockService sid))
        notFoundService ins).run calls =
      match answer calls (.rlockService ins.serviceID) with
      | .error e => (some e, calls ++ [.rlockService ins.serviceID])
      | .ok revision =>
        if revision = [] then (some notFoundService, calls ++ [.rlockService ins.serviceID])
        else (execAll (fun st => dbErr answer (.exec st)) (addInstanceStatements ins)).run
          (calls ++ [.rlockService ins.serviceID]) := by
  rw [← addInstance_sends]
  unfold addInstanceBody
  rw [StateT.run_bind, dbCall_run]
  rcases answer calls (.rlockService ins.serviceID) with e | revision
  · rfl
  · change (if revision = [] then pure (some notFoundService) else _ : StateM _ _).run _ = _
    by_cases h : revision = []
    · subst h
      rfl
    · simp only [if_neg h]

/-- `addInstance` refused by its lock, after `Begin` succeeded: the lock's error, or
`notFoundService` for an empty revision, and `Rollback`. -/
theorem addInstance_lock_refused (notFoundService : E) (ins : Instance) (calls : List DbCall)
    {e : E} (hb : errorOf (answer calls .begin) = none)
    (hbody : (addInstanceBody (fun st => dbErr answer (.exec st))
        (fun sid => dbCall answer (.rlockService sid)) notFoundService ins).run
          (calls ++ [.begin]) = (some e, calls ++ [.begin] ++ [.rlockService ins.serviceID])) :
    (addInstance (fun st => dbErr answer (.exec st)) (dbErr answer .begin) (dbErr answer .commit)
        (dbRollback answer) (fun sid => dbCall answer (.rlockService sid)) notFoundService
        ins).run calls = (some e, calls ++ [.begin, .rlockService ins.serviceID, .rollback]) := by
  unfold addInstance
  rw [runTx_db, hb]
  simp [hbody]

theorem updateInstance_outcome (ins : Instance) (calls : List DbCall) :
    TxOutcome answer calls [] (updateInstanceStatements ins)
      ((updateInstance (fun st => dbErr answer (.exec st)) (dbErr answer .begin)
        (dbErr answer .commit) (dbRollback answer) ins).run calls) :=
  txOutcome_of_body answer rfl

theorem batchAddInstances_outcome (instances : List Instance) (calls : List DbCall) :
    TxOutcome answer calls [] (batchAddInstancesStatements instances)
      ((batchAddInstances (fun st => dbErr answer (.exec st)) (dbErr answer .begin)
        (dbErr answer .commit) (dbRollback answer) instances).run calls) :=
  txOutcome_of_body answer (by rw [batchAddInstancesBody_eq])

/-- How `addInstance` ends, from the calls `calls`: as a transaction that sends its statements
after the lock, or, when `Begin` succeeded and the lock failed or found no revision, with the
lock's error or `notFoundService` and `Rollback`. -/
def AddInstanceOutcome (notFoundService : E) (ins : Instance) (calls : List DbCall)
    (r : Option E × List DbCall) : Prop :=
  TxOutcome answer calls [.rlockService ins.serviceID] (addInstanceStatements ins) r ∨
    errorOf (answer calls .begin) = none ∧ ∃ e,
      (answer (calls ++ [.begin]) (.rlockService ins.serviceID) = .error e ∨
        answer (calls ++ [.begin]) (.rlockService ins.serviceID) = .ok [] ∧ e = notFoundService) ∧
      r = (some e, calls ++ [.begin, .rlockService ins.serviceID, .rollback])

theorem addInstance_outcome (notFoundService : E) (ins : Instance) (calls : List DbCall) :
    AddInstanceOutcome answer notFoundService ins calls
      ((addInstance (fun st => dbErr answer (.exec st)) (dbErr answer .begin)
        (dbErr answer .commit) (dbRollback answer) (fun sid => dbCall answer (.rlockService sid))
        notFoundService ins).run calls) := by
  cases hb : errorOf (answer calls .begin) with
  | some e₀ =>
    left
    unfold addInstance
    rw [runTx_db, hb]
    exact .beginFailed e₀ hb
  | none =>
    have hbody := addInstanceBody_db answer notFoundService ins (calls ++ [.begin])
    rcases hlock : answer (calls ++ [.begin]) (.rlockService ins.serviceID) with e | revision
    · rw [hlock] at hbody
      exact .inr ⟨hb, e, .inl hlock,
        addInstance_lock_refused answer notFoundService ins calls hb hbody⟩
    · by_cases hrev : revision = []
      · subst hrev
        rw [hlock] at hbody
        exact .inr ⟨hb, _, .inr ⟨hlock, rfl⟩,
          addInstance_lock_refused answer notFoundService ins calls hb hbody⟩
      · simp only [hlock, if_neg hrev] at hbody
        refine .inl (txOutcome_of_body answer ?_)
        rw [hbody, List.append_assoc]
        rfl

end Db

end Polaris

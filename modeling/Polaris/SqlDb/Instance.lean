import Polaris.Bolt.SortedMap

/-!
# The instance inserts of the SQL store

`batchAddMainInstances`, `batchAddInstanceCheck` and `batchAddInstanceMeta` (the `sqldb`
package's instance store) build one `INSERT … VALUES` statement for a list of instances: a loop appends
a comma unless the tuple is the first, the tuple of placeholders, and the row's values to
`args`; the last two skip instances without a health check or without metadata, and return
without a statement when nothing was appended.  `addInstanceMeta` inserts one instance's
metadata, counting entries with `cnt` to leave the separator `", "` off the last tuple.

The functions return the error of the one `tx.Exec(str, args...)` they make; the model is
that call, `none` where the function returns without one.  A Go map is visited in an order of
its own: a metadata map is the list of its entries in the order `range` visits them, and the
results hold for every such list.

Principal results:

* `foldl_appendTuple` — the shared loop body, run over rows: the header, the tuples joined by
  commas, the rows' values in order;
* `mainArgs_columns`, `checkArgs_columns`, `metaArgs_columns` — each row's values follow the
  column list the statement's header names, placeholder by placeholder;
* `instance_inserts_well_formed` — every statement inserts exactly its rows, with as many
  placeholders as arguments, except that `batchAddMainInstances` on no instances still
  issues its header, an `INSERT` with an empty `VALUES` list.
-/

set_option autoImplicit false

namespace Polaris

/-! ## Statements -/

/-- A value in the `args` of `tx.Exec`. -/
inductive SqlArg where
  | string (s : Bytes)
  | uint32 (n : UInt32)
  | int (n : Int)
  | bool (b : Bool)
  deriving DecidableEq, Repr

/-- A call `tx.Exec(str, args...)`. -/
structure Statement where
  str : Bytes
  args : List SqlArg
  deriving DecidableEq, Repr

/-- `*api.HealthCheck`, by what the inserts read: `GetType()` and
`GetHeartbeat().GetTtl().GetValue()`. -/
structure HealthCheck where
  type : Int
  ttl : UInt32
  deriving DecidableEq, Repr

/-- `*model.Instance`, by what the inserts read of it.  `metadata` is `Metadata()`, `none`
for a nil map, otherwise its entries in the order `range` visits them. -/
structure Instance where
  id : Bytes
  serviceID : Bytes
  vpcID : Bytes
  host : Bytes
  port : UInt32
  protocol : Bytes
  version : Bytes
  healthy : Bool
  isolate : Bool
  weight : UInt32
  enableHealthCheck : Bool
  logicSet : Bytes
  region : Bytes
  zone : Bytes
  campus : Bytes
  priority : UInt32
  revision : Bytes
  healthCheck : Option HealthCheck
  metadata : Option (List (Bytes × Bytes))
  deriving DecidableEq, Repr

/-- `len(m)` of a Go map, nil included. -/
def mapLen (m : Option (List (Bytes × Bytes))) : Nat := (m.getD []).length

/-! ## The statements' text -/

/-- The header of `batchAddMainInstances`' statement (a raw string literal, line breaks and
tabs included). -/
def mainHeader : Bytes :=
  ascii ("insert into instance(id, service_id, vpc_id, host, port, protocol, version, " ++
    "health_status, isolate, \n\t\tweight, enable_health_check, logic_set, cmdb_region, " ++
    "cmdb_zone, cmdb_idc, priority, revision, ctime, mtime) \n\t\tvalues")

/-- The tuple `batchAddMainInstances` appends per instance. -/
def mainTuple : Bytes :=
  ascii "(?, ?, ?, ?, ?, ?, ?, ?, ?, ?, ?, ?, ?, ?, ?, ?, ?, sysdate(), sysdate())"

/-- The header of `batchAddInstanceCheck`' statement. -/
def checkHeader : Bytes := ascii "insert into health_check(`id`, `type`, `ttl`) values"

/-- The tuple `batchAddInstanceCheck` appends per health check. -/
def checkTuple : Bytes := ascii "(?,?,?)"

/-- The header of `batchAddInstanceMeta`' statement. -/
def metaHeader : Bytes :=
  ascii "insert into instance_metadata(`id`, `mkey`, `mvalue`, `ctime`, `mtime`) values"

/-- The tuple appended per metadata entry. -/
def metaTuple : Bytes := ascii "(?, ?, ?, sysdate(), sysdate())"

/-- The header of `addInstanceMeta`'s statement, with a blank after `values`. -/
def addMetaHeader : Bytes :=
  ascii "insert into instance_metadata(`id`, `mkey`, `mvalue`, `ctime`, `mtime`) values "

/-! ## The loops -/

/-- The locals of a batch insert's loop: `str`, `first` and `args`. -/
structure InsertLoop where
  str : Bytes
  first : Bool
  args : List SqlArg

/-- The body the batch inserts' loops share: `if !first { str += "," }`, the tuple,
`first = false`, and the row's values appended to `args`. -/
def appendTuple (tuple : Bytes) (row : List SqlArg) (s : InsertLoop) : InsertLoop where
  str := (if !s.first then s.str ++ ascii "," else s.str) ++ tuple
  first := false
  args := s.args ++ row

/-- The values `batchAddMainInstances` appends for one instance, in its three `append`s. -/
def mainArgs (entry : Instance) : List SqlArg :=
  [.string entry.id, .string entry.serviceID, .string entry.vpcID, .string entry.host,
    .uint32 entry.port] ++
  [.string entry.protocol, .string entry.version, .bool entry.healthy, .bool entry.isolate,
    .uint32 entry.weight] ++
  [.bool entry.enableHealthCheck, .string entry.logicSet, .string entry.region,
    .string entry.zone, .string entry.campus, .uint32 entry.priority, .string entry.revision]

/-- `batchAddMainInstances(tx, instances)`: the statement it executes, whatever the list. -/
def batchAddMainInstances (instances : List Instance) : Statement :=
  let s := instances.foldl (fun s entry => appendTuple mainTuple (mainArgs entry) s)
    ⟨mainHeader, true, []⟩
  ⟨s.str, s.args⟩

/-- The values `batchAddInstanceCheck` appends for an instance with a health check. -/
def checkArgs (entry : Instance) (check : HealthCheck) : List SqlArg :=
  [.string entry.id, .int check.type, .uint32 check.ttl]

/-- One iteration of `batchAddInstanceCheck`' loop: instances without a health check are
skipped. -/
def checkStep (s : InsertLoop) (entry : Instance) : InsertLoop :=
  match entry.healthCheck with
  | none => s
  | some check => appendTuple checkTuple (checkArgs entry check) s

/-- `batchAddInstanceCheck(tx, instances)`: no statement when no instance has a health
check. -/
def batchAddInstanceCheck (instances : List Instance) : Option Statement :=
  let s := instances.foldl checkStep ⟨checkHeader, true, []⟩
  if s.first then none else some ⟨s.str, s.args⟩

/-- The values of one metadata row: `id`, `key`, `value`. -/
def metaArgs (id key value : Bytes) : List SqlArg := [.string id, .string key, .string value]

/-- One iteration of `batchAddInstanceMeta`' outer loop: an instance with a nil or empty
metadata map is skipped, the entries of any other are appended in the order `range` visits
them. -/
def metaStep (s : InsertLoop) (entry : Instance) : InsertLoop :=
  if entry.metadata = none ∨ mapLen entry.metadata = 0 then s
  else (entry.metadata.getD []).foldl
    (fun s kv => appendTuple metaTuple (metaArgs entry.id kv.1 kv.2) s) s

/-- `batchAddInstanceMeta(tx, instances)`: no statement when no instance has metadata. -/
def batchAddInstanceMeta (instances : List Instance) : Option Statement :=
  let s := instances.foldl metaStep ⟨metaHeader, true, []⟩
  if s.first then none else some ⟨s.str, s.args⟩

/-- One iteration of `addInstanceMeta`'s loop, with `cnt` counted up to `len(meta)`: the
last tuple has no `", "` after it. -/
def addMetaStep (id : Bytes) (len : Nat) (s : Bytes × Nat × List SqlArg) (kv : Bytes × Bytes) :
    Bytes × Nat × List SqlArg :=
  let (str, cnt, args) := s
  let cnt := cnt + 1
  let str :=
    if cnt = len then str ++ ascii "(?, ?, ?, sysdate(), sysdate())"
    else str ++ ascii "(?, ?, ?, sysdate(), sysdate()), "
  (str, cnt, args ++ [.string id] ++ [.string kv.1] ++ [.string kv.2])

/-- `addInstanceMeta(tx, id, meta)`: no statement for a nil or empty map. -/
def addInstanceMeta (id : Bytes) (meta : Option (List (Bytes × Bytes))) : Option Statement :=
  if mapLen meta = 0 then none
  else
    let (str, _, args) := (meta.getD []).foldl (addMetaStep id (mapLen meta)) (addMetaHeader, 0, [])
    some ⟨str, args⟩

/-! ## Reading the statements -/

/-- The byte `?`. -/
def qmark : Fin 256 := 63

/-- A blank or MySQL's backquote, as trimmed off a column name. -/
def isPad (b : Fin 256) : Bool := b = 32 || b = 9 || b = 10 || b = 96

/-- `s` without its leading and trailing pads. -/
def trimPad (s : Bytes) : Bytes := ((s.dropWhile isPad).reverse.dropWhile isPad).reverse

/-- The column names of an insert's header: between the first `(` and the next `)`, split at
the commas. -/
def columnsOf (header : Bytes) : List Bytes :=
  ((((header.dropWhile (· != 40)).drop 1).takeWhile (· != 41)).splitOn 44).map trimPad

/-- The items of a tuple `(…)`, split at the commas: `?` or `sysdate()`. -/
def itemsOf (tuple : Bytes) : List Bytes := (((tuple.drop 1).dropLast).splitOn 44).map trimPad

/-- The values a row of `tuple` under `header` binds: for each column whose item is a
placeholder, in order, the value `value` gives that column. -/
def rowOf (header tuple : Bytes) (value : Bytes → Option SqlArg) : List SqlArg :=
  ((columnsOf header).zip (itemsOf tuple)).filterMap fun ci =>
    if ci.2 = ascii "?" then value ci.1 else none

/-- What it is for `st` to insert `rows`: its text is `header` and one `tuple` per row, the
tuples separated by `sep` with none before the first or after the last, the rows' values as
arguments in order, and as many placeholders `?` in its text as arguments. -/
structure InsertsRows (header tuple sep : Bytes) (rows : List (List SqlArg)) (st : Statement) :
    Prop where
  rows_ne_nil : rows ≠ []
  columns_length : (columnsOf header).length = (itemsOf tuple).length
  str_eq : st.str = header ++ sep.intercalate (rows.map fun _ => tuple)
  args_eq : st.args = rows.flatten
  placeholders_eq : st.str.count qmark = st.args.length

/-- An instance's value for each column of the `instance` table, by the column's name. -/
def instanceColumn (e : Instance) (col : Bytes) : Option SqlArg :=
  [(ascii "id", SqlArg.string e.id), (ascii "service_id", .string e.serviceID),
    (ascii "vpc_id", .string e.vpcID), (ascii "host", .string e.host),
    (ascii "port", .uint32 e.port), (ascii "protocol", .string e.protocol),
    (ascii "version", .string e.version), (ascii "health_status", .bool e.healthy),
    (ascii "isolate", .bool e.isolate), (ascii "weight", .uint32 e.weight),
    (ascii "enable_health_check", .bool e.enableHealthCheck),
    (ascii "logic_set", .string e.logicSet), (ascii "cmdb_region", .string e.region),
    (ascii "cmdb_zone", .string e.zone), (ascii "cmdb_idc", .string e.campus),
    (ascii "priority", .uint32 e.priority), (ascii "revision", .string e.revision)].lookup col

/-- A health check's value for each column of `health_check`, by the column's name. -/
def checkColumn (e : Instance) (check : HealthCheck) (col : Bytes) : Option SqlArg :=
  [(ascii "id", SqlArg.string e.id), (ascii "type", .int check.type),
    (ascii "ttl", .uint32 check.ttl)].lookup col

/-- A metadata entry's value for each column of `instance_metadata`, by the column's name. -/
def metaColumn (id key value : Bytes) (col : Bytes) : Option SqlArg :=
  [(ascii "id", SqlArg.string id), (ascii "mkey", .string key),
    (ascii "mvalue", .string value)].lookup col

theorem mainArgs_columns :
    (columnsOf mainHeader).length = (itemsOf mainTuple).length ∧
    ∀ e, mainArgs e = rowOf mainHeader mainTuple (instanceColumn e) :=
  ⟨by decide, fun _ => rfl⟩

theorem checkArgs_columns :
    (columnsOf checkHeader).length = (itemsOf checkTuple).length ∧
    ∀ e check, checkArgs e check = rowOf checkHeader checkTuple (checkColumn e check) :=
  ⟨by decide, fun _ _ => rfl⟩

theorem metaArgs_columns :
    (columnsOf metaHeader).length = (itemsOf metaTuple).length ∧
    (columnsOf addMetaHeader).length = (itemsOf metaTuple).length ∧
    ∀ id key value, metaArgs id key value = rowOf metaHeader metaTuple (metaColumn id key value) ∧
      metaArgs id key value = rowOf addMetaHeader metaTuple (metaColumn id key value) :=
  ⟨by decide, by decide, fun _ _ _ => ⟨rfl, rfl⟩⟩

/-- The rows the instance insert is to bind, one per instance, each read off its columns. -/
def mainRows (instances : List Instance) : List (List SqlArg) :=
  instances.map fun e => rowOf mainHeader mainTuple (instanceColumn e)

/-- The rows the health-check insert is to bind, one per instance with a health check. -/
def checkRows (instances : List Instance) : List (List SqlArg) :=
  instances.filterMap fun e => e.healthCheck.map fun check =>
    rowOf checkHeader checkTuple (checkColumn e check)

/-- The rows the metadata insert is to bind, one per metadata entry. -/
def metaRows (instances : List Instance) : List (List SqlArg) :=
  instances.flatMap fun e => (e.metadata.getD []).map fun kv =>
    rowOf metaHeader metaTuple (metaColumn e.id kv.1 kv.2)

/-- The rows one instance's metadata insert is to bind. -/
def addMetaRows (id : Bytes) (meta : Option (List (Bytes × Bytes))) : List (List SqlArg) :=
  (meta.getD []).map fun kv => rowOf addMetaHeader metaTuple (metaColumn id kv.1 kv.2)

/-! ## What the loops build -/

theorem intercalate_cons (sep x : Bytes) (xs : List Bytes) :
    sep.intercalate (x :: xs) = x ++ (xs.map (sep ++ ·)).flatten := by
  induction xs generalizing x with
  | nil => simp [List.intercalate]
  | cons y ys ih =>
    simp only [List.intercalate, List.intersperse_cons₂, List.flatten_cons] at ih ⊢
    rw [ih y]
    simp

theorem count_intercalate {sep : Bytes} (hs : sep.count qmark = 0) (xs : List Bytes) :
    (sep.intercalate xs).count qmark = xs.flatten.count qmark := by
  cases xs with
  | nil => rfl
  | cons x xs =>
    rw [intercalate_cons, List.flatten_cons, List.count_append, List.count_append,
      List.count_flatten, List.count_flatten, List.map_map]
    simp [Function.comp_def, hs]

@[simp] theorem appendTuple_first (tuple : Bytes) (row : List SqlArg) (str : Bytes)
    (args : List SqlArg) :
    appendTuple tuple row ⟨str, true, args⟩ = ⟨str ++ tuple, false, args ++ row⟩ := rfl

@[simp] theorem appendTuple_after (tuple : Bytes) (row : List SqlArg) (str : Bytes)
    (args : List SqlArg) :
    appendTuple tuple row ⟨str, false, args⟩ = ⟨str ++ ascii "," ++ tuple, false, args ++ row⟩ :=
  rfl

/-- The loop body run over rows once the first tuple is written. -/
theorem foldl_appendTuple_after (tuple : Bytes) (rows : List (List SqlArg)) (str : Bytes)
    (args : List SqlArg) :
    rows.foldl (fun s r => appendTuple tuple r s) ⟨str, false, args⟩ =
      ⟨str ++ (rows.map fun _ => ascii "," ++ tuple).flatten, false, args ++ rows.flatten⟩ := by
  induction rows generalizing str args with
  | nil => simp
  | cons r rows ih => rw [List.foldl_cons, appendTuple_after, ih]; simp

/-- **The shared loop body**, run over the rows: the header, the tuples joined by commas, and
the rows' values in order; `first` stays set exactly when there was no row. -/
theorem foldl_appendTuple (header tuple : Bytes) (rows : List (List SqlArg)) :
    rows.foldl (fun s r => appendTuple tuple r s) ⟨header, true, []⟩ =
      ⟨header ++ (ascii ",").intercalate (rows.map fun _ => tuple), rows.isEmpty,
        rows.flatten⟩ := by
  cases rows with
  | nil => simp [List.intercalate]
  | cons r rows =>
    rw [List.foldl_cons, appendTuple_first, foldl_appendTuple_after]
    simp [intercalate_cons, Function.comp_def]

theorem foldl_checkStep (instances : List Instance) (s : InsertLoop) :
    instances.foldl checkStep s =
      (instances.filterMap fun e => e.healthCheck.map (checkArgs e)).foldl
        (fun s r => appendTuple checkTuple r s) s := by
  induction instances generalizing s with
  | nil => rfl
  | cons e es ih =>
    cases h : e.healthCheck <;> simp [checkStep, h, ih]

theorem metaStep_eq (s : InsertLoop) (e : Instance) :
    metaStep s e = ((e.metadata.getD []).map fun kv => metaArgs e.id kv.1 kv.2).foldl
      (fun s r => appendTuple metaTuple r s) s := by
  unfold metaStep
  split_ifs with h
  · rcases h with h | h <;> simp_all [mapLen]
  · rw [List.foldl_map]

theorem foldl_metaStep (instances : List Instance) (s : InsertLoop) :
    instances.foldl metaStep s =
      (instances.flatMap fun e => (e.metadata.getD []).map fun kv => metaArgs e.id kv.1 kv.2).foldl
        (fun s r => appendTuple metaTuple r s) s := by
  induction instances generalizing s with
  | nil => rfl
  | cons e es ih => simp [metaStep_eq, ih, List.foldl_append]

theorem addMetaStep_last {id : Bytes} {len cnt : Nat} (h : cnt + 1 = len) (str : Bytes)
    (args : List SqlArg) (kv : Bytes × Bytes) :
    addMetaStep id len (str, cnt, args) kv = (str ++ metaTuple, len, args ++ metaArgs id kv.1 kv.2) := by
  simp [addMetaStep, h, metaTuple, metaArgs]

theorem addMetaStep_mid {id : Bytes} {len cnt : Nat} (h : cnt + 1 ≠ len) (str : Bytes)
    (args : List SqlArg) (kv : Bytes × Bytes) :
    addMetaStep id len (str, cnt, args) kv =
      (str ++ (metaTuple ++ ascii ", "), cnt + 1, args ++ metaArgs id kv.1 kv.2) := by
  simp only [addMetaStep, if_neg h, metaArgs, List.append_assoc]
  rfl

/-- `addInstanceMeta`'s loop from `cnt` entries done: the tuples joined by `", "`, the last
one bare. -/
theorem foldl_addMetaStep (id : Bytes) (len : Nat) (kv : Bytes × Bytes) (l : List (Bytes × Bytes))
    (str : Bytes) (cnt : Nat) (args : List SqlArg) (hlen : cnt + l.length + 1 = len) :
    (kv :: l).foldl (addMetaStep id len) (str, cnt, args) =
      (str ++ (ascii ", ").intercalate ((kv :: l).map fun _ => metaTuple), len,
        args ++ ((kv :: l).map fun kv => metaArgs id kv.1 kv.2).flatten) := by
  induction l generalizing kv str cnt args with
  | nil =>
    rw [List.foldl_cons, addMetaStep_last (by simpa using hlen)]
    simp [List.intercalate]
  | cons kv' l ih =>
    rw [List.foldl_cons, addMetaStep_mid (by simp at hlen; omega),
      ih kv' _ _ _ (by simp at hlen ⊢; omega)]
    simp [intercalate_cons]

/-! ## The statements -/

/-- The statement built of `header`, `sep` and one `tuple` per row inserts `rows`. -/
theorem insertsRows_of {header tuple sep : Bytes} {rows : List (List SqlArg)} (hne : rows ≠ [])
    (hcols : (columnsOf header).length = (itemsOf tuple).length)
    (hh : header.count qmark = 0) (hs : sep.count qmark = 0)
    (hrow : ∀ r ∈ rows, r.length = tuple.count qmark) :
    InsertsRows header tuple sep rows
      ⟨header ++ sep.intercalate (rows.map fun _ => tuple), rows.flatten⟩ where
  rows_ne_nil := hne
  columns_length := hcols
  str_eq := rfl
  args_eq := rfl
  placeholders_eq := by
    simp only [List.count_append, hh, count_intercalate hs, List.count_flatten, List.map_map,
      Nat.zero_add, List.length_flatten]
    exact congrArg List.sum (List.map_congr_left fun r hr => (hrow r hr).symm)

theorem batchAddMainInstances_eq (instances : List Instance) :
    batchAddMainInstances instances =
      ⟨mainHeader ++ (ascii ",").intercalate ((mainRows instances).map fun _ => mainTuple),
        (mainRows instances).flatten⟩ := by
  have hrows : mainRows instances = instances.map mainArgs :=
    List.map_congr_left fun e _ => (mainArgs_columns.2 e).symm
  have h := foldl_appendTuple mainHeader mainTuple (instances.map mainArgs)
  rw [List.foldl_map] at h
  simp only [batchAddMainInstances, h, hrows]

theorem batchAddInstanceCheck_eq (instances : List Instance) :
    batchAddInstanceCheck instances =
      if checkRows instances = [] then none
      else some ⟨checkHeader ++ (ascii ",").intercalate ((checkRows instances).map fun _ => checkTuple),
        (checkRows instances).flatten⟩ := by
  have hrows : checkRows instances = instances.filterMap fun e => e.healthCheck.map (checkArgs e) :=
    congrArg (List.filterMap · instances) (funext fun e => by
      cases e.healthCheck <;> simp [checkArgs_columns.2])
  simp only [batchAddInstanceCheck, foldl_checkStep, ← hrows, foldl_appendTuple,
    List.isEmpty_iff]

theorem batchAddInstanceMeta_eq (instances : List Instance) :
    batchAddInstanceMeta instances =
      if metaRows instances = [] then none
      else some ⟨metaHeader ++ (ascii ",").intercalate ((metaRows instances).map fun _ => metaTuple),
        (metaRows instances).flatten⟩ := by
  have hrows : metaRows instances =
      instances.flatMap fun e => (e.metadata.getD []).map fun kv => metaArgs e.id kv.1 kv.2 := by
    simp only [metaRows, ← (metaArgs_columns.2.2 _ _ _).1]
  simp only [batchAddInstanceMeta, foldl_metaStep, ← hrows, foldl_appendTuple, List.isEmpty_iff]

theorem addInstanceMeta_eq (id : Bytes) (meta : Option (List (Bytes × Bytes))) :
    addInstanceMeta id meta =
      if mapLen meta = 0 then none
      else some ⟨addMetaHeader ++ (ascii ", ").intercalate
          ((addMetaRows id meta).map fun _ => metaTuple), (addMetaRows id meta).flatten⟩ := by
  have hrows : addMetaRows id meta = (meta.getD []).map fun kv => metaArgs id kv.1 kv.2 := by
    simp only [addMetaRows, ← (metaArgs_columns.2.2 _ _ _).2]
  unfold addInstanceMeta
  split_ifs with h
  · rfl
  · obtain ⟨kv, l, hl⟩ := List.exists_cons_of_ne_nil (mt List.length_eq_zero.mpr h)
    simp only [hrows, hl, mapLen, List.length_cons] at h ⊢
    rw [foldl_addMetaStep id _ kv l addMetaHeader 0 [] (by omega)]
    simp [Function.comp_def]

/-- A statement issued only when there are rows: issued exactly then, and then it inserts
them. -/
theorem insertsRows_of_ite {header tuple sep : Bytes} {rows : List (List SqlArg)}
    {o : Option Statement}
    (ho : o = if rows = [] then none
      else some ⟨header ++ sep.intercalate (rows.map fun _ => tuple), rows.flatten⟩)
    (hcols : (columnsOf header).length = (itemsOf tuple).length)
    (hh : header.count qmark = 0) (hs : sep.count qmark = 0)
    (hrow : ∀ r ∈ rows, r.length = tuple.count qmark) :
    (o = none ↔ rows = []) ∧ ∀ st, o = some st → InsertsRows header tuple sep rows st := by
  subst ho
  split_ifs with h
  · exact ⟨iff_of_true rfl h, fun _ hst => nomatch hst⟩
  · refine ⟨iff_of_false (by simp) h, fun st hst => ?_⟩
    cases hst
    exact insertsRows_of h hcols hh hs hrow

/-! ## Row lengths -/

theorem mainRows_length (instances : List Instance) :
    ∀ r ∈ mainRows instances, r.length = mainTuple.count qmark := by
  simp only [mainRows, List.mem_map]
  rintro _ ⟨e, -, rfl⟩
  rfl

theorem checkRows_length (instances : List Instance) :
    ∀ r ∈ checkRows instances, r.length = checkTuple.count qmark := by
  simp only [checkRows, List.mem_filterMap, Option.map_eq_some']
  rintro _ ⟨e, -, check, -, rfl⟩
  rfl

theorem metaRows_length (instances : List Instance) :
    ∀ r ∈ metaRows instances, r.length = metaTuple.count qmark := by
  simp only [metaRows, List.mem_flatMap, List.mem_map]
  rintro _ ⟨e, -, kv, -, rfl⟩
  rfl

theorem addMetaRows_length (id : Bytes) (meta : Option (List (Bytes × Bytes))) :
    ∀ r ∈ addMetaRows id meta, r.length = metaTuple.count qmark := by
  simp only [addMetaRows, List.mem_map]
  rintro _ ⟨kv, -, rfl⟩
  rfl

/-! ## The inserts -/

/-- **The instance inserts.**  For every list of instances, the statement of
`batchAddMainInstances`, of `batchAddInstanceCheck` and of `batchAddInstanceMeta`, and for
every metadata map that of `addInstanceMeta`, inserts exactly its rows: one tuple per
instance, per instance with a health check, per metadata entry, joined by `","` (`", "` in
`addInstanceMeta`), each row's values in the header's column order, as many placeholders as
arguments.  The last three issue no statement exactly when there is no row;
`batchAddMainInstances` has no such guard, and on no instances executes its header alone, an
`INSERT` whose `VALUES` list is empty. -/
theorem instance_inserts_well_formed :
    (∀ instances : List Instance, instances ≠ [] →
      InsertsRows mainHeader mainTuple (ascii ",") (mainRows instances)
        (batchAddMainInstances instances)) ∧
    batchAddMainInstances [] = ⟨mainHeader, []⟩ ∧
    (∀ instances : List Instance,
      (batchAddInstanceCheck instances = none ↔ checkRows instances = []) ∧
      ∀ st, batchAddInstanceCheck instances = some st →
        InsertsRows checkHeader checkTuple (ascii ",") (checkRows instances) st) ∧
    (∀ instances : List Instance,
      (batchAddInstanceMeta instances = none ↔ metaRows instances = []) ∧
      ∀ st, batchAddInstanceMeta instances = some st →
        InsertsRows metaHeader metaTuple (ascii ",") (metaRows instances) st) ∧
    ∀ (id : Bytes) (meta : Option (List (Bytes × Bytes))),
      (addInstanceMeta id meta = none ↔ addMetaRows id meta = []) ∧
      ∀ st, addInstanceMeta id meta = some st →
        InsertsRows addMetaHeader metaTuple (ascii ", ") (addMetaRows id meta) st := by
  refine ⟨fun instances hne => ?_, rfl,
    fun instances => insertsRows_of_ite (batchAddInstanceCheck_eq instances)
      checkArgs_columns.1 (by decide) (by decide) (checkRows_length instances),
    fun instances => insertsRows_of_ite (batchAddInstanceMeta_eq instances)
      metaArgs_columns.1 (by decide) (by decide) (metaRows_length instances),
    fun id meta => insertsRows_of_ite ?_ metaArgs_columns.2.1 (by decide) (by decide)
      (addMetaRows_length id meta)⟩
  · rw [batchAddMainInstances_eq]
    exact insertsRows_of (by simpa [mainRows] using hne) mainArgs_columns.1 (by decide)
      (by decide) (mainRows_length instances)
  · have h : mapLen meta = 0 ↔ addMetaRows id meta = [] := by simp [mapLen, addMetaRows]
    rw [addInstanceMeta_eq, if_congr h rfl rfl]

end Polaris

import Polaris.SqlDb.Instance

/-!
# The instance reads of the SQL store

The `sqldb` instance store reads instances back with loops over a `*sql.Rows`: each calls
`rows.Next()`, `rows.Scan` into a set of variables, returns the first scan error, and after the
loop returns `rows.Err()`.  `scanRows` and `Rows.fold` are that loop once; each read is its
body.

* `fetchInstanceWithMetaRows` — rows of `instance` left-joined with `instance_metadata`: the
  first row of an id builds the instance, and a row with a metadata id adds its entry;
* `fetchInstanceMetaRows` — `instance_metadata` rows set on the instances of a map, the rows of
  other ids skipped;
* `callFetchInstanceRows` — a row loop that hands each row to a callback, which may stop it;
  `fetchInstanceRows` and `getMoreInstancesMain` collect the rows in a list and a map;
* `getMoreInstancesMainWithMeta` — the incremental read: two queries on the first update, the
  joined query after it;
* `GetInstanceMeta`, `getInstance`, `GetInstance` — one instance, then its metadata;
* `batchQueryMetadata`, `batchAcquireInstanceMetadata` — one `id in(?,…)` query for a list of
  instances, the rows grouped by id, each group set on the first instance of its id;
* `CheckInstancesExisted` — marks the ids its query returns, and never calls `rows.Err()`.

A function's queries are its inputs: the answer of the database to each statement, a
function of the statement's argument where the statement depends on one.  `model.Store2Instance`
is not among the sources; of what it builds the reads use `Proto.Id`, copied from the row's
`ID`, and `Proto.Metadata`, left nil, and the rest is a parameter `build`.  A Go map is an
ordered entry list (`Entries`); where a loop ranges over one, the order is a parameter.

Principal results:

* `Rows.fold_eq` — a read loop returns the first error of its rows, or its body over them all;
* `lookup_foldl_keyed` — a loop whose body changes one entry, as a function of that entry,
  leaves under each id the body run over that id's rows alone;
* `keyed_addMetadata`, `keyed_fetchInstanceWithMetaRow`, `keyed_groupMetaRow` — the bodies
  are such loops;
* `callFetchInstanceRows_continue` — a callback that never stops makes the row loop a fold;
* `foldl_setFirstMetadata_cons` — the assignment loop of `batchAcquireInstanceMetadata`, seen
  from the first instance.
-/

set_option autoImplicit false

namespace Polaris

open Entries

/-! ## Rows -/

/-- A `*sql.Rows` as a read loop sees it: for each row `Next` yields, the values `Scan` fills
in or the error it returns; then the error `rows.Err()` reports. -/
structure Rows (E α : Type) where
  scans : List (Except E α)
  err : Option E

variable {E α σ : Type}

/-- `for rows.Next() { if err := rows.Scan(…); err != nil { return nil, err }; body }`. -/
def scanRows (body : σ → α → σ) (s : σ) : List (Except E α) → Except E σ
  | [] => .ok s
  | .error err :: _ => .error err
  | .ok a :: rest => scanRows body (body s a) rest

/-- The loop, then `if err := rows.Err(); err != nil { return nil, err }`. -/
def Rows.fold (body : σ → α → σ) (s : σ) (rows : Rows E α) : Except E σ :=
  match scanRows body s rows.scans with
  | .error err => .error err
  | .ok s =>
    match rows.err with
    | some err => .error err
    | none => .ok s

/-- Rows that all scan, with no error after them. -/
def Rows.ofList (l : List α) : Rows E α := ⟨l.map .ok, none⟩

/-- The first scan error of a list of rows. -/
def firstError : List (Except E α) → Option E
  | [] => none
  | .error err :: _ => some err
  | .ok _ :: rest => firstError rest

/-- The error a read loop returns on `rows`: the first scan error, else `rows.Err()`. -/
def Rows.error (rows : Rows E α) : Option E := (firstError rows.scans).or rows.err

theorem scanRows_eq (body : σ → α → σ) (l : List (Except E α)) (s : σ) :
    scanRows body s l = match firstError l with
      | some err => .error err
      | none => .ok ((l.filterMap Except.toOption).foldl body s) := by
  induction l generalizing s with
  | nil => rfl
  | cons r rest ih =>
    cases r with
    | error err => rfl
    | ok a => simpa [scanRows, firstError, Except.toOption] using ih (body s a)

/-- **A read loop is all or nothing**: the first error of its rows, or its body over all of
them. -/
theorem Rows.fold_eq (body : σ → α → σ) (s : σ) (rows : Rows E α) :
    rows.fold body s = match rows.error with
      | some err => .error err
      | none => .ok ((rows.scans.filterMap Except.toOption).foldl body s) := by
  simp only [Rows.fold, Rows.error, scanRows_eq]
  cases firstError rows.scans <;> cases rows.err <;> rfl

theorem firstError_map_ok (l : List α) : firstError (l.map (.ok : α → Except E α)) = none := by
  induction l <;> simp_all [firstError]

theorem filterMap_toOption_map_ok (l : List α) :
    (l.map (.ok : α → Except E α)).filterMap Except.toOption = l := by
  induction l <;> simp_all [Except.toOption]

@[simp] theorem Rows.fold_ofList (body : σ → α → σ) (s : σ) (l : List α) :
    (Rows.ofList l : Rows E α).fold body s = .ok (l.foldl body s) := by
  rw [Rows.fold_eq]
  simp only [Rows.error, Rows.ofList, firstError_map_ok, filterMap_toOption_map_ok]
  rfl

/-! ## Loops that update one entry per row -/

/-- A loop body that changes only the entry under its row's key, as `f` of that entry. -/
def Keyed {β γ : Type} (step : Entries β → γ → Entries β) (key : γ → Bytes)
    (f : Option β → γ → Option β) : Prop :=
  ∀ out row k, lookup k (step out row) = if key row = k then f (lookup k out) row else lookup k out

/-- **The run lemma of a keyed loop**: under each key, the loop leaves `f` run over the rows of
that key alone, in their order. -/
theorem lookup_foldl_keyed {β γ : Type} {step : Entries β → γ → Entries β} {key : γ → Bytes}
    {f : Option β → γ → Option β} (h : Keyed step key f) (rows : List γ) (out : Entries β)
    (k : Bytes) :
    lookup k (rows.foldl step out) = (rows.filter (key · = k)).foldl f (lookup k out) := by
  induction rows generalizing out with
  | nil => rfl
  | cons row rest ih =>
    rw [List.foldl_cons, ih, h]
    by_cases hk : key row = k <;> simp [hk, List.filter_cons]

theorem keyed_insert {β γ : Type} (key : γ → Bytes) (val : γ → β) :
    Keyed (fun out row => insert (key row) (val row) out) key (fun _ row => some (val row)) :=
  fun _ _ _ => lookup_insert _ _ _ _

theorem ordered_foldl {β γ : Type} {step : Entries β → γ → Entries β}
    (h : ∀ out row, Ordered out → Ordered (step out row)) (rows : List γ) {out : Entries β}
    (hout : Ordered out) : Ordered (rows.foldl step out) := by
  induction rows generalizing out with
  | nil => exact hout
  | cons row rest ih => exact ih (h out row hout)

/-! ## Instances and metadata rows -/

/-- An instance as the reads build it: `Proto.Id`, `Proto.Metadata` (`none` for a nil map), and
`value`, the rest of what `model.Store2Instance` builds, which no read looks at. -/
structure Fetched (α : Type) where
  id : Bytes
  value : α
  metadata : Option (Entries Bytes)
  deriving DecidableEq, Repr

/-- `Proto.Metadata[key] = value`, after `make(map[string]string)` for a nil map. -/
def Fetched.setMeta (ins : Fetched α) (key value : Bytes) : Fetched α :=
  { ins with metadata := some (insert key value (ins.metadata.getD [])) }

@[simp] theorem Fetched.setMeta_id (ins : Fetched α) (key value : Bytes) :
    (ins.setMeta key value).id = ins.id := rfl

/-- A row `id, mkey, mvalue` of `instance_metadata`. -/
structure MetaRow where
  id : Bytes
  mkey : Bytes
  mvalue : Bytes
  deriving DecidableEq, Repr

/-- A row of `genCompleteInstanceSelectSQL`: the instance's columns, then
`IFNULL(instance_metadata.id, "")`, `IFNULL(mkey, "")` and `IFNULL(mvalue, "")`. -/
structure JoinRow (Item : Type) where
  item : Item
  metaRow : MetaRow
  deriving DecidableEq, Repr

section Store

variable {Item : Type} (itemID : Item → Bytes) (build : Item → α)

/-- `model.Store2Instance(&item)`, which is not among the sources: `Proto.Id` is the row's
`ID`, `Proto.Metadata` is nil, and `build` makes the rest. -/
def Store2Instance (item : Item) : Fetched α := ⟨itemID item, build item, none⟩

@[simp] theorem Store2Instance_id (item : Item) :
    (Store2Instance itemID build item).id = itemID item := rfl

/-- `instances[id].Proto.Metadata[key] = value` (after `make` for a nil map) on an instance of
the map; nothing for an id the map lacks (`continue` in `fetchInstanceMetaRows`). -/
def addMetadata (instances : Entries (Fetched α)) (row : MetaRow) : Entries (Fetched α) :=
  match lookup row.id instances with
  | some ins => insert row.id (ins.setMeta row.mkey row.mvalue) instances
  | none => instances

/-- The loop body of `fetchInstanceWithMetaRows`. -/
def fetchInstanceWithMetaRow (out : Entries (Fetched α)) (row : JoinRow Item) :
    Entries (Fetched α) :=
  let out := if (lookup (itemID row.item) out).isSome then out
    else insert (itemID row.item) (Store2Instance itemID build row.item) out
  if row.metaRow.id ≠ [] then
    addMetadata out ⟨itemID row.item, row.metaRow.mkey, row.metaRow.mvalue⟩
  else out

/-- `fetchInstanceWithMetaRows(rows)`: `nil, nil` for nil rows. -/
def fetchInstanceWithMetaRows : Option (Rows E (JoinRow Item)) →
    Except E (Option (Entries (Fetched α)))
  | none => .ok none
  | some rows => (rows.fold (fetchInstanceWithMetaRow itemID build) []).map some

/-- What `fetchInstanceWithMetaRow` leaves under its row's id, from what was there. -/
def joinEntry (o : Option (Fetched α)) (row : JoinRow Item) : Option (Fetched α) :=
  let ins := o.getD (Store2Instance itemID build row.item)
  some (if row.metaRow.id ≠ [] then ins.setMeta row.metaRow.mkey row.metaRow.mvalue else ins)

theorem keyed_addMetadata :
    Keyed (addMetadata (α := α)) MetaRow.id (fun o row => o.map (·.setMeta row.mkey row.mvalue)) := by
  intro out row k
  unfold addMetadata
  by_cases hk : row.id = k
  · subst hk
    cases h : lookup row.id out <;> simp [h]
  · cases lookup row.id out <;> simp [hk, lookup_insert_ne _ _ hk]

theorem Entries.Ordered.addMetadata {out : Entries (Fetched α)} (h : Ordered out) (row : MetaRow) :
    Ordered (addMetadata out row) := by
  unfold Polaris.addMetadata
  split
  · exact h.insert _ _
  · exact h

theorem keyed_fetchInstanceWithMetaRow :
    Keyed (fetchInstanceWithMetaRow itemID build) (fun row => itemID row.item)
      (joinEntry itemID build) := by
  intro out row k
  have hmake : lookup k (if (lookup (itemID row.item) out).isSome then out
      else insert (itemID row.item) (Store2Instance itemID build row.item) out) =
      if itemID row.item = k then some ((lookup k out).getD (Store2Instance itemID build row.item))
      else lookup k out := by
    by_cases hk : itemID row.item = k
    · subst hk
      cases h : lookup (itemID row.item) out <;> simp [h]
    · split <;> simp [hk, lookup_insert_ne _ _ hk]
  unfold fetchInstanceWithMetaRow joinEntry
  by_cases hid : row.metaRow.id ≠ []
  · simp only [if_pos hid]
    rw [keyed_addMetadata, hmake]
    by_cases hk : itemID row.item = k <;> simp [hk]
  · simp only [if_neg hid]
    rw [hmake]

theorem Entries.Ordered.fetchInstanceWithMetaRow {out : Entries (Fetched α)} (h : Ordered out)
    (row : JoinRow Item) : Ordered (fetchInstanceWithMetaRow itemID build out row) := by
  have hmake : Ordered (if (lookup (itemID row.item) out).isSome then out
      else Entries.insert (itemID row.item) (Store2Instance itemID build row.item) out) := by
    split
    · exact h
    · exact h.insert _ _
  unfold Polaris.fetchInstanceWithMetaRow
  by_cases hid : row.metaRow.id ≠ []
  · simp only [if_pos hid]
    exact hmake.addMetadata _
  · simp only [if_neg hid]
    exact hmake

/-- `fetchInstanceMetaRows(instances, rows)`, returning the instances as the loop left them. -/
def fetchInstanceMetaRows (instances : Entries (Fetched α)) :
    Option (Rows E MetaRow) → Except E (Entries (Fetched α))
  | none => .ok instances
  | some rows => rows.fold addMetadata instances

/-- The loop of `callFetchInstanceRows`, with whether it ran to the end of the rows: each row
scanned is handed to `callback`, whose error is returned and whose `false` returns at once. -/
def callFetchLoop (callback : σ → Item → Except E (Bool × σ)) (s : σ) :
    List (Except E Item) → Except E (σ × Bool)
  | [] => .ok (s, true)
  | .error err :: _ => .error err
  | .ok item :: rest =>
    match callback s item with
    | .error err => .error err
    | .ok (false, s) => .ok (s, false)
    | .ok (true, s) => callFetchLoop callback s rest

/-- `callFetchInstanceRows(rows, callback)`, the callback's variables threaded as `s`; a
callback that stops the loop skips `rows.Err()`. -/
def callFetchInstanceRows (callback : σ → Item → Except E (Bool × σ)) (s : σ) :
    Option (Rows E Item) → Except E σ
  | none => .ok s
  | some rows =>
    match callFetchLoop callback s rows.scans with
    | .error err => .error err
    | .ok (s, false) => .ok s
    | .ok (s, true) =>
      match rows.err with
      | some err => .error err
      | none => .ok s

/-- `fetchInstanceRows(rows)`: `out = append(out, model.Store2Instance(entry))`. -/
def fetchInstanceRows (rows : Option (Rows E Item)) : Except E (List (Fetched α)) :=
  callFetchInstanceRows (fun out entry => .ok (true, out ++ [Store2Instance itemID build entry]))
    [] rows

theorem callFetchLoop_continue (body : σ → Item → σ) (l : List (Except E Item)) (s : σ) :
    callFetchLoop (fun s item => .ok (true, body s item)) s l = (scanRows body s l).map (·, true) := by
  induction l generalizing s with
  | nil => rfl
  | cons r rest ih =>
    cases r with
    | error err => rfl
    | ok item => exact ih (body s item)

/-- A callback that never stops the loop makes `callFetchInstanceRows` the read loop of its
body. -/
theorem callFetchInstanceRows_continue (body : σ → Item → σ) (s : σ) (rows : Rows E Item) :
    callFetchInstanceRows (fun s item => .ok (true, body s item)) s (some rows) =
      rows.fold body s := by
  simp only [callFetchInstanceRows, callFetchLoop_continue, Rows.fold]
  cases scanRows body s rows.scans <;> rfl

/-- `getMoreInstancesMain(mtime, firstUpdate, serviceID)` on the answer of its query:
`out[entry.ID] = model.Store2Instance(entry)`. -/
def getMoreInstancesMain (answer : Except E (Rows E Item)) : Except E (Entries (Fetched α)) := do
  let rows ← answer
  callFetchInstanceRows
    (fun out entry => .ok (true, insert (itemID entry) (Store2Instance itemID build entry) out))
    [] (some rows)

/-- `getMoreInstancesMainWithMeta(mtime, firstUpdate, serviceID)` on the answers of its
queries: on the first update the instances and all of `instance_metadata`, otherwise the
complete select. -/
def getMoreInstancesMainWithMeta (firstUpdate : Bool) (answerMain : Except E (Rows E Item))
    (answerMeta : Except E (Rows E MetaRow)) (answerComplete : Except E (Rows E (JoinRow Item))) :
    Except E (Option (Entries (Fetched α))) :=
  if firstUpdate then do
    let instances ← getMoreInstancesMain itemID build answerMain
    let rows ← answerMeta
    let instances ← fetchInstanceMetaRows instances (some rows)
    pure (some instances)
  else do
    let rows ← answerComplete
    fetchInstanceWithMetaRows itemID build (some rows)

/-- `GetInstanceMeta(instanceID)`, on the answer to `select mkey, mvalue from
instance_metadata where id = ?` for each id. -/
def GetInstanceMeta (answer : Bytes → Except E (Rows E (Bytes × Bytes))) (instanceID : Bytes) :
    Except E (Entries Bytes) := do
  let rows ← answer instanceID
  rows.fold (fun out kv => insert kv.1 kv.2 out) []

/-- `getInstance(instanceID)`, on the answers to the instance select `where instance.id = ?`
and to `GetInstanceMeta`'s query. -/
def getInstance (answerInstance : Bytes → Except E (Rows E Item))
    (answerMeta : Bytes → Except E (Rows E (Bytes × Bytes))) (instanceID : Bytes) :
    Except E (Option (Fetched α)) := do
  let rows ← answerInstance instanceID
  let out ← fetchInstanceRows itemID build (some rows)
  match out with
  | [] => pure none
  | ins :: _ =>
    let meta ← GetInstanceMeta answerMeta ins.id
    pure (some { ins with metadata := some meta })

/-- `GetInstance(instanceID)`: `nil` for an instance that is not `Valid`, the flag
`model.Store2Instance` sets, read here from what `build` makes. -/
def GetInstance (valid : α → Bool) (answerInstance : Bytes → Except E (Rows E Item))
    (answerMeta : Bytes → Except E (Rows E (Bytes × Bytes))) (instanceID : Bytes) :
    Except E (Option (Fetched α)) := do
  match ← getInstance itemID build answerInstance answerMeta instanceID with
  | some ins => pure (if valid ins.value then some ins else none)
  | none => pure none

end Store

/-- The loop body of `batchQueryMetadata`, on `(str, first, args)`: `?` for the first instance
and `,?` for each other, and the instance's id to `args`. -/
def batchQueryMetadataStep (acc : Bytes × Bool × List SqlArg) (ele : Fetched α) :
    Bytes × Bool × List SqlArg :=
  (if acc.2.1 then acc.1 ++ ascii "?" else acc.1 ++ ascii ",?", false, acc.2.2 ++ [.string ele.id])

/-- The statement of `batchQueryMetadata`: the loop after the header, then `)`. -/
def batchQueryMetadataStatement (instances : List (Fetched α)) : Statement :=
  let acc := instances.foldl batchQueryMetadataStep
    (ascii "select `id`, `mkey`, `mvalue` from instance_metadata where id in(", true, [])
  ⟨acc.1 ++ ascii ")", acc.2.2⟩

theorem foldl_batchQueryMetadataStep (l : List (Fetched α)) (str : Bytes) (args : List SqlArg) :
    l.foldl batchQueryMetadataStep (str, false, args) =
      (str ++ (List.replicate l.length (ascii ",?")).flatten, false,
        args ++ l.map (.string ·.id)) := by
  induction l generalizing str args with
  | nil => simp
  | cons ele rest ih =>
    rw [List.foldl_cons, batchQueryMetadataStep, ih]
    simp [List.replicate_succ]

theorem intercalate_replicate (sep x : Bytes) (n : Nat) :
    sep.intercalate (List.replicate (n + 1) x) = x ++ (List.replicate n (sep ++ x)).flatten := by
  induction n with
  | zero => simp [List.intercalate]
  | succ n ih =>
    rw [List.replicate_succ, List.replicate_succ]
    simp_all [List.intercalate, List.intersperse, List.replicate_succ]

/-- The statement has one placeholder per instance, `?` joined by commas, and the instances' ids
as its arguments, in order. -/
theorem batchQueryMetadataStatement_eq (instances : List (Fetched α)) :
    batchQueryMetadataStatement instances =
      ⟨ascii "select `id`, `mkey`, `mvalue` from instance_metadata where id in(" ++
        (ascii ",").intercalate (List.replicate instances.length (ascii "?")) ++ ascii ")",
        instances.map (.string ·.id)⟩ := by
  cases instances with
  | nil => rfl
  | cons ele rest =>
    have hsep : ascii ",?" = ascii "," ++ ascii "?" := rfl
    simp only [batchQueryMetadataStatement, List.foldl_cons, batchQueryMetadataStep,
      foldl_batchQueryMetadataStep, List.length_cons, intercalate_replicate, hsep]
    simp

/-- `batchQueryMetadata(queryHandler, instances)`: nil rows for no instances. -/
def batchQueryMetadata (queryHandler : Statement → Except E (Rows E MetaRow))
    (instances : List (Fetched α)) : Except E (Option (Rows E MetaRow)) :=
  if instances.length = 0 then .ok none
  else (queryHandler (batchQueryMetadataStatement instances)).map some

/-- `if _, ok := out[id]; !ok { out[id] = make(map[string]string) }; out[id][key] = value`. -/
def groupMetaRow (out : Entries (Entries Bytes)) (row : MetaRow) : Entries (Entries Bytes) :=
  insert row.id (insert row.mkey row.mvalue ((lookup row.id out).getD [])) out

/-- `for _, ele := range instances { if id == ele.GetId().GetValue() { ele.Metadata = meta;
break } }`. -/
def setFirstMetadata (id : Bytes) (meta : Entries Bytes) : List (Fetched α) → List (Fetched α)
  | [] => []
  | ele :: rest =>
    if id = ele.id then { ele with metadata := some meta } :: rest
    else ele :: setFirstMetadata id meta rest

theorem keyed_groupMetaRow :
    Keyed groupMetaRow MetaRow.id (fun o row => some (insert row.mkey row.mvalue (o.getD []))) := by
  intro out row k
  unfold groupMetaRow
  rw [lookup_insert]
  by_cases hk : row.id = k
  · subst hk; simp
  · simp [hk]

theorem Entries.Ordered.groupMetaRow {out : Entries (Entries Bytes)} (h : Ordered out) (row : MetaRow) :
    Ordered (groupMetaRow out row) :=
  h.insert _ _

/-- **The assignment loop, from the first instance**: of entries with distinct ids, only the one
of the first instance's id sets it, and the others go on to the rest. -/
theorem foldl_setFirstMetadata_cons (es : Entries (Entries Bytes)) (hes : es.NodupKeys)
    (ele : Fetched α) (rest : List (Fetched α)) :
    es.foldl (fun instances e => setFirstMetadata e.1 e.2 instances) (ele :: rest) =
      (match lookup ele.id es with
        | some meta => { ele with metadata := some meta }
        | none => ele) ::
      (erase ele.id es).foldl (fun instances e => setFirstMetadata e.1 e.2 instances) rest := by
  induction es generalizing ele rest with
  | nil => rfl
  | cons e es ih =>
    obtain ⟨k, meta⟩ := e
    rw [List.nodupKeys_cons] at hes
    rw [List.foldl_cons, setFirstMetadata]
    by_cases he : k = ele.id
    · subst he
      rw [if_pos rfl, ih hes.2]
      simp [lookup, erase, List.dlookup_eq_none.mpr hes.1, List.kerase_of_not_mem_keys hes.1]
    · have hne : ele.id ≠ (⟨k, meta⟩ : (_ : Bytes) × Entries Bytes).1 := Ne.symm he
      rw [if_neg he, ih hes.2]
      simp [lookup, erase, List.dlookup_cons_ne es _ hne, List.kerase_cons_ne hne]

/-- `batchAcquireInstanceMetadata(instances)`, returning the instances as it left them.
`visit out` lists the entries of `out` in the order `range` visits them. -/
def batchAcquireInstanceMetadata (queryHandler : Statement → Except E (Rows E MetaRow))
    (visit : Entries (Entries Bytes) → Entries (Entries Bytes)) (instances : List (Fetched α)) :
    Except E (List (Fetched α)) := do
  match ← batchQueryMetadata queryHandler instances with
  | none => pure instances
  | some rows =>
    let out ← rows.fold groupMetaRow []
    pure ((visit out).foldl (fun instances e => setFirstMetadata e.1 e.2 instances) instances)

/-- `CheckInstancesExisted(ids)` on the answer of its query (`PlaceholdersN`, which writes its
placeholders, is not among the sources): each id the query returns is marked, and the loop
never calls `rows.Err()`. -/
def CheckInstancesExisted (answer : Except E (Rows E Bytes)) (ids : Entries Bool) :
    Except E (Option (Entries Bool)) :=
  if ids.length = 0 then .ok none
  else do
    let rows ← answer
    let ids ← scanRows (fun ids idx => insert idx true ids) ids rows.scans
    pure (some ids)

end Polaris

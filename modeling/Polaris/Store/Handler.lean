import Polaris.Store.Codec

/-!
# `boltHandler`: the operations of `handler.go`

A transcription of the handler's operations over the root bucket of a transaction.  A write
operation (`SaveValue`, `UpdateValue`, `DeleteValues`) runs inside `db.Update` and returns the
root after its writes, or the error that makes bolt roll the transaction back (`commit`).  A
read operation runs inside `db.View` and returns what it loads.

Go maps the handler builds (`values[key] = obj`) are ordered entry lists (`Entries`), their
canonical form.  Go maps the handler receives (`properties`, the buffers of `serializeObject`)
are given by the order in which `range` visits them; results that must not depend on that
order are proved so.  The three loads and `IterateFields` share one loop, `forEachBucket`: for
each key, skip it when it names no bucket (the `log.Warnf … continue` branch), else run the
loop body.  A callback (`IterateFields`' `process`) is modelled by what it returns on each call.
-/

set_option autoImplicit false

namespace Polaris

variable {Rec Obj : Type} (c : Codec Rec Obj)

/-- The store after a write transaction: its result when it commits, the store before it
when it fails and bolt rolls it back. -/
def commit (db : Bucket) : Except Err Bucket → Bucket
  | .ok db' => db'
  | .error _ => db

/-- `getKeys`: the keys `ForEach` visits, nested buckets and flat entries alike. -/
def getKeys (bucket : Bucket) : List Bytes := bucket.forEach.map Prod.fst

/-- `getBucket(tx, typ, key)`. -/
def getBucket (db : Bucket) (typ key : Bytes) : Option Bucket :=
  (db.bucket typ).bind fun bucket => bucket.bucket key

/-- The loop the loads share: `for _, key := range keys`, skipping a key that names no
bucket, else running `body` on it. -/
def forEachBucket {α : Type} (lookupBucket : Bytes → Option Bucket)
    (body : Bytes → Bucket → α → Except Err α) : List Bytes → α → Except Err α
  | [], acc => .ok acc
  | key :: keys, acc =>
    match lookupBucket key with
    | none => forEachBucket lookupBucket body keys acc
    | some bucket => do
      let acc ← body key bucket acc
      forEachBucket lookupBucket body keys acc

/-! ## Writes -/

/-- `SaveValue`: drop the record bucket `key` of type `typ`, create it afresh, and serialize
`value` into it. -/
def SaveValue (typ key : Bytes) (value : Rec) (db : Bucket) : Except Err Bucket := do
  let (typBucket, db) ← liftBolt (db.createBucketIfNotExists typ)
  let typBucket ← match typBucket.bucket key with
    | some _ => liftBolt (typBucket.deleteBucket key)
    | none => pure typBucket
  let (bucket, typBucket) ← liftBolt (typBucket.createBucket key)
  let (bucket, buffers) ← serializeObject c bucket value
  let bucket ← liftBolt (bucket.putAll buffers)
  pure (db.setBucket typ (typBucket.setBucket key bucket))

/-- One iteration of `deleteValues`' loop: `DeleteBucket` if `key` holds a bucket. -/
def deleteStep (typeBucket : Bucket) (key : Bytes) : Except Err Bucket :=
  match typeBucket.bucket key with
  | some _ => liftBolt (typeBucket.deleteBucket key)
  | none => .ok typeBucket

/-- `deleteValues`: drop the record buckets of `keys` that exist. -/
def deleteValues (typ : Bytes) (keys : List Bytes) (db : Bucket) : Except Err Bucket :=
  match db.bucket typ with
  | none => .ok db
  | some typeBucket => do
    let typeBucket ← keys.foldlM deleteStep typeBucket
    pure (db.setBucket typ typeBucket)

/-- `DeleteValues`. -/
def DeleteValues (typ : Bytes) (keys : List Bytes) (db : Bucket) : Except Err Bucket :=
  if keys = [] then .ok db else deleteValues typ keys db

/-- The write one property of `UpdateValue` makes: a `Put` of a tagged buffer, a nested
map bucket (`encodeRawMap`), or nothing. -/
inductive Write where
  | put (buf : Bytes)
  | rawMap (m : Option (List (Bytes × Bytes)))
  | skip

/-- The `switch kind` of `UpdateValue`'s loop: what `propValue` makes it write.  Every panic
and error of an iteration happens here, before the write. -/
def propertyWrite (propValue : GoValue) : Except Err Write :=
  match propValue.kind with
  | none => .error (.panic .nilDereference)
  | some kind =>
    match kind with
    | .string => do
      let s ← propValue.assertString
      pure (.put (c.encodeStringBuffer s))
    | .bool => do
      let b ← propValue.assertBool
      pure (.put (c.encodeBoolBuffer b))
    | .int | .int8 | .int16 | .int32 | .int64 => do
      let v ← convertInt64Value propValue kind
      pure (.put (c.encodeIntBuffer v (c.numberKindToType kind)))
    | .uint | .uint8 | .uint16 | .uint32 | .uint64 => do
      let v ← convertUint64Value propValue kind
      pure (.put (c.encodeUintBuffer v (c.numberKindToType kind)))
    | .map => do
      let m ← propValue.assertStringMap
      pure (.rawMap m)
    | .ptr =>
      if propValue.implementsMessage then do
        let msgBuf ← c.encodeMessageBuffer (← propValue.assertMessage)
        pure (.put msgBuf)
      else pure .skip
    | .struct =>
      if propValue.assignableToTime then do
        let t ← propValue.assertTime
        pure (.put (c.encodeTimeBuffer t))
      else pure .skip
    | _ => pure .skip

/-- Make the write under `bucketKey`. -/
def Write.run (bucket : Bucket) (bucketKey : Bytes) : Write → Except Err Bucket
  | .put buf => liftBolt (bucket.put bucketKey buf)
  | .rawMap m => encodeRawMap bucket bucketKey m
  | .skip => .ok bucket

/-- One iteration of `UpdateValue`'s loop. -/
def updateProperty (bucket : Bucket) (propKey : Bytes) (propValue : GoValue) :
    Except Err Bucket := do
  let w ← propertyWrite c propValue
  w.run bucket (c.toBucketField propKey)

/-- `UpdateValue`: a silent no-op unless the type and the record bucket exist. -/
def UpdateValue (typ key : Bytes) (properties : List (Bytes × GoValue)) (db : Bucket) :
    Except Err Bucket :=
  match db.bucket typ with
  | none => .ok db
  | some typeBucket =>
    match typeBucket.bucket key with
    | none => .ok db
    | some bucket =>
      if properties = [] then .ok db
      else do
        let bucket ← properties.foldlM (fun b p => updateProperty c b p.1 p.2) bucket
        pure (db.setBucket typ (typeBucket.setBucket key bucket))

/-! ## Reads -/

/-- `loadValues`. -/
def loadValues (db : Bucket) (typ : Bytes) (keys : List Bytes) (typObject : Proto) :
    Except Err (Entries Obj) :=
  forEachBucket (getBucket db typ) (fun key bucket values => do
    let toObj ← c.deserializeObject bucket typObject
    pure (values.insert key toObj)) keys []

/-- `LoadValues`. -/
def LoadValues (typ : Bytes) (keys : List Bytes) (typObject : Proto) (db : Bucket) :
    Except Err (Entries Obj) :=
  if keys = [] then .ok [] else loadValues c db typ keys typObject

/-- `LoadValuesAll`. -/
def LoadValuesAll (typ : Bytes) (typObject : Proto) (db : Bucket) : Except Err (Entries Obj) :=
  match db.bucket typ with
  | none => .ok []
  | some typeBucket =>
    let keys := getKeys typeBucket
    if keys = [] then .ok []
    else forEachBucket typeBucket.bucket (fun key bucket values => do
      let targetObj ← c.deserializeObject bucket typObject
      pure (values.insert key targetObj)) keys []

/-- `loadValuesByFilter`: decode a record in full only when `matchObject` accepts it. -/
def loadValuesByFilter (db : Bucket) (typ : Bytes) (fields : List Bytes) (typObject : Proto)
    (filter : Option (FieldMap → Bool)) : Except Err (Entries Obj) :=
  match db.bucket typ with
  | none => .ok []
  | some typeBucket =>
    let keys := getKeys typeBucket
    if keys = [] then .ok []
    else forEachBucket typeBucket.bucket (fun key bucket values => do
      let matchResult ← matchObject c bucket fields typObject filter
      if !matchResult then pure values
      else do
        let targetObj ← c.deserializeObject bucket typObject
        pure (values.insert key targetObj)) keys []

/-- `LoadValuesByFilter`. -/
def LoadValuesByFilter (typ : Bytes) (fields : List Bytes) (typObject : Proto)
    (filter : Option (FieldMap → Bool)) (db : Bucket) : Except Err (Entries Obj) :=
  loadValuesByFilter c db typ fields typObject filter

/-- `IterateFields`: the results of the calls to `filter`, one per record bucket, in key
order; a nil callback makes it a no-op. -/
def IterateFields {β : Type} (typ field : Bytes) (typObject : Proto)
    (filter : Option (GoValue → β)) (db : Bucket) : Except Err (List β) :=
  match filter with
  | none => .ok []
  | some filter =>
    match db.bucket typ with
    | none => .ok []
    | some typeBucket =>
      let keys := getKeys typeBucket
      if keys = [] then .ok []
      else forEachBucket typeBucket.bucket (fun _ bucket calls => do
        let fieldObj ← getFieldObject c bucket typObject field
        pure (calls ++ [filter fieldObj])) keys []

/-- `CountValues`: the number of entries `ForEach` visits in the type bucket. -/
def CountValues (typ : Bytes) (db : Bucket) : Except Err Nat :=
  match db.bucket typ with
  | none => .ok 0
  | some typeBucket => .ok typeBucket.forEach.length

end Polaris

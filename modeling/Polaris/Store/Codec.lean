import Polaris.Store.Value

/-!
# The codec, and reading one field of a record bucket

`handler.go` calls a family of helpers of package `boltdb` that are not in the sources: the
field mapper `toBucketField`, the type tags `typeString` … `typeUint64` and the table
`numberKindToType`, the tag encoders and decoders, and the record codec `serializeObject` /
`deserializeObject`.  `Codec` holds them as parameters: every result below holds for every
choice of them.  Two of them write to the bucket tree, and are modelled from the spec so that
their writes go through bolt's API: `encodeRawMap` and the shell of `serializeObject`.

On top of the codec this file transcribes the single-field read of `handler.go`:
`reflectProtoMsg`, `reflectMapMsg`, `getFieldObject` and `matchObject`.  Note that
`getFieldObject` returns `reflectMapMsg`'s `map[string]string` through an `interface{}`: a nil
map becomes a non-nil interface (`GoValue.stringMap none`), never `GoValue.nil`.
-/

set_option autoImplicit false

namespace Polaris

/-- The type of a prototype's struct field, as `reflectProtoMsg` inspects it. -/
structure FieldType where
  /-- `field.Type.Implements(messageType)`. -/
  implementsMessage : Bool
  /-- The message type `reflect.New(rawFieldType.Elem())` allocates. -/
  elem : Bytes

/-- A prototype `typObject`: the struct type behind it, by name and fields. -/
structure Proto where
  name : Bytes
  fields : List (Bytes × FieldType)

/-- The helpers of package `boltdb` that `handler.go` calls and that are not in the sources.
`Rec` is the type of the records saved, `Obj` that of the objects `deserializeObject` builds. -/
structure Codec (Rec Obj : Type) where
  toBucketField : Bytes → Bytes
  typeString : Byte
  typeBool : Byte
  typeTime : Byte
  typeProtobuf : Byte
  typeInt : IntKind → Byte
  typeUint : UintKind → Byte
  numberKindToType : Kind → Byte
  encodeStringBuffer : Bytes → Bytes
  encodeBoolBuffer : Bool → Bytes
  encodeIntBuffer : BitVec 64 → Byte → Bytes
  encodeUintBuffer : BitVec 64 → Byte → Bytes
  encodeTimeBuffer : Time → Bytes
  encodeMessageBuffer : Message → Except Err Bytes
  /-- The value `decodeStringBuffer(name, buf)` returns (its error is dropped by the caller). -/
  decodeStringBuffer : Bytes → Bytes → GoValue
  decodeBoolBuffer : Bytes → Bytes → GoValue
  decodeTimeBuffer : Bytes → Bytes → GoValue
  decodeIntBuffer : Bytes → Bytes → Byte → GoValue
  decodeUintBuffer : Bytes → Bytes → Byte → GoValue
  /-- `decodeMessageBuffer(msg, field, buf)`, `msg` given by its message type. -/
  decodeMessageBuffer : Bytes → Bytes → Bytes → Except Err GoValue
  /-- How `serializeObject` splits a record: the map fields it writes as nested buckets, by
  bucket key and entries, and the flat buffers it returns. -/
  serializeFields : Rec → Except Err (List (Bytes × List (Bytes × Bytes)) × List (Bytes × Bytes))
  deserializeObject : Bucket → Proto → Except Err Obj

variable {Rec Obj : Type}

/-- The tags of `case typeInt, typeInt8, typeInt16, typeInt32, typeInt64`. -/
def Codec.intTags (c : Codec Rec Obj) : List Byte :=
  [.int, .int8, .int16, .int32, .int64].map c.typeInt

/-- The tags of `case typeUint, typeUint8, typeUint16, typeUint32, typeUint64`. -/
def Codec.uintTags (c : Codec Rec Obj) : List Byte :=
  [.uint, .uint8, .uint16, .uint32, .uint64].map c.typeUint

/-- The tags `getFieldObject` decodes; any other leading byte is logged and read as nil. -/
def Codec.Recognised (c : Codec Rec Obj) (t : Byte) : Prop :=
  t = c.typeString ∨ t = c.typeBool ∨ t = c.typeTime ∨ t = c.typeProtobuf ∨
    t ∈ c.intTags ∨ t ∈ c.uintTags

/-- Modelled from the spec: `encodeRawMap` (not in the sources).  A `map[string]string` field
is a nested bucket named `name` holding one raw, untagged entry per map entry; an empty map
writes nothing, and entries already in the nested bucket are overwritten, never removed. -/
def encodeRawMap (parent : Bucket) (name : Bytes) (values : Option (List (Bytes × Bytes))) :
    Except Err Bucket :=
  match values with
  | none | some [] => .ok parent
  | some entries => do
    let (child, parent) ← liftBolt (parent.createBucketIfNotExists name)
    let child ← liftBolt (child.putAll entries)
    pure (parent.setBucket name child)

/-- Modelled from the spec: `serializeObject(bucket, value)` (not in the sources) writes each
map field of the record with `encodeRawMap` and returns the flat tagged buffers. -/
def serializeObject (c : Codec Rec Obj) (bucket : Bucket) (value : Rec) :
    Except Err (Bucket × List (Bytes × Bytes)) := do
  let (maps, buffers) ← c.serializeFields value
  let bucket ← maps.foldlM (fun b m => encodeRawMap b m.1 (some m.2)) bucket
  pure (bucket, buffers)

/-- `reflectProtoMsg`: the message type a message-typed field of the prototype allocates. -/
def reflectProtoMsg (typObject : Proto) (fieldName : Bytes) : Except Err Bytes :=
  match typObject.fields.lookup fieldName with
  | none => .error (.fieldNotFound fieldName typObject.name)
  | some field =>
    if field.implementsMessage then .ok field.elem
    else .error (.fieldTypeNotMatch fieldName typObject.name)

/-- `reflectMapMsg`: the entries of the nested bucket `bucketField` as a `map[string]string`,
the nil map when there is none (`string(nil)` is `""` for a bucket nested deeper). -/
def reflectMapMsg (bucket : Bucket) (bucketField : Bytes) : Option (List (Bytes × Bytes)) :=
  (bucket.bucket bucketField).map fun sub => sub.forEach.map fun kv => (kv.1, kv.2.getD [])

/-- `getFieldObject`: one field of a record bucket, decoded by its leading tag byte. -/
def getFieldObject (c : Codec Rec Obj) (bucket : Bucket) (typObject : Proto) (field : Bytes) :
    Except Err GoValue :=
  let bucketField := c.toBucketField field
  let valueBytes := (bucket.get bucketField).getD []
  match valueBytes with
  | [] => .ok (.stringMap (reflectMapMsg bucket bucketField))
  | typByte :: _ =>
    if typByte = c.typeString then .ok (c.decodeStringBuffer bucketField valueBytes)
    else if typByte = c.typeBool then .ok (c.decodeBoolBuffer bucketField valueBytes)
    else if typByte = c.typeTime then .ok (c.decodeTimeBuffer bucketField valueBytes)
    else if typByte = c.typeProtobuf then do
      let msg ← reflectProtoMsg typObject field
      c.decodeMessageBuffer msg field valueBytes
    else if typByte ∈ c.intTags then .ok (c.decodeIntBuffer field valueBytes typByte)
    else if typByte ∈ c.uintTags then .ok (c.decodeUintBuffer field valueBytes typByte)
    else .ok .nil

/-- A `map[string]interface{}` of field values. -/
abbrev FieldMap := Entries GoValue

/-- The loop of `matchObject`: `fieldValues[field] = value` unless `value` is the nil
interface. -/
def fieldValuesOf (c : Codec Rec Obj) (bucket : Bucket) (typObject : Proto) :
    List Bytes → FieldMap → Except Err FieldMap
  | [], m => .ok m
  | field :: fields, m => do
    let value ← getFieldObject c bucket typObject field
    match value with
    | .nil => fieldValuesOf c bucket typObject fields m
    | _ => fieldValuesOf c bucket typObject fields (m.insert field value)

/-- `matchObject`: with no fields or no filter every record matches; otherwise the filter
decides on the map of the requested fields. -/
def matchObject (c : Codec Rec Obj) (bucket : Bucket) (fields : List Bytes) (typObject : Proto)
    (filter : Option (FieldMap → Bool)) : Except Err Bool :=
  if fields = [] then .ok true
  else match filter with
    | none => .ok true
    | some filter => do
      let fieldValues ← fieldValuesOf c bucket typObject fields []
      pure (filter fieldValues)

end Polaris

import Polaris.Store.Codec

/-!
# A codec after the spec

`Codec` leaves the helpers missing from the sources open.  `specCodec` fills them in after
§4.1–4.3 of the spec, for records given as their exported fields in declaration order:

* the field mapper is the identity;
* the tags follow the `case` order of `getFieldObject`, from `typeString = 1` to
  `typeUint64 = 14`; integers are stored as their 64-bit two's complement, big-endian;
* a record's `map[string]string` fields with entries become nested buckets, its scalar and
  message fields flat tagged entries, other fields nothing;
* decoding reads every field of the prototype, flat entry first, then nested bucket.

It serves as a concrete instance of the results proved for every codec.
-/

set_option autoImplicit false

namespace Polaris

/-- The eight bytes of a 64-bit word, most significant first. -/
def be64 (x : BitVec 64) : Bytes :=
  (List.range 8).map fun i => Fin.ofNat (x.toNat >>> (8 * (7 - i)))

/-- The number a big-endian byte string denotes. -/
def ofBe (bs : Bytes) : Nat := bs.foldl (fun n b => n * 256 + b.val) 0

/-- The signed integer kind a tag names. -/
def intKindOfTag (t : Byte) : IntKind :=
  if t = 5 then .int else if t = 6 then .int8 else if t = 7 then .int16
  else if t = 8 then .int32 else .int64

/-- The unsigned integer kind a tag names. -/
def uintKindOfTag (t : Byte) : UintKind :=
  if t = 10 then .uint else if t = 11 then .uint8 else if t = 12 then .uint16
  else if t = 13 then .uint32 else .uint64

/-- `typeInt` … `typeInt64`. -/
def intTag : IntKind → Byte
  | .int => 5 | .int8 => 6 | .int16 => 7 | .int32 => 8 | .int64 => 9

/-- `typeUint` … `typeUint64`. -/
def uintTag : UintKind → Byte
  | .uint => 10 | .uint8 => 11 | .uint16 => 12 | .uint32 => 13 | .uint64 => 14

/-- A record: its exported fields, in declaration order, with their values. -/
abbrev SpecRecord := List (Bytes × GoValue)

/-- Modelled from the spec: the flat entry `serializeObject` emits for a scalar or message
field (§4.3), `none` for a map field or an unsupported kind. -/
def specFlatEntry : GoValue → Option Bytes
  | .string s => some (1 :: s)
  | .bool b => some [2, if b then 1 else 0]
  | .time t => some (3 :: be64 (BitVec.ofInt 64 t.nanos))
  | .message m => some (4 :: m.wire)
  | .int k v => some (intTag k :: be64 (v.signExtend 64))
  | .uint k v => some (uintTag k :: be64 (v.zeroExtend 64))
  | _ => none

/-- Modelled from the spec: the value a flat entry or a nested bucket decodes to, by its
leading tag alone (§4.1, §4.3). -/
def specDecodeNode : Node → GoValue
  | .bucket children =>
    .stringMap (some ((Bucket.forEach children).map fun kv => (kv.1, kv.2.getD [])))
  | .value [] => .nil
  | .value (t :: payload) =>
    if t = 1 then .string payload
    else if t = 2 then .bool (payload = [1])
    else if t = 3 then .time ⟨(BitVec.ofNat 64 (ofBe payload)).toInt⟩
    else if t = 4 then .message ⟨[], payload⟩
    else if 5 ≤ t.val ∧ t.val ≤ 9 then .int (intKindOfTag t) (BitVec.ofNat _ (ofBe payload))
    else if 10 ≤ t.val ∧ t.val ≤ 14 then .uint (uintKindOfTag t) (BitVec.ofNat _ (ofBe payload))
    else .nil

/-- Modelled from the spec: the codec of §4.1–4.3 (the codec source is not present). -/
def specCodec : Codec SpecRecord FieldMap where
  toBucketField := id
  typeString := 1
  typeBool := 2
  typeTime := 3
  typeProtobuf := 4
  typeInt := intTag
  typeUint := uintTag
  numberKindToType k := match k with
    | .int => 5 | .int8 => 6 | .int16 => 7 | .int32 => 8 | .int64 => 9
    | .uint => 10 | .uint8 => 11 | .uint16 => 12 | .uint32 => 13 | .uint64 => 14
    | _ => 0
  encodeStringBuffer s := 1 :: s
  encodeBoolBuffer b := [2, if b then 1 else 0]
  encodeIntBuffer v t := t :: be64 v
  encodeUintBuffer v t := t :: be64 v
  encodeTimeBuffer t := 3 :: be64 (BitVec.ofInt 64 t.nanos)
  encodeMessageBuffer m := .ok (4 :: m.wire)
  decodeStringBuffer _ buf := specDecodeNode (.value buf)
  decodeBoolBuffer _ buf := specDecodeNode (.value buf)
  decodeTimeBuffer _ buf := specDecodeNode (.value buf)
  decodeIntBuffer _ buf _ := specDecodeNode (.value buf)
  decodeUintBuffer _ buf _ := specDecodeNode (.value buf)
  decodeMessageBuffer msg _ buf := .ok (.message ⟨msg, buf.drop 1⟩)
  serializeFields r :=
    .ok (r.filterMap (fun f => match f.2 with
          | .stringMap (some (e :: es)) => some (f.1, e :: es)
          | _ => none),
        r.filterMap fun f => (specFlatEntry f.2).map fun buf => (f.1, buf))
  deserializeObject b proto :=
    .ok (proto.fields.foldl (fun obj f => match b.lookup f.1 with
      | some n => obj.insert f.1 (specDecodeNode n)
      | none => obj) [])

end Polaris

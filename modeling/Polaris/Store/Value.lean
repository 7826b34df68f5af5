import Polaris.Bolt.Bucket
import Mathlib.Data.BitVec

/-!
# Go run-time values, as `handler.go` inspects them

The handler receives `interface{}` values (`UpdateValue`'s property map) and returns them
(`getFieldObject`).  It looks at them through `reflect.TypeOf(v).Kind()`, through
`Implements(messageType)` and `AssignableTo(timeType)`, and through type assertions such as
`propValue.(string)`, which panic when the dynamic type is not exactly the one asserted.
`GoValue` keeps exactly these facts:

* the nil interface (`reflect.TypeOf(nil)` is a nil `reflect.Type`);
* values of the predeclared types `string`, `bool`, `int` … `int64`, `uint` … `uint64`,
  of `time.Time`, of `map[string]string` (nil map included), and proto message pointers;
* `other kind`: any other dynamic type, known by its kind: a defined type such as
  `type Owner string`, another map or pointer type, another struct, a float, a slice, ….

`Err` is a Go `error` the handler can return, or a run-time panic.  `goInt` and `goSlice` are
Go's wrapping `int` arithmetic and its slice expressions, which panic out of bounds.
-/

set_option autoImplicit false

namespace Polaris

/-- A byte. -/
abbrev Byte := Fin 256

/-- `reflect.Kind`. -/
inductive Kind where
  | invalid | bool | int | int8 | int16 | int32 | int64
  | uint | uint8 | uint16 | uint32 | uint64 | uintptr
  | float32 | float64 | complex64 | complex128
  | array | chan | func | interface | map | ptr | slice | string | struct | unsafePointer
  deriving DecidableEq, Repr

/-- The signed integer types; `int` is 64 bits wide. -/
inductive IntKind where
  | int | int8 | int16 | int32 | int64
  deriving DecidableEq, Repr

/-- The unsigned integer types; `uint` is 64 bits wide. -/
inductive UintKind where
  | uint | uint8 | uint16 | uint32 | uint64
  deriving DecidableEq, Repr

/-- Bit width. -/
def IntKind.width : IntKind → Nat
  | .int => 64 | .int8 => 8 | .int16 => 16 | .int32 => 32 | .int64 => 64

/-- Bit width. -/
def UintKind.width : UintKind → Nat
  | .uint => 64 | .uint8 => 8 | .uint16 => 16 | .uint32 => 32 | .uint64 => 64

/-- The `reflect.Kind` of the type. -/
def IntKind.kind : IntKind → Kind
  | .int => .int | .int8 => .int8 | .int16 => .int16 | .int32 => .int32 | .int64 => .int64

/-- The `reflect.Kind` of the type. -/
def UintKind.kind : UintKind → Kind
  | .uint => .uint | .uint8 => .uint8 | .uint16 => .uint16 | .uint32 => .uint32
  | .uint64 => .uint64

/-- A `time.Time`, by its instant in nanoseconds since the Unix epoch. -/
@[ext] structure Time where
  nanos : Int
  deriving DecidableEq, Repr

/-- `time.Time.Before`. -/
def Time.Before (t u : Time) : Bool := decide (t.nanos < u.nanos)

/-- A generated protocol-buffer message, by its type name and its fields' wire encoding. -/
structure Message where
  type : Bytes
  wire : Bytes
  deriving DecidableEq, Repr

/-- A value held by an `interface{}`. -/
inductive GoValue where
  | nil
  | string (s : Bytes)
  | bool (b : Bool)
  | int (k : IntKind) (v : BitVec k.width)
  | uint (k : UintKind) (v : BitVec k.width)
  | time (t : Time)
  | message (m : Message)
  /-- `map[string]string`, by the entries `range` visits; `none` is the nil map. -/
  | stringMap (m : Option (List (Bytes × Bytes)))
  | other (kind : Kind)
  deriving DecidableEq

/-- Why a run-time panic happened. -/
inductive Panic where
  /-- A method call on a nil interface value, such as `reflect.TypeOf(nil).Kind()`. -/
  | nilDereference
  /-- A failed type assertion `v.(T)`. -/
  | interfaceConversion
  /-- A slice expression `s[lo:hi]` outside `0 ≤ lo ≤ hi ≤ cap(s)`. -/
  | sliceBounds
  deriving DecidableEq, Repr

/-- An `error` returned by the handler, or a panic raised in it. -/
inductive Err where
  | bolt (e : BoltError)
  /-- `field %s not found in object %v`. -/
  | fieldNotFound (field object : Bytes)
  /-- `field %s type not match in object %v, want %v, get %v`. -/
  | fieldTypeNotMatch (field object : Bytes)
  /-- An error of the codec helpers (encoding or decoding a value). -/
  | codec (msg : Bytes)
  | panic (p : Panic)
  deriving DecidableEq, Repr

@[simp] theorem ok_bind {ε α β : Type} (a : α) (f : α → Except ε β) :
    (Except.ok a >>= f) = f a := rfl

@[simp] theorem error_bind {ε α β : Type} (e : ε) (f : α → Except ε β) :
    (Except.error e >>= f : Except ε β) = .error e := rfl

@[simp] theorem pure_eq_ok {ε α : Type} (a : α) : (pure a : Except ε α) = .ok a := rfl

@[simp] theorem map_ok {ε α β : Type} (f : α → β) (a : α) :
    (Except.ok a : Except ε α).map f = .ok (f a) := rfl

@[simp] theorem map_error {ε α β : Type} (f : α → β) (e : ε) :
    (Except.error e : Except ε α).map f = .error e := rfl

@[simp] theorem toOption_ok {ε α : Type} (a : α) : (Except.ok a : Except ε α).toOption = some a :=
  rfl

@[simp] theorem toOption_error {ε α : Type} (e : ε) :
    (Except.error e : Except ε α).toOption = none := rfl

@[simp] theorem toOption_eq_some {ε α : Type} {x : Except ε α} {a : α} :
    x.toOption = some a ↔ x = .ok a := by
  cases x <;> simp

theorem bind_eq_ok {ε α β : Type} {x : Except ε α} {f : α → Except ε β} {b : β} :
    x >>= f = .ok b ↔ ∃ a, x = .ok a ∧ f a = .ok b := by
  cases x <;> simp

/-- Lift a `bolt` call. -/
def liftBolt {α : Type} (r : Except BoltError α) : Except Err α := r.mapError .bolt

@[simp] theorem liftBolt_ok {α : Type} (a : α) : liftBolt (.ok a : Except BoltError α) = .ok a :=
  rfl

@[simp] theorem liftBolt_error {α : Type} (e : BoltError) :
    liftBolt (.error e : Except BoltError α) = .error (.bolt e) := rfl

theorem liftBolt_eq_ok {α : Type} {r : Except BoltError α} {a : α} :
    liftBolt r = .ok a ↔ r = .ok a := by
  cases r <;> simp [liftBolt, Except.mapError]

namespace GoValue

/-- `reflect.TypeOf(v).Kind()`; `none` where `TypeOf` gives a nil `reflect.Type`. -/
def kind : GoValue → Option Kind
  | .nil => none
  | .string _ => some .string
  | .bool _ => some .bool
  | .int k _ => some k.kind
  | .uint k _ => some k.kind
  | .time _ => some .struct
  | .message _ => some .ptr
  | .stringMap _ => some .map
  | .other k => some k

/-- `reflect.TypeOf(v).Implements(messageType)`. -/
def implementsMessage : GoValue → Bool
  | .message _ => true
  | _ => false

/-- `reflect.TypeOf(v).AssignableTo(timeType)`. -/
def assignableToTime : GoValue → Bool
  | .time _ => true
  | _ => false

/-- `v.(string)`. -/
def assertString : GoValue → Except Err Bytes
  | .string s => .ok s
  | _ => .error (.panic .interfaceConversion)

/-- `v.(bool)`. -/
def assertBool : GoValue → Except Err Bool
  | .bool b => .ok b
  | _ => .error (.panic .interfaceConversion)

/-- `v.(map[string]string)`. -/
def assertStringMap : GoValue → Except Err (Option (List (Bytes × Bytes)))
  | .stringMap m => .ok m
  | _ => .error (.panic .interfaceConversion)

/-- `v.(proto.Message)`. -/
def assertMessage : GoValue → Except Err Message
  | .message m => .ok m
  | _ => .error (.panic .interfaceConversion)

/-- `v.(time.Time)`. -/
def assertTime : GoValue → Except Err Time
  | .time t => .ok t
  | _ => .error (.panic .interfaceConversion)

end GoValue

/-- `convertInt64Value`: `int64(value.(int))`, …, `value.(int64)` by `kind`, else `0`. -/
def convertInt64Value (value : GoValue) (kind : Kind) : Except Err (BitVec 64) :=
  match kind, value with
  | .int, .int .int v => .ok (v.signExtend 64)
  | .int8, .int .int8 v => .ok (v.signExtend 64)
  | .int16, .int .int16 v => .ok (v.signExtend 64)
  | .int32, .int .int32 v => .ok (v.signExtend 64)
  | .int64, .int .int64 v => .ok (v.signExtend 64)
  | .int, _ | .int8, _ | .int16, _ | .int32, _ | .int64, _ => .error (.panic .interfaceConversion)
  | _, _ => .ok 0

/-- `convertUint64Value`: `uint64(value.(uint))`, …, `value.(uint64)` by `kind`, else `0`. -/
def convertUint64Value (value : GoValue) (kind : Kind) : Except Err (BitVec 64) :=
  match kind, value with
  | .uint, .uint .uint v => .ok (v.zeroExtend 64)
  | .uint8, .uint .uint8 v => .ok (v.zeroExtend 64)
  | .uint16, .uint .uint16 v => .ok (v.zeroExtend 64)
  | .uint32, .uint .uint32 v => .ok (v.zeroExtend 64)
  | .uint64, .uint .uint64 v => .ok (v.zeroExtend 64)
  | .uint, _ | .uint8, _ | .uint16, _ | .uint32, _ | .uint64, _ =>
      .error (.panic .interfaceConversion)
  | _, _ => .ok 0

/-! ## Go's `int` and slice expressions -/

/-- Go's `int`: 64-bit two's complement, wrapping on overflow. -/
def goInt (x : Int) : Int := x.bmod (2 ^ 64)

theorem goInt_of_lt {x : Int} (h₁ : -2 ^ 63 ≤ x) (h₂ : x < 2 ^ 63) : goInt x = x := by
  unfold goInt; rw [Int.bmod_def]; split <;> omega

/-- `s[lo:hi]`, which panics unless `0 ≤ lo ≤ hi ≤ cap(s)`; here `cap(s) = len(s)`. -/
def goSlice {α : Type} (s : List α) (lo hi : Int) : Except Err (List α) :=
  if 0 ≤ lo ∧ lo ≤ hi ∧ hi ≤ s.length then .ok ((s.drop lo.toNat).take (hi - lo).toNat)
  else .error (.panic .sliceBounds)

theorem goSlice_ok {α : Type} {s : List α} {lo : Nat} {hi : Int} (h₁ : lo ≤ hi)
    (h₂ : hi ≤ s.length) : goSlice s lo hi = .ok ((s.drop lo).take (hi - lo).toNat) := by
  rw [goSlice, if_pos (by omega), Int.toNat_ofNat]

end Polaris

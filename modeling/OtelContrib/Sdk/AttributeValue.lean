/-
Attribute values as an exporter receives them (`common::AttributeValue`).

A view does not own its text and does not end with a NUL.  What a callee that is given
only `data()` reads is `StringView.data`: it goes on behind the view, up to the first NUL.
-/
import OtelContrib.Lib.Text

namespace Otel.Common

/-- A `string_view`: what it views, and the memory behind that. -/
structure StringView where
  viewed : Bytes
  beyond : Bytes

/-- A C string read from memory. -/
def cString (memory : Bytes) : Bytes := memory.takeWhile (· ≠ 0)

/-- The view as a C string that starts where it does. -/
def StringView.data (v : StringView) : Bytes := cString (v.viewed ++ v.beyond)

/-- The alternatives of the variant, in its order.  A double is its bit pattern, and a
`const char *` the memory it points at. -/
inductive AttributeValue
  | bool (v : Bool)
  | int32 (v : Int32)
  | int64 (v : Int64)
  | uint32 (v : UInt32)
  | double (bits : UInt64)
  | charPointer (memory : Bytes)
  | string (v : StringView)
  | spanBool (vs : List Bool)
  | spanInt32 (vs : List Int32)
  | spanInt64 (vs : List Int64)
  | spanUInt32 (vs : List UInt32)
  | spanDouble (bits : List UInt64)
  | spanString (vs : List StringView)
  | uint64 (v : UInt64)
  | spanUInt64 (vs : List UInt64)
  | spanUInt8 (vs : List UInt8)

/-- The alternatives of `OwnedAttributeValue`, in its order. -/
inductive OwnedAttributeValue
  | bool (v : Bool)
  | int (v : Int32)
  | uint (v : UInt32)
  | int64 (v : Int64)
  | double (bits : UInt64)
  | string (v : Bytes)
  | spanBool (vs : List Bool)
  | spanInt (vs : List Int32)
  | spanUInt (vs : List UInt32)
  | spanInt64 (vs : List Int64)
  | spanDouble (bits : List UInt64)
  | spanString (vs : List Bytes)
  | uint64 (v : UInt64)
  | spanUInt64 (vs : List UInt64)
  | spanByte (vs : List UInt8)

/-- The copy that the SDK owns of a value (`AttributeConverter`), with what views view. -/
def AttributeValue.owned : AttributeValue → OwnedAttributeValue
  | .bool v => .bool v
  | .int32 v => .int v
  | .int64 v => .int64 v
  | .uint32 v => .uint v
  | .double bits => .double bits
  | .charPointer memory => .string (cString memory)
  | .string v => .string v.viewed
  | .spanBool vs => .spanBool vs
  | .spanInt32 vs => .spanInt vs
  | .spanInt64 vs => .spanInt64 vs
  | .spanUInt32 vs => .spanUInt vs
  | .spanDouble bits => .spanDouble bits
  | .spanString vs => .spanString (vs.map StringView.viewed)
  | .uint64 v => .uint64 v
  | .spanUInt64 vs => .spanUInt64 vs
  | .spanUInt8 vs => .spanByte vs

/-- A view is read as it is exactly when there is no NUL in it, and no text behind it before
one. -/
theorem StringView.data_eq_viewed_iff (v : StringView) :
    v.data = v.viewed ↔ (∀ b ∈ v.viewed, b ≠ 0) ∧ cString v.beyond = [] := by
  have hread : ∀ b ∈ v.data, b ≠ 0 := by
    intro b hb
    simpa using List.all_eq_true.mp List.all_takeWhile b hb
  constructor
  · intro h
    rw [h] at hread
    rw [data, cString, List.takeWhile_append_of_pos (by simpa using hread)] at h
    exact ⟨hread, List.append_right_eq_self.mp h⟩
  · rintro ⟨hviewed, hbeyond⟩
    rw [cString] at hbeyond
    rw [data, cString, List.takeWhile_append_of_pos (by simpa using hviewed), hbeyond,
      List.append_nil]

end Otel.Common

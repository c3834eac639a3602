/-
The log recordable of the user_events exporter (`Recordable`, `PopulateAttribute`).

A recordable writes its event into an `EventBuilder`, which is not part of the repository.
It is a list of fields with struct headers, whose counts are patched in by `PrepareExport`.
The texts of severities are not part of the repository either and are a parameter.

* `populateAttribute_eq_iff` — the field an attribute makes has the viewed key and value
  exactly when nothing is read behind a view.
-/
import OtelContrib.Lib.Backpatch
import OtelContrib.Sdk.AttributeValue
import Mathlib.Data.Nat.Notation

open Backpatch Otel.Common

namespace UserEvents

/-! ### The event builder -/

inductive Format
  | default | unsignedInt | signedInt | boolean | float
  deriving DecidableEq

/-- A value as it is written, with the width of its elements. -/
inductive FieldValue
  | value8 (v : UInt8)
  | value16 (v : UInt16)
  | value32 (v : UInt32)
  | value64 (v : UInt64)
  | string (text : Bytes)
  | array8 (vs : List UInt8)
  | array32 (vs : List UInt32)
  | array64 (vs : List UInt64)
  | arrayString (texts : List Bytes)
  deriving DecidableEq

structure Field where
  name : Bytes
  value : FieldValue
  format : Format
  deriving DecidableEq

structure EventBuilder where
  name : Bytes
  items : List (Item Field)

namespace EventBuilder

/-- `Reset`: all fields are dropped. -/
def reset (_ : EventBuilder) (name : Bytes) : EventBuilder := ⟨name, []⟩

/-- `AddValue`, `AddString`, `AddValueRange` and `AddStringRange`: one field is appended. -/
def add (b : EventBuilder) (f : Field) : EventBuilder := { b with items := b.items ++ [.field f] }

/-- `AddStruct`: the position of the header is the bookmark. -/
def addStruct (b : EventBuilder) (name : Bytes) (count : ℕ) : ℕ × EventBuilder :=
  (b.items.length, { b with items := b.items ++ [.header name count] })

def setStructFieldCount (b : EventBuilder) (bookmark count : ℕ) : EventBuilder :=
  { b with items := patch b.items bookmark count }

end EventBuilder

/-! ### Attributes -/

def bit (b : Bool) : UInt8 := if b then 1 else 0

/-- The value and format `PopulateAttribute` chooses.  It gets the alternative of `unsigned
int` arrays where it found one of `uint64_t`, which is a bad variant access. -/
def populatedValue : AttributeValue → Option (FieldValue × Format)
  | .bool v => some (.value8 (bit v), .boolean)
  | .int32 v => some (.value32 v.toUInt32, .signedInt)
  | .int64 v => some (.value64 v.toUInt64, .signedInt)
  | .uint32 v => some (.value32 v, .default)
  | .uint64 v => some (.value64 v, .default)
  | .double bits => some (.value64 bits, .float)
  | .charPointer memory => some (.string (cString memory), .default)
  | .string v => some (.string v.data, .default)
  | .spanUInt8 vs => some (.array8 vs, .default)
  | .spanInt32 vs => some (.array32 (vs.map Int32.toUInt32), .signedInt)
  | .spanInt64 vs => some (.array64 (vs.map Int64.toUInt64), .signedInt)
  | .spanUInt32 vs => some (.array32 vs, .default)
  | .spanUInt64 _ => none
  | .spanDouble bits => some (.array64 bits, .float)
  | .spanBool vs => some (.array8 (vs.map bit), .boolean)
  | .spanString vs => some (.arrayString (vs.map StringView.viewed), .default)

/-- `PopulateAttribute`, `none` where the process is terminated. -/
def populateAttribute (key : StringView) (value : AttributeValue) (b : EventBuilder) :
    Option EventBuilder := do
  let (value, format) ← populatedValue value
  some (b.add ⟨key.data, value, format⟩)

/-- A literal of the source, with its terminator. -/
def literal (text : String) : StringView := ⟨ascii text, [0]⟩

/-! ### The recordable -/

structure Recordable where
  event_builder_ : EventBuilder
  event_id_ : Int64
  event_name_ : StringView
  level_index_ : Int32
  cs_part_b_bookmark_ : ℕ
  cs_part_b_bookmark_size_ : ℕ
  cs_part_c_bookmark_ : ℕ
  cs_part_c_bookmark_size_ : ℕ
  severity_ : UInt8
  has_event_id_ : Bool

/-- What can be called on a recordable. -/
inductive Call
  | setSeverity (severity : UInt8)
  | setEventId (id : Int64) (name : StringView)
  | setAttribute (key : StringView) (value : AttributeValue)
  | setBody (message : AttributeValue)

namespace Recordable

def init : Recordable := ⟨⟨[], []⟩, 0, ⟨[], [0]⟩, 0, 0, 0, 0, 0, 0, false⟩

def setSeverity (r : Recordable) (severity : UInt8) : Recordable :=
  let severity_value := if severity > 24 then 0 else severity
  { r with
    severity_ := severity_value
    level_index_ := (severity_value.toUInt32.toInt32 - 1) >>> 2 }

def setEventId (r : Recordable) (id : Int64) (name : StringView) : Recordable :=
  { r with has_event_id_ := true, event_id_ := id, event_name_ := name }

/-- `SetAttribute`: the first one opens the struct. -/
def setAttribute (r : Recordable) (key : StringView) (value : AttributeValue) :
    Option Recordable := do
  let (bookmark, builder) :=
    if r.cs_part_c_bookmark_size_ = 0 then r.event_builder_.addStruct (ascii "PartC") 1
    else (r.cs_part_c_bookmark_, r.event_builder_)
  let builder ← populateAttribute key value builder
  some { r with
    event_builder_ := builder
    cs_part_c_bookmark_ := bookmark
    cs_part_c_bookmark_size_ := r.cs_part_c_bookmark_size_ + 1 }

def csver : Field := ⟨ascii "__csver__", .value16 0x400, .unsignedInt⟩
def typeName : Field := ⟨ascii "_typeName", .string (ascii "Log"), .default⟩
def severityNumber (severity : UInt8) : Field :=
  ⟨ascii "severityNumber", .value16 severity.toUInt16, .default⟩
def severityText (text : Bytes) : Field := ⟨ascii "severityText", .string text, .default⟩

/-- `SetBody`: without a severity nothing happens.  The bookmark and the count of `PartC` are
not reset with the builder. -/
def setBody (SeverityNumToText : UInt8 → Bytes) (r : Recordable) (message : AttributeValue) :
    Option Recordable := do
  if r.severity_ = 0 then some r
  else
    let event_name := if r.event_name_.viewed = [] then ascii "Logs" else r.event_name_.data
    let builder := r.event_builder_.reset event_name
    let builder := builder.add csver
    let (bookmark, builder) := builder.addStruct (ascii "PartB") 1
    let builder := builder.add typeName
    let builder := builder.add (severityNumber r.severity_)
    let builder := builder.add (severityText (SeverityNumToText r.severity_))
    let (size, builder) ←
      if r.has_event_id_ then do
        some (5, ← populateAttribute (literal "eventId") (.int64 r.event_id_) builder)
      else some (4, builder)
    let builder ← populateAttribute (literal "body") message builder
    some { r with
      event_builder_ := builder
      cs_part_b_bookmark_ := bookmark
      cs_part_b_bookmark_size_ := size }

/-- `PrepareExport`: whether there is an event to write, and the recordable with it. -/
def prepareExport (r : Recordable) : Bool × Recordable :=
  if r.cs_part_b_bookmark_size_ = 0 then (false, r)
  else
    let builder :=
      r.event_builder_.setStructFieldCount r.cs_part_b_bookmark_ r.cs_part_b_bookmark_size_
    let builder :=
      if r.cs_part_c_bookmark_size_ > 0 then
        builder.setStructFieldCount r.cs_part_c_bookmark_ r.cs_part_c_bookmark_size_
      else builder
    (true, { r with event_builder_ := builder })

end Recordable

section

variable (SeverityNumToText : UInt8 → Bytes)

/-- One call, `none` where the process is terminated. -/
def Call.apply (r : Recordable) : Call → Option Recordable
  | .setSeverity severity => some (r.setSeverity severity)
  | .setEventId id name => some (r.setEventId id name)
  | .setAttribute key value => r.setAttribute key value
  | .setBody message => r.setBody SeverityNumToText message

/-- Calls one after the other. -/
def Recordable.run (r : Recordable) (calls : List Call) : Option Recordable :=
  calls.foldlM (Call.apply SeverityNumToText) r

end

/-! ### What was given -/

/-- The value of an attribute, as it was given. -/
def givenValue : AttributeValue → FieldValue × Format
  | .bool v => (.value8 (bit v), .boolean)
  | .int32 v => (.value32 v.toUInt32, .signedInt)
  | .int64 v => (.value64 v.toUInt64, .signedInt)
  | .uint32 v => (.value32 v, .default)
  | .uint64 v => (.value64 v, .default)
  | .double bits => (.value64 bits, .float)
  | .charPointer memory => (.string (cString memory), .default)
  | .string v => (.string v.viewed, .default)
  | .spanUInt8 vs => (.array8 vs, .default)
  | .spanInt32 vs => (.array32 (vs.map Int32.toUInt32), .signedInt)
  | .spanInt64 vs => (.array64 (vs.map Int64.toUInt64), .signedInt)
  | .spanUInt32 vs => (.array32 vs, .default)
  | .spanUInt64 vs => (.array64 vs, .default)
  | .spanDouble bits => (.array64 bits, .float)
  | .spanBool vs => (.array8 (vs.map bit), .boolean)
  | .spanString vs => (.arrayString (vs.map StringView.viewed), .default)

/-- The field of an attribute, as it was given. -/
def givenField (key : Bytes) (value : AttributeValue) : Field :=
  ⟨key, (givenValue value).1, (givenValue value).2⟩

/-- Nothing is read behind the view of a string value. -/
def Terminated : AttributeValue → Prop
  | .string v => v.data = v.viewed
  | _ => True

/-- A value that can be populated is populated as it was given, if nothing is read behind it. -/
theorem populatedValue_eq_iff {value : AttributeValue} {p : FieldValue × Format}
    (h : populatedValue value = some p) : p = givenValue value ↔ Terminated value := by
  cases value <;> cases h <;> simp [givenValue, Terminated]

/-- Nothing is read behind a view that is taken for a C string. -/
def EndsWithNul (v : StringView) : Prop := (∀ b ∈ v.viewed, b ≠ 0) ∧ cString v.beyond = []

instance (v : StringView) : Decidable (EndsWithNul v) := inferInstanceAs (Decidable (_ ∧ _))

theorem terminated_iff (value : AttributeValue) :
    Terminated value ↔ ∀ v, value = .string v → EndsWithNul v := by
  cases value with
  | string v =>
    rw [Terminated, v.data_eq_viewed_iff]
    exact ⟨fun h v' heq => AttributeValue.string.inj heq ▸ h, fun h => h v rfl⟩
  | _ => simp [Terminated]

theorem populatedValue_eq_none_iff (value : AttributeValue) :
    populatedValue value = none ↔ ∃ vs, value = .spanUInt64 vs := by
  cases value <;> simp [populatedValue]

theorem add_injective {b : EventBuilder} {f g : Field} (h : b.add f = b.add g) : f = g := by
  have hitems : b.items ++ [.field f] = b.items ++ [.field g] := congrArg EventBuilder.items h
  exact Item.field.inj (List.singleton_inj.mp (List.append_cancel_left hitems))

/-- **Attributes are converted as they were given**, by a call that returns and adds one field
with the name and the value of the attribute, exactly when the value is not an array of
`uint64_t` and no text is read behind the view of the key and of a string. -/
theorem populateAttribute_eq_iff (key : StringView) (value : AttributeValue) (b : EventBuilder) :
    (∃ f, populateAttribute key value b = some (b.add f) ∧ f.name = key.viewed ∧
        f.value = (givenValue value).1) ↔
      EndsWithNul key ∧ (∀ v, value = .string v → EndsWithNul v) ∧
        ∀ vs, value ≠ .spanUInt64 vs := by
  rw [← terminated_iff, EndsWithNul, ← key.data_eq_viewed_iff]
  cases hvalue : populatedValue value with
  | none =>
    -- the wrong alternative is taken out of the variant
    obtain ⟨vs, rfl⟩ := (populatedValue_eq_none_iff value).mp hvalue
    refine iff_of_false ?_ fun h => h.2.2 vs rfl
    rintro ⟨f, hf, -⟩
    simp [populateAttribute, hvalue] at hf
  | some p =>
    have hnot : ∀ vs, value ≠ .spanUInt64 vs := by
      rintro vs rfl
      cases hvalue
    have hpopulated : populateAttribute key value b = some (b.add ⟨key.data, p.1, p.2⟩) := by
      simp [populateAttribute, hvalue]
    have hsame : p.1 = (givenValue value).1 ↔ Terminated value := by
      rw [← populatedValue_eq_iff hvalue, Prod.ext_iff]
      refine (and_iff_left ?_).symm
      cases value <;> cases hvalue <;> rfl
    rw [hpopulated, and_iff_left hnot, ← hsame]
    constructor
    · rintro ⟨f, hf, hname, hfvalue⟩
      obtain rfl := add_injective (Option.some.inj hf)
      exact ⟨hname, hfvalue⟩
    · rintro ⟨hname, hfvalue⟩
      exact ⟨_, rfl, hname, hfvalue⟩

/-- An array of `uint64_t` terminates the process, and of a view that is part of a longer text
all of the text is written. -/
theorem populateAttribute_fails :
    populateAttribute (literal "ids") (.spanUInt64 [1, 2]) ⟨[], []⟩ = none ∧
      (populateAttribute (literal "name") (.string ⟨ascii "ab", ascii "cd" ++ [0]⟩) ⟨[], []⟩).map
          EventBuilder.items =
        some [.field ⟨ascii "name", .string (ascii "abcd"), .default⟩] ∧
      ¬∃ f, populateAttribute (literal "ids") (.spanUInt64 [1, 2]) ⟨[], []⟩ =
          some (EventBuilder.add ⟨[], []⟩ f) ∧ f.name = ascii "ids" ∧
            f.value = .array64 [1, 2] := by
  refine ⟨rfl, rfl, ?_⟩
  rintro ⟨f, hf, -⟩
  cases hf

end UserEvents

/-
The recordable of the fluentd log exporter (`logs::Recordable`, `AttributeValueToString`).

A log is one JSON object, of which every setter assigns some fields.

* `members_run` — after any setters the log is an object.
-/
import OtelContrib.Fluentd.Recordable
import OtelContrib.Lib.Binary64

open Otel (toHex)
open Otel.Common

namespace Fluentd

/-- `AttributeValueToString`; an array is the empty string. -/
def attributeValueToString : AttributeValue → Bytes
  | .bool v => if v then ascii "true" else ascii "false"
  | .int32 v => ascii (toString v.toInt)
  | .int64 v => ascii (toString v.toInt)
  | .uint32 v => ascii (toString v.toNat)
  | .uint64 v => ascii (toString v.toNat)
  | .double bits => (⟨bits⟩ : Binary64).toDecimal
  | .charPointer memory => cString memory
  | .string v => v.data
  | _ => []

namespace Logs

structure Recordable where
  json_ : Json

/-- What can be called on a log, with the time of the call where it is read.  A severity comes
with its text of `SeverityNumToText`. -/
inductive Call
  | setSeverity (severity : UInt8) (text : Bytes)
  | setName (name : StringView)
  | setBody (message : AttributeValue)
  | setEventId (id : Int64) (name : StringView)
  | setTraceId (trace_id : BitVec 128)
  | setSpanId (span_id : BitVec 64)
  | setAttribute (key : StringView) (value : AttributeValue)
  | setTimestamp (timestamp now : Int64)
  | setObservedTimestamp (timestamp now : Int64)
  | setResource
  | setTraceFlags
  | setInstrumentationScope

/-- `GetMsgPackEventTimeFromSystemTimestamp`. -/
def getMsgPackEventTimeFromSystemTimestamp (now timestamp : Int64) : Json :=
  let (seconds, nanoseconds) := splitTime timestamp
  get_msgpack_eventtimeext now seconds nanoseconds

namespace Recordable

def init : Recordable := ⟨.null⟩

/-- Assignments to fields, one after the other. -/
def assign (r : Recordable) (updates : List (Bytes × (Json → Option Json))) : Option Recordable :=
  (r.json_.updateAll updates).map Recordable.mk

def setSeverity (r : Recordable) (severity : UInt8) (text : Bytes) : Option Recordable :=
  r.assign
    [(ascii "severityText", becomes (.string text)),
      (ascii "severityNumber", becomes (.uint severity.toUInt64))]

def setName (r : Recordable) (name : StringView) : Option Recordable :=
  r.assign [(ascii "name", becomes (.string name.data))]

/-- `SetBody`, which hands the text on as a C string. -/
def setBody (r : Recordable) (message : AttributeValue) : Option Recordable :=
  r.assign [(ascii "body", becomes (.string (cString (attributeValueToString message))))]

def setEventId (r : Recordable) (id : Int64) (name : StringView) : Option Recordable :=
  r.assign <|
    [(ascii "EventId", becomes (.int id))] ++
    if name.viewed ≠ [] then [(ascii "name", becomes (.string name.data))] else []

def setTraceId (r : Recordable) (trace_id : BitVec 128) : Option Recordable :=
  r.assign [(FLUENT_FIELD_TRACE_ID, becomes (.string (toHex 32 trace_id.toNat)))]

def setSpanId (r : Recordable) (span_id : BitVec 64) : Option Recordable :=
  r.assign [(FLUENT_FIELD_SPAN_ID, becomes (.string (toHex 16 span_id.toNat)))]

def setAttribute (r : Recordable) (key : StringView) (value : AttributeValue) : Option Recordable :=
  r.assign <|
    (if r.json_.contains FLUENT_FIELD_PROPERTIES then []
      else [(FLUENT_FIELD_PROPERTIES, becomes (.object []))]) ++
    [(FLUENT_FIELD_PROPERTIES, fun properties => populateAttribute properties key value)]

def setTimestamp (r : Recordable) (timestamp now : Int64) : Option Recordable :=
  r.assign [(ascii "Timestamp", becomes (getMsgPackEventTimeFromSystemTimestamp now timestamp))]

def setObservedTimestamp (r : Recordable) (timestamp now : Int64) : Option Recordable :=
  r.assign
    [(ascii "ObservedTimestamp", becomes (getMsgPackEventTimeFromSystemTimestamp now timestamp))]

end Recordable

/-- One call on a log, `none` where the process would be terminated. -/
def Call.apply (r : Recordable) : Call → Option Recordable
  | .setSeverity severity text => r.setSeverity severity text
  | .setName name => r.setName name
  | .setBody message => r.setBody message
  | .setEventId id name => r.setEventId id name
  | .setTraceId trace_id => r.setTraceId trace_id
  | .setSpanId span_id => r.setSpanId span_id
  | .setAttribute key value => r.setAttribute key value
  | .setTimestamp timestamp now => r.setTimestamp timestamp now
  | .setObservedTimestamp timestamp now => r.setObservedTimestamp timestamp now
  -- these are not supported
  | .setResource | .setTraceFlags | .setInstrumentationScope => some r

/-- Calls one after the other. -/
def Recordable.run (r : Recordable) (calls : List Call) : Option Recordable :=
  calls.foldlM Call.apply r

variable {r r' : Recordable} {m : OrderedMap Bytes Json}

theorem Recordable.members_assign (h : r.json_.members? = some m.entries)
    {updates : List (Bytes × (Json → Option Json))} (hassign : r.assign updates = some r') :
    ∃ m' : OrderedMap Bytes Json, r'.json_.members? = some m'.entries ∧
      ∀ k ∉ updates.map Prod.fst, m'.find? k = m.find? k := by
  obtain ⟨json_, hjson, rfl⟩ := Option.map_eq_some_iff.mp hassign
  exact Json.updateAll_spec h hjson

/-- Every call assigns some fields. -/
theorem Call.apply_eq_assign (call : Call) (r : Recordable) :
    ∃ updates, call.apply r = r.assign updates := by
  cases call with
  | setResource => exact ⟨[], rfl⟩
  | setTraceFlags => exact ⟨[], rfl⟩
  | setInstrumentationScope => exact ⟨[], rfl⟩
  | _ => exact ⟨_, rfl⟩

/-- After any calls the log is an object, or still null. -/
theorem members_run {calls : List Call} (h : Recordable.init.run calls = some r) :
    ∃ m : OrderedMap Bytes Json, r.json_.members? = some m.entries := by
  induction calls using List.reverseRecOn generalizing r with
  | nil =>
    obtain rfl : Recordable.init = r := Option.some.inj h
    exact ⟨∅, rfl⟩
  | append_singleton calls call ih =>
    rw [Recordable.run, List.foldlM_append] at h
    obtain ⟨r₁, h₁, hcall⟩ := Option.bind_eq_some_iff.mp h
    obtain ⟨m₁, hm₁⟩ := ih h₁
    have happly : call.apply r₁ = some r := by simpa using hcall
    obtain ⟨updates, hupdates⟩ := call.apply_eq_assign r₁
    obtain ⟨m, hm, -⟩ := Recordable.members_assign hm₁ (hupdates ▸ happly)
    exact ⟨m, hm⟩

end Logs

end Fluentd

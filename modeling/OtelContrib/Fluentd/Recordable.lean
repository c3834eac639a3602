/-
The recordable of the fluentd trace exporter (`trace::Recordable`, `PopulateAttribute`).

A recordable keeps its span as JSON: the fields in `options_`, the events in `events_`.
It is made by any calls of its setters, in any order.

* `populateAttribute_eq` — populating never fails, and inserts one value under the key;
* `madeBy_run` — after any calls the events are those that were added, in their order, and
  the ids among the fields are those of the last `SetIdentity`.
-/
import OtelContrib.Lib.Json
import OtelContrib.Sdk.AttributeValue
import OtelContrib.Sdk.Tracer

open Otel (StatusCode toHex)
open Otel.Common

namespace Fluentd

/-! ### Field names -/

def FLUENT_FIELD_NAME : Bytes := ascii "name"
def FLUENT_FIELD_TRACE_ID : Bytes := ascii "env_dt_traceId"
def FLUENT_FIELD_SPAN_ID : Bytes := ascii "env_dt_spanId"
def FLUENT_FIELD_SPAN_PARENTID : Bytes := ascii "parentId"
def FLUENT_FIELD_SPAN_KIND : Bytes := ascii "kind"
def FLUENT_FIELD_TRACE_STATE : Bytes := ascii "traceState"
def FLUENT_FIELD_PROPERTIES : Bytes := ascii "env_properties"
def FLUENT_FIELD_STARTTIME : Bytes := ascii "startTime"
def FLUENT_FIELD_ENDTTIME : Bytes := ascii "env_time"
def FLUENT_FIELD_DURATION : Bytes := ascii "duration"
def FLUENT_FIELD_STATUSMESSAGE : Bytes := ascii "statusMessage"
def FLUENT_FIELD_SUCCESS : Bytes := ascii "success"
def FLUENT_VALUE_SPAN : Bytes := ascii "Span"

/-! ### Attributes -/

/-- `attrs[key] = {}`, which is null, and one `push_back` for each value. -/
def pushAll (attrs : Json) (key : Bytes) (vals : List Json) : Option Json := do
  vals.foldlM (fun attrs val => attrs.update key (·.pushBack val))
    (← attrs.set key .null)

/-- `PopulateAttribute`.  The key is handed on as a C string, and so is a string value. -/
def populateAttribute (attrs : Json) (key : StringView) : AttributeValue → Option Json
  | .bool v => attrs.set key.data (.bool v)
  | .int32 v => attrs.set key.data (.int v.toInt64)
  | .int64 v => attrs.set key.data (.int v)
  | .uint32 v => attrs.set key.data (.uint v.toUInt64)
  | .uint64 v => attrs.set key.data (.uint v)
  | .double bits => attrs.set key.data (.float bits)
  | .charPointer memory => attrs.set key.data (.string (cString memory))
  | .string v => attrs.set key.data (.string v.data)
  | .spanUInt8 vs => pushAll attrs key.data (vs.map fun v => .uint v.toUInt64)
  | .spanBool vs => pushAll attrs key.data (vs.map .bool)
  | .spanInt32 vs => pushAll attrs key.data (vs.map fun v => .int v.toInt64)
  | .spanInt64 vs => pushAll attrs key.data (vs.map .int)
  | .spanUInt32 vs => pushAll attrs key.data (vs.map fun v => .uint v.toUInt64)
  | .spanUInt64 vs => pushAll attrs key.data (vs.map .uint)
  | .spanDouble bits => pushAll attrs key.data (bits.map .float)
  | .spanString vs => pushAll attrs key.data (vs.map fun v => .string v.viewed)

/-! ### Times -/

/-- The low `n` bytes of an `int32_t`, the highest first. -/
def bigEndian : ℕ → Int32 → Bytes
  | 0, _ => []
  | n + 1, v => bigEndian n (v >>> 8) ++ [v.toUInt32.toUInt8]

/-- Seconds and nanoseconds of a count of nanoseconds, as two `int32_t`. -/
def splitTime (time : Int64) : Int32 × Int32 :=
  ((time / 1000000000).toInt32, (time % 1000000000).toInt32)

/-- `get_msgpack_eventtimeext`: without a time, that is with zero, it is now. -/
def get_msgpack_eventtimeext (now : Int64) (seconds nanoseconds : Int32) : Json :=
  let (seconds, nanoseconds) :=
    if seconds = 0 ∧ nanoseconds = 0 then splitTime now else (seconds, nanoseconds)
  .binary (bigEndian 4 seconds ++ bigEndian 4 nanoseconds) 0

/-! ### The recordable -/

structure Recordable where
  tag_ : Bytes
  events_ : Json
  options_ : Json
  include_trace_state_ : Bool

/-- The ids and the trace state that `SetIdentity` is given. -/
structure Identity where
  traceId : BitVec 128
  spanId : BitVec 64
  parentSpanId : BitVec 64
  traceState : Bytes

inductive SpanKind
  | kInternal | kServer | kClient | kProducer | kConsumer
  deriving DecidableEq

def kSpanKindMap : List (SpanKind × Int64) :=
  [(.kInternal, 0), (.kServer, 1), (.kClient, 2), (.kProducer, 3), (.kConsumer, 4)]

/-- The value of `kUnset`, `kOk` and `kError`. -/
def statusCode : StatusCode → Int64
  | .Unset => 0
  | .Ok => 1
  | .Error => 2

/-- The `tag` attribute of a resource. -/
inductive ResourceTag
  | missing
  | string (tag : Bytes)
  | other

/-- What can be called on a recordable, with the time of the call where it is read. -/
inductive Call
  | setIdentity (identity : Identity)
  | setAttribute (key : StringView) (value : AttributeValue)
  | addEvent (name : Bytes) (attributes : List (StringView × AttributeValue)) (now : Int64)
  | addLink
  | setStatus (code : StatusCode) (description : Bytes)
  | setName (name : StringView)
  | setResource (tag : ResourceTag)
  | setStartTime (start_time now : Int64)
  | setDuration (duration now : Int64)
  | setSpanKind (span_kind : SpanKind)
  | setInstrumentationScope (name version : Bytes)
  | setTraceFlags

/-- A field becomes a value. -/
def becomes (v : Json) : Json → Option Json := fun _ => some v

namespace Recordable

def init (include_trace_state : Bool) : Recordable :=
  ⟨FLUENT_VALUE_SPAN, .array [], .null, include_trace_state⟩

/-- Assignments to fields, one after the other. -/
def assign (r : Recordable) (updates : List (Bytes × (Json → Option Json))) :
    Option Recordable := do
  some { r with options_ := ← r.options_.updateAll updates }

def setIdentity (r : Recordable) (identity : Identity) : Option Recordable :=
  r.assign <|
    [(FLUENT_FIELD_SPAN_ID, becomes (.string (toHex 16 identity.spanId.toNat))),
      (FLUENT_FIELD_SPAN_PARENTID, becomes (.string (toHex 16 identity.parentSpanId.toNat))),
      (FLUENT_FIELD_TRACE_ID, becomes (.string (toHex 32 identity.traceId.toNat)))] ++
    if r.include_trace_state_ then
      [(FLUENT_FIELD_TRACE_STATE, becomes (.string identity.traceState))]
    else []

def setAttribute (r : Recordable) (key : StringView) (value : AttributeValue) : Option Recordable :=
  r.assign <|
    (if r.options_.contains FLUENT_FIELD_PROPERTIES then []
      else [(FLUENT_FIELD_PROPERTIES, becomes (.object []))]) ++
    [(FLUENT_FIELD_PROPERTIES, fun properties => populateAttribute properties key value)]

/-- `AddEvent`: the name is assigned last, over an attribute of that name. -/
def addEvent (r : Recordable) (name : Bytes) (attributes : List (StringView × AttributeValue))
    (now : Int64) : Option Recordable := do
  let attrs ← attributes.foldlM (fun attrs kv => populateAttribute attrs kv.1 kv.2) (.object [])
  let attrs ← attrs.set FLUENT_FIELD_NAME (.string name)
  let ts := get_msgpack_eventtimeext now 0 0
  some { r with events_ := ← r.events_.pushBack (.array [ts, attrs]) }

def setStatus (r : Recordable) (code : StatusCode) (description : Bytes) : Option Recordable :=
  r.assign <|
    [(FLUENT_FIELD_SUCCESS, becomes (.bool (code ≠ .Error)))] ++
    if code ≠ .Unset then
      [(ascii "tags", fun tags => tags.set (ascii "otel.status_code") (.int (statusCode code)))] ++
      if code = .Error then [(FLUENT_FIELD_STATUSMESSAGE, becomes (.string description))] else []
    else []

def setName (r : Recordable) (name : StringView) : Option Recordable :=
  r.assign [(FLUENT_FIELD_NAME, becomes (.string name.data))]

/-- `SetResource`: a tag that is not a string is a bad variant access. -/
def setResource (r : Recordable) : ResourceTag → Option Recordable
  | .missing => some r
  | .string tag => some { r with tag_ := tag }
  | .other => none

def setStartTime (r : Recordable) (start_time now : Int64) : Option Recordable :=
  let (seconds, nanoseconds) := splitTime start_time
  r.assign [(FLUENT_FIELD_STARTTIME, becomes (get_msgpack_eventtimeext now seconds nanoseconds))]

def setDuration (r : Recordable) (duration now : Int64) : Option Recordable :=
  r.assign
    [(FLUENT_FIELD_ENDTTIME, becomes (get_msgpack_eventtimeext now 0 0)),
      (FLUENT_FIELD_DURATION, becomes (.int duration))]

def setSpanKind (r : Recordable) (span_kind : SpanKind) : Option Recordable :=
  match kSpanKindMap.find? fun kind => kind.1 = span_kind with
  | some kind => r.assign [(FLUENT_FIELD_SPAN_KIND, becomes (.int kind.2))]
  | none => some r

def setInstrumentationScope (r : Recordable) (name version : Bytes) : Option Recordable :=
  r.assign
    [(ascii "tags", fun tags => tags.set (ascii "otel.library.name") (.string name)),
      (ascii "tags", fun tags => tags.set (ascii "otel.library.version") (.string version))]

/-- `span()`: no options when none were set. -/
def span (r : Recordable) : Option Json := do
  let result ← Json.null.set (ascii "tag") (.string r.tag_)
  let result ← result.set (ascii "events") r.events_
  if r.options_.size = 0 then some result else result.set (ascii "options") r.options_

end Recordable

/-- One call on a recordable, `none` where the process would be terminated. -/
def Call.apply (r : Recordable) : Call → Option Recordable
  | .setIdentity identity => r.setIdentity identity
  | .setAttribute key value => r.setAttribute key value
  | .addEvent name attributes now => r.addEvent name attributes now
  | .addLink => some r
  | .setStatus code description => r.setStatus code description
  | .setName name => r.setName name
  | .setResource tag => r.setResource tag
  | .setStartTime start_time now => r.setStartTime start_time now
  | .setDuration duration now => r.setDuration duration now
  | .setSpanKind span_kind => r.setSpanKind span_kind
  | .setInstrumentationScope name version => r.setInstrumentationScope name version
  | .setTraceFlags => some r

/-- Calls one after the other. -/
def Recordable.run (r : Recordable) (calls : List Call) : Option Recordable :=
  calls.foldlM Call.apply r

/-! ### Attributes are inserted -/

/-- What the JSON of an array of values becomes.  Without a value it stays null. -/
def spanValue (vals : List Json) : Json := if vals = [] then .null else .array vals

/-- The JSON of an attribute. -/
def attributeJson : AttributeValue → Json
  | .bool v => .bool v
  | .int32 v => .int v.toInt64
  | .int64 v => .int v
  | .uint32 v => .uint v.toUInt64
  | .uint64 v => .uint v
  | .double bits => .float bits
  | .charPointer memory => .string (cString memory)
  | .string v => .string v.data
  | .spanUInt8 vs => spanValue (vs.map fun v => .uint v.toUInt64)
  | .spanBool vs => spanValue (vs.map .bool)
  | .spanInt32 vs => spanValue (vs.map fun v => .int v.toInt64)
  | .spanInt64 vs => spanValue (vs.map .int)
  | .spanUInt32 vs => spanValue (vs.map fun v => .uint v.toUInt64)
  | .spanUInt64 vs => spanValue (vs.map .uint)
  | .spanDouble bits => spanValue (bits.map .float)
  | .spanString vs => spanValue (vs.map fun v => .string v.viewed)

theorem elements?_spanValue (vals : List Json) : (spanValue vals).elements? = some vals := by
  rw [spanValue]
  split
  case isTrue h => rw [h, Json.elements?]
  case isFalse => rfl

theorem pushBack_spanValue (vals : List Json) (v : Json) :
    (spanValue vals).pushBack v = some (spanValue (vals ++ [v])) := by
  rw [Json.pushBack, elements?_spanValue, spanValue, if_neg (by simp)]
  rfl

theorem foldlM_update (m : OrderedMap Bytes Json) (key : Bytes) (done vals : List Json) :
    vals.foldlM (fun attrs val => attrs.update key (·.pushBack val))
        (Json.object (m.insert key (spanValue done)).entries)
      = some (.object (m.insert key (spanValue (done ++ vals))).entries) := by
  induction vals generalizing done with
  | nil => rw [List.append_nil]; rfl
  | cons val vals ih =>
    have hpush : (Json.object (m.insert key (spanValue done)).entries).update key (·.pushBack val)
        = some (.object (m.insert key (spanValue (done ++ [val]))).entries) := by
      rw [Json.update_eq rfl, OrderedMap.find?_insert_self, Option.getD_some, pushBack_spanValue,
        Option.map_some, OrderedMap.insert_insert]
    rw [List.foldlM_cons, hpush, List.append_cons done val vals]
    exact ih (done ++ [val])

variable {attrs : Json} {m : OrderedMap Bytes Json}

theorem pushAll_eq (h : attrs.members? = some m.entries) (key : Bytes) (vals : List Json) :
    pushAll attrs key vals = some (.object (m.insert key (spanValue vals)).entries) := by
  rw [pushAll, Json.set_eq h]
  exact foldlM_update m key [] vals

/-- Whatever the alternative, one value is inserted under the key. -/
theorem populateAttribute_eq (h : attrs.members? = some m.entries) (key : StringView)
    (value : AttributeValue) :
    populateAttribute attrs key value
      = some (.object (m.insert key.data (attributeJson value)).entries) := by
  cases value <;> first | exact Json.set_eq h _ _ | exact pushAll_eq h _ _

/-- The members that attributes make. -/
def populated (attributes : List (StringView × AttributeValue)) : OrderedMap Bytes Json :=
  attributes.foldl (fun m kv => m.insert kv.1.data (attributeJson kv.2)) ∅

theorem foldlM_populateAttribute (attributes : List (StringView × AttributeValue))
    (m : OrderedMap Bytes Json) :
    attributes.foldlM (fun attrs kv => populateAttribute attrs kv.1 kv.2) (.object m.entries)
      = some (.object
        (attributes.foldl (fun m kv => m.insert kv.1.data (attributeJson kv.2)) m).entries) := by
  induction attributes generalizing m with
  | nil => rfl
  | cons kv attributes ih =>
    rw [List.foldlM_cons, populateAttribute_eq rfl]
    exact ih (m.insert kv.1.data (attributeJson kv.2))

/-! ### What a recordable holds -/

/-- An event as it was added. -/
structure AddedEvent where
  name : Bytes
  time : Json
  attributes : OrderedMap Bytes Json

/-- The fields of an event, its name among them. -/
def AddedEvent.fields (e : AddedEvent) : OrderedMap Bytes Json :=
  e.attributes.insert FLUENT_FIELD_NAME (.string e.name)

def Call.event? : Call → Option AddedEvent
  | .addEvent name attributes now =>
    some ⟨name, get_msgpack_eventtimeext now 0 0, populated attributes⟩
  | _ => none

def Call.identity? : Call → Option Identity
  | .setIdentity identity => some identity
  | _ => none

/-- The events that calls add, in their order. -/
def eventsOf (calls : List Call) : List AddedEvent := calls.filterMap Call.event?

/-- The identity that calls leave: the last one set. -/
def identityOf (calls : List Call) : Option Identity := (calls.filterMap Call.identity?).getLast?

/-- The id of the span that calls describe, as JSON. -/
def spanIdOf (calls : List Call) : Option Json :=
  (identityOf calls).map fun identity => .string (toHex 16 identity.spanId.toNat)

def traceIdOf (calls : List Call) : Option Json :=
  (identityOf calls).map fun identity => .string (toHex 32 identity.traceId.toNat)

/-- What is known of a recordable after some calls. -/
structure Recordable.MadeBy (r : Recordable) (calls : List Call) : Prop where
  events : r.events_ =
    .array ((eventsOf calls).map fun e => .array [e.time, .object e.fields.entries])
  options : ∃ options : OrderedMap Bytes Json, r.options_.members? = some options.entries ∧
    options.find? FLUENT_FIELD_SPAN_ID = spanIdOf calls ∧
    options.find? FLUENT_FIELD_TRACE_ID = traceIdOf calls

theorem madeBy_init (include_trace_state : Bool) :
    (Recordable.init include_trace_state).MadeBy [] where
  events := rfl
  options := ⟨∅, rfl, rfl, rfl⟩

variable {r r' : Recordable} {calls : List Call} {call : Call}

/-- The fields that say nothing about which span it is. -/
def describingFields : List Bytes :=
  [FLUENT_FIELD_NAME, FLUENT_FIELD_SPAN_KIND, FLUENT_FIELD_PROPERTIES, FLUENT_FIELD_STARTTIME,
    FLUENT_FIELD_ENDTTIME, FLUENT_FIELD_DURATION, FLUENT_FIELD_SUCCESS,
    FLUENT_FIELD_STATUSMESSAGE, ascii "tags"]

theorem ids_not_describing :
    FLUENT_FIELD_SPAN_ID ∉ describingFields ∧ FLUENT_FIELD_TRACE_ID ∉ describingFields := by decide

/-- A call that adds no event and sets no identity, and assigns to describing fields,
adds nothing to what is known. -/
theorem madeBy_assign (h : r.MadeBy calls) (hevent : call.event? = none)
    (hidentity : call.identity? = none) {updates : List (Bytes × (Json → Option Json))}
    (hfields : ∀ k ∈ updates.map Prod.fst, k ∈ describingFields)
    (hassign : r.assign updates = some r') : r'.MadeBy (calls ++ [call]) := by
  obtain ⟨options, hoptions, hspanId, htraceId⟩ := h.options
  obtain ⟨options_, hupdate, hr'⟩ := Option.bind_eq_some_iff.mp hassign
  obtain ⟨options', hoptions', hothers⟩ := Json.updateAll_spec hoptions hupdate
  cases hr'
  have hevents : eventsOf (calls ++ [call]) = eventsOf calls := by
    simp [eventsOf, hevent]
  have hidentities : identityOf (calls ++ [call]) = identityOf calls := by
    simp [identityOf, hidentity]
  refine ⟨by rw [hevents]; exact h.events, options', hoptions', ?_, ?_⟩
  · rw [hothers _ fun hmem => ids_not_describing.1 (hfields _ hmem), hspanId, spanIdOf, spanIdOf,
      hidentities]
  · rw [hothers _ fun hmem => ids_not_describing.2 (hfields _ hmem), htraceId, traceIdOf, traceIdOf,
      hidentities]

/-- A call that touches neither the events nor the fields adds nothing either. -/
theorem madeBy_keep (h : r.MadeBy calls) (hevent : call.event? = none)
    (hidentity : call.identity? = none) (hevents : r'.events_ = r.events_)
    (hoptions : r'.options_ = r.options_) : r'.MadeBy (calls ++ [call]) := by
  have hsame : r'.MadeBy calls := ⟨hevents.trans h.events, hoptions ▸ h.options⟩
  have hassign : r'.assign [] = some r' := rfl
  exact madeBy_assign hsame hevent hidentity (by simp) hassign

theorem updateAll_becomes {j : Json} (h : j.members? = some m.entries) (k : Bytes) (v : Json)
    (updates : List (Bytes × (Json → Option Json))) :
    j.updateAll ((k, becomes v) :: updates)
      = (Json.object (m.insert k v).entries).updateAll updates := by
  rw [Json.updateAll, Json.update_eq h]
  rfl

theorem setIdentity_spec (h : r.MadeBy calls) {identity : Identity}
    (hset : r.setIdentity identity = some r') : r'.MadeBy (calls ++ [.setIdentity identity]) := by
  obtain ⟨options, hoptions, -, -⟩ := h.options
  obtain ⟨options_, hupdate, hr'⟩ := Option.bind_eq_some_iff.mp hset
  cases hr'
  rw [List.cons_append, List.cons_append, List.cons_append, updateAll_becomes hoptions,
    updateAll_becomes rfl, updateAll_becomes rfl, List.nil_append] at hupdate
  -- the trace state is the only field that may be written after the ids
  obtain ⟨options', hoptions', hothers⟩ := Json.updateAll_spec rfl hupdate
  have hevents : eventsOf (calls ++ [.setIdentity identity]) = eventsOf calls := by
    simp [eventsOf, Call.event?]
  have hidentity : identityOf (calls ++ [.setIdentity identity]) = some identity := by
    simp [identityOf, Call.identity?]
  have hspan : FLUENT_FIELD_SPAN_ID ≠ FLUENT_FIELD_TRACE_STATE := by decide
  have htrace : FLUENT_FIELD_TRACE_ID ≠ FLUENT_FIELD_TRACE_STATE := by decide
  refine ⟨by rw [hevents]; exact h.events, options', hoptions', ?_, ?_⟩
  · rw [hothers _ (by split <;> simp [hspan]), OrderedMap.find?_insert_of_ne _ (by decide),
      OrderedMap.find?_insert_of_ne _ (by decide), OrderedMap.find?_insert_self, spanIdOf,
        hidentity]
    rfl
  · rw [hothers _ (by split <;> simp [htrace]), OrderedMap.find?_insert_self, traceIdOf, hidentity]
    rfl

theorem addEvent_spec (h : r.MadeBy calls) {name : Bytes}
    {attributes : List (StringView × AttributeValue)} {now : Int64}
    (hadd : r.addEvent name attributes now = some r') :
    r'.MadeBy (calls ++ [.addEvent name attributes now]) := by
  have hattrs : attributes.foldlM (fun attrs kv => populateAttribute attrs kv.1 kv.2) (.object [])
      = some (.object (populated attributes).entries) := foldlM_populateAttribute attributes ∅
  have hname : (Json.object (populated attributes).entries).set FLUENT_FIELD_NAME (.string name)
      = some (.object ((populated attributes).insert FLUENT_FIELD_NAME (.string name)).entries) :=
    Json.set_eq rfl _ _
  simp only [Recordable.addEvent, hattrs, h.events, Option.bind_eq_bind, Option.bind_some, hname,
    Json.pushBack, Json.elements?, Option.some.injEq] at hadd
  subst hadd
  have hidentities : identityOf (calls ++ [.addEvent name attributes now]) = identityOf calls := by
    simp [identityOf, Call.identity?]
  refine ⟨?_, ?_⟩
  · simp [eventsOf, Call.event?, AddedEvent.fields]
  · rw [spanIdOf, traceIdOf, hidentities]
    exact h.options

/-- What a call adds to a recordable is known. -/
theorem apply_spec (h : r.MadeBy calls) (happly : call.apply r = some r') :
    r'.MadeBy (calls ++ [call]) := by
  cases call with
  | setIdentity identity => exact setIdentity_spec h happly
  | addEvent name attributes now => exact addEvent_spec h happly
  | addLink =>
    cases happly
    exact madeBy_keep h rfl rfl rfl rfl
  | setTraceFlags =>
    cases happly
    exact madeBy_keep h rfl rfl rfl rfl
  | setResource tag =>
    cases tag with
    | missing =>
      cases happly
      exact madeBy_keep h rfl rfl rfl rfl
    | string tag =>
      cases happly
      exact madeBy_keep h rfl rfl rfl rfl
    | other => cases happly
  | setAttribute key value =>
    refine madeBy_assign h rfl rfl ?_ happly
    split <;> simp [describingFields]
  | setStatus code description =>
    refine madeBy_assign h rfl rfl ?_ happly
    cases code <;> simp [describingFields]
  | setName name => exact madeBy_assign h rfl rfl (by simp [describingFields]) happly
  | setStartTime start_time now =>
    exact madeBy_assign h rfl rfl (by simp [describingFields]) happly
  | setDuration duration now => exact madeBy_assign h rfl rfl (by simp [describingFields]) happly
  | setSpanKind span_kind =>
    rw [Call.apply, Recordable.setSpanKind] at happly
    split at happly
    · exact madeBy_assign h rfl rfl (by simp [describingFields]) happly
    · cases happly
      exact madeBy_keep h rfl rfl rfl rfl
  | setInstrumentationScope name version =>
    exact madeBy_assign h rfl rfl (by simp [describingFields]) happly

/-- After any calls the events are those added and the ids those set last. -/
theorem madeBy_run {include_trace_state : Bool}
    (h : (Recordable.init include_trace_state).run calls = some r) : r.MadeBy calls := by
  induction calls using List.reverseRecOn generalizing r with
  | nil =>
    cases h
    exact madeBy_init include_trace_state
  | append_singleton calls call ih =>
    rw [Recordable.run, List.foldlM_append] at h
    obtain ⟨r₁, h₁, hcall⟩ := Option.bind_eq_some_iff.mp h
    have happly : call.apply r₁ = some r := by simpa using hcall
    exact apply_spec (ih h₁) happly

end Fluentd

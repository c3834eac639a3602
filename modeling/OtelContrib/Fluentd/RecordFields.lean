/-
The fields of what the fluentd exporters send (the setters of the two recordables).

Every setter assigns values to places: to fields of the record, or to members of one of its
objects.  A record is a set of registers, whatever the order of the calls is.

* `apply_registers`, `Logs.apply_registers` — one call makes its assignments, in its order;
* `span_export_of_last_values` — what is exported for a batch is determined by the last value
  given for each place and by the events that were added.
-/
import OtelContrib.Fluentd.Export
import OtelContrib.Fluentd.Views
import OtelContrib.Lib.JsonRegisters

open Json (Place Registers updates registers_updateAll update_emptied)
open LastWins (lastValue)
open Otel (StatusCode toHex)
open Otel.Common

namespace Fluentd

/-- The fields that are objects. -/
def objectFields : List Bytes := [FLUENT_FIELD_PROPERTIES, ascii "tags"]

/-- The place of an attribute. -/
def attributePlace (key : StringView) : Place := .member FLUENT_FIELD_PROPERTIES key.data

theorem attributePlace_fits (key : StringView) : (attributePlace key).Fits objectFields :=
  List.mem_cons_self

/-- An attribute is one assignment, whether or not the record has attributes before it. -/
theorem updateAll_attribute {j : Json} {m : OrderedMap Bytes Json} (h : j.members? = some m.entries)
    (key : StringView) (value : AttributeValue) :
    j.updateAll ((if j.contains FLUENT_FIELD_PROPERTIES then []
        else [(FLUENT_FIELD_PROPERTIES, becomes (.object []))]) ++
      [(FLUENT_FIELD_PROPERTIES, fun properties => populateAttribute properties key value)]) =
      j.updateAll (updates [(attributePlace key, attributeJson value)]) := by
  simp only [populateAttribute_eq_set]
  split
  next => rfl
  next hmissing => exact update_emptied h (Bool.eq_false_iff.mpr hmissing) key.data _ []

/-! ### Spans -/

/-- What a call assigns, in its order. -/
def Call.writes (include_trace_state : Bool) : Call → List (Place × Json)
  | .setIdentity identity =>
    [(.field FLUENT_FIELD_SPAN_ID, .string (toHex 16 identity.spanId.toNat)),
      (.field FLUENT_FIELD_SPAN_PARENTID, .string (toHex 16 identity.parentSpanId.toNat)),
      (.field FLUENT_FIELD_TRACE_ID, .string (toHex 32 identity.traceId.toNat))] ++
    if include_trace_state then [(.field FLUENT_FIELD_TRACE_STATE, .string identity.traceState)]
    else []
  | .setAttribute key value => [(attributePlace key, attributeJson value)]
  | .setStatus code description =>
    [(.field FLUENT_FIELD_SUCCESS, .bool (code ≠ .Error))] ++
    if code ≠ .Unset then
      [(.member (ascii "tags") (ascii "otel.status_code"), .int (statusCode code))] ++
      if code = .Error then [(.field FLUENT_FIELD_STATUSMESSAGE, .string description)] else []
    else []
  | .setName name => [(.field FLUENT_FIELD_NAME, .string name.data)]
  | .setStartTime start_time now =>
    [(.field FLUENT_FIELD_STARTTIME,
      get_msgpack_eventtimeext now (splitTime start_time).1 (splitTime start_time).2)]
  | .setDuration duration now =>
    [(.field FLUENT_FIELD_ENDTTIME, get_msgpack_eventtimeext now 0 0),
      (.field FLUENT_FIELD_DURATION, .int duration)]
  | .setSpanKind span_kind =>
    match kSpanKindMap.find? fun kind => kind.1 = span_kind with
    | some kind => [(.field FLUENT_FIELD_SPAN_KIND, .int kind.2)]
    | none => []
  | .setInstrumentationScope name version =>
    [(.member (ascii "tags") (ascii "otel.library.name"), .string name),
      (.member (ascii "tags") (ascii "otel.library.version"), .string version)]
  | .addEvent .. | .addLink | .setResource _ | .setTraceFlags => []

/-- What calls assign, one after the other. -/
def spanWrites (include_trace_state : Bool) (calls : List Call) : List (Place × Json) :=
  calls.flatMap (Call.writes include_trace_state)

theorem writes_fit (include_trace_state : Bool) (call : Call) :
    ∀ w ∈ call.writes include_trace_state, w.1.Fits objectFields := by
  have hfields : ∀ k ∈ [FLUENT_FIELD_SPAN_ID, FLUENT_FIELD_SPAN_PARENTID, FLUENT_FIELD_TRACE_ID,
      FLUENT_FIELD_TRACE_STATE, FLUENT_FIELD_SUCCESS, FLUENT_FIELD_STATUSMESSAGE,
      FLUENT_FIELD_NAME, FLUENT_FIELD_STARTTIME, FLUENT_FIELD_ENDTTIME, FLUENT_FIELD_DURATION,
      FLUENT_FIELD_SPAN_KIND], k ∉ objectFields := by decide
  simp only [List.forall_mem_cons, List.not_mem_nil, false_imp_iff, implies_true] at hfields
  have htags : ascii "tags" ∈ objectFields := List.mem_cons_of_mem _ List.mem_cons_self
  cases call with
  | setAttribute key value => simp [Call.writes, attributePlace_fits]
  | setIdentity identity =>
    cases include_trace_state <;> simp [Call.writes, Place.Fits, hfields]
  | setStatus code description => cases code <;> simp [Call.writes, Place.Fits, hfields, htags]
  | setSpanKind span_kind =>
    cases span_kind <;> simp [Call.writes, kSpanKindMap, Place.Fits, hfields]
  | _ => simp [Call.writes, Place.Fits, hfields, htags]

/-- A recordable whose fields hold what was assigned last, and whose events can be added to. -/
structure Recordable.Holds (r : Recordable) (include_trace_state : Bool)
    (writes : List (Place × Json)) : Prop where
  include_eq : r.include_trace_state_ = include_trace_state
  events : ∃ events, r.events_ = .array events
  options : Registers objectFields r.options_ writes

variable {r : Recordable} {include_trace_state : Bool} {writes : List (Place × Json)}

theorem Recordable.Holds.assign (h : r.Holds include_trace_state writes)
    {others : List (Place × Json)} (hfits : ∀ w ∈ others, w.1.Fits objectFields) :
    ∃ r', r.assign (updates others) = some r' ∧
      r'.Holds include_trace_state (writes ++ others) := by
  obtain ⟨j', hupdate, hregisters⟩ := registers_updateAll h.options hfits
  refine ⟨{ r with options_ := j' }, ?_, h.include_eq, h.events, hregisters⟩
  rw [Recordable.assign, hupdate]
  rfl

/-- Adding an event never fails, and changes nothing else. -/
theorem addEvent_eq {events : List Json} (h : r.events_ = .array events) (name : Bytes)
    (attributes : List (StringView × AttributeValue)) (now : Int64) :
    r.addEvent name attributes now = some { r with
      events_ := .array (events ++ [.array [get_msgpack_eventtimeext now 0 0,
        .object ((populated attributes).insert FLUENT_FIELD_NAME (.string name)).entries]]) } := by
  have hattrs : attributes.foldlM (fun attrs kv => populateAttribute attrs kv.1 kv.2) (.object [])
      = some (.object (populated attributes).entries) := foldlM_populateAttribute attributes ∅
  have hname : (Json.object (populated attributes).entries).set FLUENT_FIELD_NAME (.string name)
      = some (.object ((populated attributes).insert FLUENT_FIELD_NAME (.string name)).entries) :=
    Json.set_eq rfl _ _
  simp only [Recordable.addEvent, hattrs, h, Option.bind_eq_bind, Option.bind_some, hname,
    Json.pushBack, Json.elements?]

/-- The tag of a resource is a string, if there is one. -/
def Call.Sound (call : Call) : Prop := call ≠ .setResource .other

/-- One call makes its assignments, unless the tag of a resource is of another type. -/
theorem apply_registers (h : r.Holds include_trace_state writes) {call : Call}
    (hsound : call.Sound) :
    ∃ r', call.apply r = some r' ∧
      r'.Holds include_trace_state (writes ++ call.writes include_trace_state) := by
  have hassign := h.assign (writes_fit include_trace_state call)
  cases call with
  | setIdentity identity =>
    rw [← h.include_eq] at hassign ⊢
    cases hinclude : r.include_trace_state_ with
    | false =>
      rw [hinclude] at hassign
      simp only [Call.apply, Recordable.setIdentity, hinclude]
      exact hassign
    | true =>
      rw [hinclude] at hassign
      simp only [Call.apply, Recordable.setIdentity, hinclude]
      exact hassign
  | setAttribute key value =>
    obtain ⟨m, hm, -⟩ := h.options.holds
    rw [Call.apply, Recordable.setAttribute, Recordable.assign, updateAll_attribute hm]
    exact hassign
  | addEvent name attributes now =>
    obtain ⟨events, hevents⟩ := h.events
    exact ⟨_, addEvent_eq hevents name attributes now, h.include_eq, ⟨_, rfl⟩,
      (List.append_nil writes).symm ▸ h.options⟩
  | setStatus code description => cases code <;> exact hassign
  | setSpanKind span_kind => cases span_kind <;> exact hassign
  | setResource tag =>
    cases tag with
    | missing => exact ⟨r, rfl, h.include_eq, h.events, (List.append_nil writes).symm ▸ h.options⟩
    | string tag =>
      exact ⟨_, rfl, h.include_eq, h.events, (List.append_nil writes).symm ▸ h.options⟩
    | other => exact absurd rfl hsound
  | addLink => exact ⟨r, rfl, h.include_eq, h.events, (List.append_nil writes).symm ▸ h.options⟩
  | setTraceFlags =>
    exact ⟨r, rfl, h.include_eq, h.events, (List.append_nil writes).symm ▸ h.options⟩
  | setName name => exact hassign
  | setStartTime start_time now => exact hassign
  | setDuration duration now => exact hassign
  | setInstrumentationScope name version => exact hassign

theorem holds_init (include_trace_state : Bool) :
    (Recordable.init include_trace_state).Holds include_trace_state [] where
  include_eq := rfl
  events := ⟨[], rfl⟩
  options := Json.registers_null

/-- Calls make their assignments one after the other. -/
theorem run_registers (include_trace_state : Bool) {calls : List Call}
    (hsound : ∀ call ∈ calls, call.Sound) :
    ∃ r, (Recordable.init include_trace_state).run calls = some r ∧
      r.Holds include_trace_state (spanWrites include_trace_state calls) := by
  induction calls using List.reverseRecOn with
  | nil => exact ⟨_, rfl, holds_init include_trace_state⟩
  | append_singleton calls call ih =>
    obtain ⟨r₁, hrun, h₁⟩ := ih fun c hc => hsound c (List.mem_append_left _ hc)
    obtain ⟨r, happly, h⟩ :=
      apply_registers h₁ (hsound call (List.mem_append_right _ List.mem_cons_self))
    refine ⟨r, ?_, ?_⟩
    · rw [Recordable.run] at hrun
      rw [Recordable.run, List.foldlM_append, hrun, Option.bind_eq_bind, Option.bind_some,
        List.foldlM_cons, happly]
      rfl
    · rwa [spanWrites, List.flatMap_append, List.flatMap_singleton]

/-- A call that terminates the process ends the run. -/
theorem sound_of_run {r₀ : Recordable} {calls : List Call} (h : r₀.run calls = some r) :
    ∀ call ∈ calls, call.Sound := by
  induction calls generalizing r₀ with
  | nil => simp
  | cons call calls ih =>
    rw [Recordable.run, List.foldlM_cons] at h
    obtain ⟨r₁, happly, hrest⟩ := Option.bind_eq_some_iff.mp h
    refine List.forall_mem_cons.mpr ⟨?_, ih hrest⟩
    rintro rfl
    cases happly

/-- What a recordable holds after some calls. -/
theorem holds_run {calls : List Call}
    (h : (Recordable.init include_trace_state).run calls = some r) :
    r.Holds include_trace_state (spanWrites include_trace_state calls) := by
  obtain ⟨r', hrun, hholds⟩ := run_registers include_trace_state (sound_of_run h)
  obtain rfl := Option.some.inj (h.symm.trans hrun)
  exact hholds

/-! ### Batches of spans -/

/-- Calls that give the same last values and add the same events. -/
structure SameSpan (include_trace_state : Bool) (calls calls' : List Call) : Prop where
  fields : ∀ p, lastValue (spanWrites include_trace_state calls) p =
    lastValue (spanWrites include_trace_state calls') p
  events : eventsOf calls = eventsOf calls'

section

variable {calls calls' : List Call} {r' : Recordable}

theorem SameSpan.record_eq (h : SameSpan include_trace_state calls calls')
    (hr : (Recordable.init include_trace_state).run calls = some r)
    (hr' : (Recordable.init include_trace_state).run calls' = some r') : r.record = r'.record := by
  have hmembers := (holds_run hr).options.members_eq (holds_run hr').options h.fields
  rw [Recordable.record, Recordable.record, hmembers]

/-- The ids of a span are last values. -/
theorem SameSpan.spanEvents_eq (h : SameSpan include_trace_state calls calls')
    (hr : (Recordable.init include_trace_state).run calls = some r)
    (hr' : (Recordable.init include_trace_state).run calls' = some r') :
    spanEvents calls = spanEvents calls' := by
  obtain ⟨options, hoptions, hspanId, htraceId⟩ := (madeBy_run hr).options
  obtain ⟨options', hoptions', hspanId', htraceId'⟩ := (madeBy_run hr').options
  have hmembers := (holds_run hr).options.members_eq (holds_run hr').options h.fields
  obtain rfl : options = options' := by
    rw [hoptions, hoptions'] at hmembers
    exact OrderedMap.ext (Option.some.inj hmembers)
  simp only [spanEvents, AddedEvent.record, h.events, ← hspanId, ← htraceId, ← hspanId',
    ← htraceId']

end

/-- Two batches whose entries are null at the same places, and else the same span. -/
def SameBatch (e : FluentdExporter) (batch batch' : List (Option (List Call))) : Prop :=
  List.Forall₂ (Option.Rel (SameSpan e.include_trace_state_for_span)) batch batch'

theorem SameBatch.collected_eq {e : FluentdExporter} {batch batch' : List (Option (List Call))}
    (h : SameBatch e batch batch') {spans spans' : List (Option Recordable)}
    (hmade : MadeBatch e batch spans) (hmade' : MadeBatch e batch' spans') :
    spans.length = spans'.length ∧
      spans.filterMap (fun r => r.map Recordable.record) =
        spans'.filterMap (fun r => r.map Recordable.record) ∧
      batchEvents batch = batchEvents batch' := by
  rw [SameBatch] at h
  induction h generalizing spans spans' with
  | nil =>
    cases hmade
    cases hmade'
    exact ⟨rfl, rfl, rfl⟩
  | cons hentry _ ih =>
    obtain - | ⟨hr, hrest⟩ := hmade
    obtain - | ⟨hr', hrest'⟩ := hmade'
    obtain ⟨hlength, hrecords, hevents⟩ := ih hrest hrest'
    cases hentry with
    | none =>
      cases hr
      cases hr'
      exact ⟨congrArg (· + 1) hlength, hrecords, hevents⟩
    | some hsame =>
      cases hr with
      | some hrun =>
        cases hr' with
        | some hrun' =>
          refine ⟨congrArg (· + 1) hlength, ?_, ?_⟩
          · simp only [List.filterMap_cons, Option.map_some, hsame.record_eq hrun hrun', hrecords]
          · rw [batchEvents, batchEvents, List.flatMap_cons, List.flatMap_cons]
            rw [batchEvents, batchEvents] at hevents
            simp only [Option.map_some, hsame.spanEvents_eq hrun hrun', hevents]

/-! ### What is sent of a span -/

/-- Reading a field inserts null where nothing is. -/
theorem at?_read {j : Json} {m : OrderedMap Bytes Json} (h : j.members? = some m.entries)
    {k : Bytes} (hk : k ∉ objectFields) {p : Place} (hp : p.Fits objectFields) :
    (Json.object (m.alter k (·.getD .null)).entries).at? p =
      (j.at? p).or (if p = .field k then some .null else none) := by
  have hfind := fun k₁ => Json.member?_eq
    (j := .object (m.alter k (·.getD .null)).entries) rfl k₁
  cases p with
  | field k₁ =>
    rw [Json.at?, Json.at?, hfind, Json.member?_eq h]
    by_cases hkk : k = k₁
    · subst hkk
      rw [OrderedMap.find?_alter_self, if_pos rfl]
      cases m.find? k <;> rfl
    · rw [OrderedMap.find?_alter_of_ne _ hkk, if_neg fun heq => hkk (Place.field.inj heq).symm,
        Option.or_none]
  | member k₁ k' =>
    have hne : k ≠ k₁ := fun heq => hk (heq ▸ hp)
    rw [Json.at?, Json.at?, hfind, Json.member?_eq h, OrderedMap.find?_alter_of_ne _ hne,
      if_neg fun heq => Place.noConfusion heq, Option.or_none]

theorem endTime_not_object : FLUENT_FIELD_ENDTTIME ∉ objectFields := by decide

/-- **A span is sent with the last values it was given**, whatever the order of the calls: under
every field and for every attribute, in the record that `Export` makes of it, the last value that
a call assigned, and null for an end time that was not given. -/
theorem span_record_last_values (include_trace_state : Bool) {calls : List Call}
    (hsound : ∀ call ∈ calls, call.Sound) :
    ∃ r time fields, (Recordable.init include_trace_state).run calls = some r ∧
      r.record = .array [time, .object fields] ∧
      time = (lastValue (spanWrites include_trace_state calls) (.field FLUENT_FIELD_ENDTTIME)).getD
        .null ∧
      ∀ p, p.Fits objectFields → (Json.object fields).at? p =
        (lastValue (spanWrites include_trace_state calls) p).or
          (if p = .field FLUENT_FIELD_ENDTTIME then some .null else none) := by
  obtain ⟨r, hrun, hholds⟩ := run_registers include_trace_state hsound
  obtain ⟨m, hm, -⟩ := hholds.options.holds
  have htime := hholds.options.at_eq (p := .field FLUENT_FIELD_ENDTTIME) endTime_not_object
  rw [Json.at?, Json.member?_eq hm] at htime
  refine ⟨r, _, (m.alter FLUENT_FIELD_ENDTTIME (·.getD .null)).entries, hrun, ?_, rfl,
    fun p hp => ?_⟩
  · rw [Recordable.record, hm, ← htime]
    rfl
  · rw [← hholds.options.at_eq hp]
    exact at?_read hm endTime_not_object hp

theorem span_record_last_values_sample :
    ∃ r time fields, (Recordable.init true).run
        [.setName ⟨ascii "a", [0]⟩, .setDuration 5 3, .setName ⟨ascii "b", [0]⟩] = some r ∧
      r.record = .array [time, .object fields] ∧
      (Json.object fields).at? (.field FLUENT_FIELD_NAME) = some (.string (ascii "b")) := by
  have hsound : ∀ call ∈ [Call.setName ⟨ascii "a", [0]⟩, .setDuration 5 3,
      .setName ⟨ascii "b", [0]⟩], call.Sound := by simp [Call.Sound]
  obtain ⟨r, time, fields, hrun, hrecord, -, hfields⟩ := span_record_last_values true hsound
  refine ⟨r, time, fields, hrun, hrecord, ?_⟩
  exact hfields (.field FLUENT_FIELD_NAME) (show FLUENT_FIELD_NAME ∉ objectFields by decide)

/-- **What is sent for a batch depends on the last values and on the events alone.**  Two batches
of spans, made by different calls or by the same calls in another order, are exported alike
where their spans were given the same last values and the same events. -/
theorem span_export_of_last_values {σ : Type} (to_msgpack : Json → Bytes)
    (Send : Bytes → σ → Bool × σ) {e : FluentdExporter} {batch batch' : List (Option (List Call))}
    {spans spans' : List (Option Recordable)} (hmade : MadeBatch e batch spans)
    (hmade' : MadeBatch e batch' spans') (hsame : SameBatch e batch batch') (s : σ) :
    e.exportSpans to_msgpack Send spans s = e.exportSpans to_msgpack Send spans' s := by
  obtain ⟨hlength, hrecords, hevents⟩ := hsame.collected_eq hmade hmade'
  cases hshutdown : e.is_shutdown_ with
  | true =>
    simp only [FluentdExporter.exportSpans, hshutdown, if_true]
  | false =>
    by_cases hempty : spans.length = 0
    · have hempty' : spans'.length = 0 := hlength ▸ hempty
      have hrunning : ¬e.is_shutdown_ = true := by rw [hshutdown]; decide
      rw [FluentdExporter.exportSpans, FluentdExporter.exportSpans, if_neg hrunning,
        if_neg hrunning, if_pos hempty, if_pos hempty']
    · have hne : spans ≠ [] := fun hnil => hempty (hnil ▸ rfl)
      have hne' : spans' ≠ [] := fun hnil => hempty (hlength.trans (hnil ▸ rfl))
      rw [exportSpans_eq to_msgpack Send hshutdown hmade hne,
        exportSpans_eq to_msgpack Send hshutdown hmade' hne']
      have hmessage : eventMessage batch = eventMessage batch' := by
        funext name
        rw [eventMessage, eventMessage, hevents]
      rw [FluentdExporter.messages, FluentdExporter.messages, spanMessage, spanMessage, hrecords,
        hmessage, hevents]

/-- A span whose name was set before its duration, or after it. -/
def sampleCalls (nameFirst : Bool) : List Call :=
  if nameFirst then [.setName ⟨ascii "a", [0]⟩, .setDuration 5 3]
  else [.setDuration 5 3, .setName ⟨ascii "a", [0]⟩]

theorem span_export_of_last_values_sample :
    ∃ spans spans', MadeBatch sampleExporter [some (sampleCalls true)] spans ∧
      MadeBatch sampleExporter [some (sampleCalls false)] spans' ∧
      sampleExporter.exportSpans (fun _ => [0x92]) sendOver spans ([], Transport.init) =
        sampleExporter.exportSpans (fun _ => [0x92]) sendOver spans' ([], Transport.init) := by
  have hmade (nameFirst : Bool) : ∃ spans,
      MadeBatch sampleExporter [some (sampleCalls nameFirst)] spans := by
    have hsound : ∀ call ∈ sampleCalls nameFirst, call.Sound := by
      cases nameFirst <;> simp [sampleCalls, Call.Sound]
    obtain ⟨r, hrun, -⟩ := run_registers false hsound
    exact ⟨[some r], .cons (.some hrun) .nil⟩
  obtain ⟨spans, hspans⟩ := hmade true
  obtain ⟨spans', hspans'⟩ := hmade false
  refine ⟨spans, spans', hspans, hspans', span_export_of_last_values _ _ hspans hspans' ?_ _⟩
  refine .cons (.some ⟨fun p => LastWins.lastValue_perm ?_ ?_ p, rfl⟩) .nil
  · exact (List.perm_append_comm : ([_] ++ [_, _]).Perm ([_, _] ++ [_]))
  · decide +kernel

end Fluentd

/-
The fluentd trace exporter (`FluentdExporter::Export`).

A batch becomes one message with its spans and, if events are to be converted, one message
for each name of its events.  `Send` and the encoding of messages are parameters; `Send` of
`Transport.lean` is one that they stand for.

* `export_partition` — the messages partition the batch: spans in order, and under every
  event name the events of that name, in order and with the ids of their span.  They are
  sent one after the other until one fails.
-/
import OtelContrib.Fluentd.Recordable
import OtelContrib.Fluentd.Transport
import Mathlib.Data.List.Forall2

open Otel (toHex)

namespace Fluentd

inductive ExportResult
  | kSuccess | kFailure
  deriving DecidableEq

/-- What the exporter is configured with, and whether it was shut down. -/
structure FluentdExporter where
  convert_event_to_trace : Bool
  include_trace_state_for_span : Bool
  is_shutdown_ : Bool

/-- The records of the spans and the events by name, while the batch is read. -/
structure Collected where
  spanevents : Json
  events : Json

/-- What an export did: its result, the messages that were handed to `Send` with what it
said, and the state of the connection. -/
structure Outcome (σ : Type) where
  result : ExportResult
  sent : List (Json × Bool)
  state : σ

def FluentdExporter.makeRecordable (e : FluentdExporter) : Recordable :=
  Recordable.init e.include_trace_state_for_span

/-- The body of the loop over the events of a span.  The span is local to its pass, so that
nothing reads the event that was stamped in place; it is the copy under its name that stays. -/
def collectEvent (read : Json × Json) (v : Json) : Option (Json × Json) := do
  let (span, events) := read
  let event ← v.element? 1
  let (name, event) ← event.index FLUENT_FIELD_NAME
  let name ← name.string?
  let (spanId, span) ← span.indexIn (ascii "options") FLUENT_FIELD_SPAN_ID
  let event ← event.set FLUENT_FIELD_SPAN_ID spanId
  let (traceId, span) ← span.indexIn (ascii "options") FLUENT_FIELD_TRACE_ID
  let event ← event.set FLUENT_FIELD_TRACE_ID traceId
  let v ← v.setElement 1 event
  let events ← if events.contains name then some events else events.set name (.array [])
  let events ← events.update name (·.pushBack v)
  some (span, events)

/-- The body of the loop over the batch, for an entry that is not null. -/
def collectSpan (c : Collected) (r : Recordable) : Option Collected := do
  let span ← r.span
  let (time, span) ← span.indexIn (ascii "options") FLUENT_FIELD_ENDTTIME
  let record ← (Json.array []).pushBack time
  let (options, span) ← span.index (ascii "options")
  let fields ← (← options.members?).foldlM (fun fields kv => fields.set kv.1 kv.2) .null
  let record ← record.pushBack fields
  let spanevents ← c.spanevents.pushBack record
  let (added, span) ← span.index (ascii "events")
  let (_, events) ← (← added.elements?).foldlM collectEvent (span, c.events)
  some ⟨spanevents, events⟩

/-- The loop over the batch. -/
def collect (spans : List (Option Recordable)) : Option Collected :=
  spans.foldlM (fun c recordable =>
    match recordable with
    | some r => collectSpan c r
    | none => some c) ⟨.array [], .null⟩

/-- `[tag, records]`. -/
def message (tag : Bytes) (records : Json) : Option Json := do
  (← (Json.array []).pushBack (.string tag)).pushBack records

section

variable {σ : Type} (to_msgpack : Json → Bytes) (Send : Bytes → σ → Bool × σ)

/-- The loop over the events, which returns at the first message that cannot be sent. -/
def sendEvents (sent : List (Json × Bool)) : List (Bytes × Json) → σ → Option (Outcome σ)
  | [], s => some ⟨.kSuccess, sent, s⟩
  | kv :: events, s => do
    let otherevents ← (← kv.2.elements?).foldlM Json.pushBack (.array [])
    let obj ← message kv.1 otherevents
    let (result, s) := Send (to_msgpack obj) s
    if result then sendEvents (sent ++ [(obj, true)]) events s
    else some ⟨.kFailure, sent ++ [(obj, false)], s⟩

/-- `FluentdExporter::Export`, `none` where the process would be terminated. -/
def FluentdExporter.exportSpans (e : FluentdExporter) (spans : List (Option Recordable)) (s : σ) :
    Option (Outcome σ) :=
  if e.is_shutdown_ then some ⟨.kFailure, [], s⟩
  else if spans.length = 0 then some ⟨.kFailure, [], s⟩
  else do
    let c ← collect spans
    let obj ← message FLUENT_VALUE_SPAN c.spanevents
    let (result, s) := Send (to_msgpack obj) s
    if result then
      if e.convert_event_to_trace then
        sendEvents to_msgpack Send [(obj, true)] (← c.events.members?) s
      else some ⟨.kSuccess, [(obj, true)], s⟩
    else some ⟨.kFailure, [(obj, false)], s⟩

end

/-! ### What a batch is -/

/-- The record of an event with the ids of the span it was added to. -/
def AddedEvent.record (calls : List Call) (e : AddedEvent) : Json :=
  .array [e.time, .object
    ((e.fields.insert FLUENT_FIELD_SPAN_ID ((spanIdOf calls).getD .null)).insert
      FLUENT_FIELD_TRACE_ID ((traceIdOf calls).getD .null)).entries]

/-- The events of a span with their names, as they were added. -/
def spanEvents (calls : List Call) : List (Bytes × Json) :=
  (eventsOf calls).map fun e => (e.name, e.record calls)

/-- The events of a batch: span after span, those of a span as they were added. -/
def batchEvents (batch : List (Option (List Call))) : List (Bytes × Json) :=
  batch.flatMap fun calls => (calls.map spanEvents).getD []

/-- The record of a span: when it ended, and all its fields. -/
def Recordable.record (r : Recordable) : Json :=
  let options := r.options_.members?.getD []
  .array [(OrderedMap.lookup FLUENT_FIELD_ENDTTIME options).getD .null,
    .object (OrderedMap.alterEntries FLUENT_FIELD_ENDTTIME (·.getD .null) options)]

/-- The message with the spans of a batch. -/
def spanMessage (spans : List (Option Recordable)) : Json :=
  .array [.string FLUENT_VALUE_SPAN, .array (spans.filterMap fun r => r.map Recordable.record)]

/-- The message with the events of a batch that have a name. -/
def eventMessage (batch : List (Option (List Call))) (name : Bytes) : Json :=
  .array [.string name, .array (OrderedMap.under name (batchEvents batch))]

/-- Messages that are sent one after the other, until one fails. -/
def deliver {σ : Type} (to_msgpack : Json → Bytes) (Send : Bytes → σ → Bool × σ)
    (sent : List (Json × Bool)) : List Json → σ → Outcome σ
  | [], s => ⟨.kSuccess, sent, s⟩
  | obj :: messages, s =>
    match Send (to_msgpack obj) s with
    | (true, s) => deliver to_msgpack Send (sent ++ [(obj, true)]) messages s
    | (false, s) => ⟨.kFailure, sent ++ [(obj, false)], s⟩

/-- A batch of recordables is made by the calls on each; a null entry has none. -/
def MadeBatch (e : FluentdExporter) (batch : List (Option (List Call)))
    (spans : List (Option Recordable)) : Prop :=
  List.Forall₂ (Option.Rel fun calls r => e.makeRecordable.run calls = some r) batch spans

/-! ### Reading a span -/

/-- A span as it is read: its fields, and its events. -/
def SpanHolds (span : Json) (options : OrderedMap Bytes Json) (added : Json) : Prop :=
  ∃ m : OrderedMap Bytes Json, span.members? = some m.entries ∧
    ((m.find? (ascii "options")).getD .null).members? = some options.entries ∧
    m.find? (ascii "events") = some added

/-- What is known of the events that were collected. -/
def Grouped (events : Json) (items : List (Bytes × Json)) : Prop :=
  events.members? = some ((OrderedMap.groups items).mapValues Json.array).entries

variable {span added events : Json} {options : OrderedMap Bytes Json} {calls : List Call}
  {r : Recordable} {items : List (Bytes × Json)}

theorem options_ne_events : ascii "options" ≠ ascii "events" := by decide

theorem span_holds (h : r.options_.members? = some options.entries) :
    ∃ span, r.span = some span ∧ SpanHolds span options r.events_ := by
  let tagged := (∅ : OrderedMap Bytes Json).insert (ascii "tag") (.string r.tag_)
  let filled := tagged.insert (ascii "events") r.events_
  have htag : Json.null.set (ascii "tag") (.string r.tag_) = some (.object tagged.entries) :=
    Json.set_eq (m := ∅) rfl _ _
  have hevents : (Json.object tagged.entries).set (ascii "events") r.events_
      = some (.object filled.entries) := Json.set_eq rfl _ _
  have hadded : filled.find? (ascii "events") = some r.events_ := OrderedMap.find?_insert_self ..
  have hnone : filled.find? (ascii "options") = none := by
    have htagged : ascii "tag" ≠ ascii "options" := by decide
    rw [OrderedMap.find?_insert_of_ne _ options_ne_events.symm,
      OrderedMap.find?_insert_of_ne _ htagged]
    rfl
  rw [Recordable.span, htag]
  simp only [Option.bind_eq_bind, Option.bind_some, hevents]
  by_cases hsize : r.options_.size = 0
  · -- a span without fields has no options, which reads as none of them
    obtain rfl := Json.entries_eq_nil h hsize
    exact ⟨_, if_pos hsize, filled, rfl, by rw [hnone]; rfl, hadded⟩
  · rw [if_neg hsize, Json.set_eq rfl]
    refine ⟨_, rfl, _, rfl, ?_, ?_⟩
    · rw [OrderedMap.find?_insert_self, Option.getD_some, h]
    · rw [OrderedMap.find?_insert_of_ne _ options_ne_events, hadded]

theorem indexIn_holds (h : SpanHolds span options added) (k : Bytes) :
    ∃ span', span.indexIn (ascii "options") k = some ((options.find? k).getD .null, span') ∧
      SpanHolds span' (options.alter k (·.getD .null)) added := by
  obtain ⟨m, hmembers, hoptions, hadded⟩ := h
  refine ⟨_, Json.indexIn_eq hmembers hoptions k, _, rfl, ?_, ?_⟩
  · rw [OrderedMap.find?_insert_self]
    rfl
  · rw [OrderedMap.find?_insert_of_ne _ options_ne_events, hadded]

/-- Reading a member does not change what any member is read as. -/
theorem getD_find?_alter (m : OrderedMap Bytes Json) (k k' : Bytes) :
    ((m.alter k (·.getD .null)).find? k').getD .null = (m.find? k').getD .null := by
  by_cases h : k = k'
  · subst h
    rw [OrderedMap.find?_alter_self, Option.getD_some]
  · rw [OrderedMap.find?_alter_of_ne m h]

theorem index_holds (h : SpanHolds span options added) :
    (∃ v span', span.index (ascii "options") = some (v, span') ∧
        v.members? = some options.entries ∧ SpanHolds span' options added) ∧
      ∃ span', span.index (ascii "events") = some (added, span') ∧
        SpanHolds span' options added := by
  obtain ⟨m, hmembers, hoptions, hadded⟩ := h
  have hread := Json.index_eq hmembers (ascii "events")
  rw [hadded, Option.getD_some] at hread
  refine ⟨⟨_, _, Json.index_eq hmembers _, hoptions, _, rfl, ?_, ?_⟩, _, hread, _, rfl, ?_, ?_⟩
  · rw [getD_find?_alter, hoptions]
  · rw [OrderedMap.find?_alter_of_ne _ options_ne_events, hadded]
  · rw [getD_find?_alter, hoptions]
  · rw [OrderedMap.find?_alter_self, hadded, Option.getD_some]

/-- Reading the name of an event does not change the event. -/
theorem index_name (e : AddedEvent) :
    (Json.object e.fields.entries).index FLUENT_FIELD_NAME
      = some (.string e.name, .object e.fields.entries) := by
  have hname : e.fields.find? FLUENT_FIELD_NAME = some (.string e.name) :=
    OrderedMap.find?_insert_self ..
  have hsame : e.fields.alter FLUENT_FIELD_NAME (·.getD .null) = e.fields := by
    rw [OrderedMap.alter_eq_insert, hname]
    exact OrderedMap.insert_insert ..
  rw [Json.index_eq rfl, hname, hsame, Option.getD_some]

/-- What is pushed under a name joins the group of that name. -/
theorem grouped_push (h : Grouped events items) (name : Bytes) (v : Json) :
    ∃ events₁ events', (if events.contains name then some events
        else events.set name (.array [])) = some events₁ ∧
      events₁.update name (·.pushBack v) = some events' ∧
        Grouped events' (items ++ [(name, v)]) := by
  -- the group of the name, with the value at its end
  have hgrouped : Grouped (.object (((OrderedMap.groups items).mapValues Json.array).insert name
      (.array (((OrderedMap.groups items).find? name).getD [] ++ [v]))).entries)
      (items ++ [(name, v)]) := by
    rw [Grouped, OrderedMap.groups_concat, OrderedMap.alter_eq_insert, OrderedMap.mapValues_insert]
    rfl
  have hfind := OrderedMap.find?_mapValues Json.array (OrderedMap.groups items) name
  rw [Json.contains_eq h, hfind]
  cases hgroup : (OrderedMap.groups items).find? name with
  | none =>
    rw [hgroup] at hgrouped
    -- the name is new: its group starts empty, and is found again
    refine ⟨_, _, Json.set_eq h _ _, ?_, hgrouped⟩
    rw [Json.update_eq rfl, OrderedMap.find?_insert_self]
    exact congrArg (fun m => some (Json.object (OrderedMap.entries m)))
      (OrderedMap.insert_insert ..)
  | some vs =>
    rw [hgroup] at hgrouped
    refine ⟨_, _, rfl, ?_, hgrouped⟩
    rw [Json.update_eq h, hfind, hgroup]
    rfl

/-- Where the ids of the span are read. -/
structure Ids (options : OrderedMap Bytes Json) (calls : List Call) : Prop where
  spanId : (options.find? FLUENT_FIELD_SPAN_ID).getD .null = (spanIdOf calls).getD .null
  traceId : (options.find? FLUENT_FIELD_TRACE_ID).getD .null = (traceIdOf calls).getD .null

theorem Ids.alter (h : Ids options calls) (k : Bytes) :
    Ids (options.alter k (·.getD .null)) calls :=
  ⟨(getD_find?_alter ..).trans h.spanId, (getD_find?_alter ..).trans h.traceId⟩

/-- An event that is collected carries the ids of its span. -/
theorem collectEvent_spec (hspan : SpanHolds span options added) (hids : Ids options calls)
    (hevents : Grouped events items) (e : AddedEvent) :
    ∃ span' events' options', collectEvent (span, events)
        (.array [e.time, .object e.fields.entries]) = some (span', events') ∧
      SpanHolds span' options' added ∧ Ids options' calls ∧
      Grouped events' (items ++ [(e.name, e.record calls)]) := by
  obtain ⟨span₁, hspan₁, hholds₁⟩ := indexIn_holds hspan FLUENT_FIELD_SPAN_ID
  obtain ⟨span₂, hspan₂, hholds₂⟩ := indexIn_holds hholds₁ FLUENT_FIELD_TRACE_ID
  obtain ⟨events₁, events', hevents₁, hevents', hgrouped⟩ :=
    grouped_push hevents e.name (e.record calls)
  refine ⟨span₂, events', _, ?_, hholds₂, (hids.alter _).alter _, hgrouped⟩
  have hstamp : ∀ (fields : OrderedMap Bytes Json) (k : Bytes) (v : Json),
      (Json.object fields.entries).set k v = some (.object (fields.insert k v).entries) :=
    fun _ _ _ => Json.set_eq rfl _ _
  -- what is stamped on the event is what was read of the span
  rw [hids.spanId] at hspan₁
  rw [(hids.alter _).traceId] at hspan₂
  simp only [collectEvent, Json.element?, Json.elements?, Option.bind_eq_bind, Option.bind_some,
    List.getElem?_cons_succ, List.getElem?_cons_zero, index_name, Json.string?, hspan₁, hspan₂,
    hstamp, Json.setElement, List.set_cons_succ, List.set_cons_zero]
  by_cases hcontains : events.contains e.name
  · rw [if_pos hcontains] at hevents₁ ⊢
    cases hevents₁
    exact Option.bind_eq_some_iff.mpr ⟨events', hevents', rfl⟩
  · rw [if_neg hcontains] at hevents₁ ⊢
    refine Option.bind_eq_some_iff.mpr ⟨events₁, hevents₁, ?_⟩
    exact Option.bind_eq_some_iff.mpr ⟨events', hevents', rfl⟩

/-- So do all events of a span. -/
theorem collectEvents_spec (hspan : SpanHolds span options added) (hids : Ids options calls)
    (hevents : Grouped events items) (es : List AddedEvent) :
    ∃ span' events', (es.map fun e => Json.array [e.time, .object e.fields.entries]).foldlM
        collectEvent (span, events) = some (span', events') ∧
      Grouped events' (items ++ es.map fun e => (e.name, e.record calls)) := by
  induction es generalizing span events items options with
  | nil => exact ⟨span, events, rfl, by rwa [List.map_nil, List.append_nil]⟩
  | cons e es ih =>
    obtain ⟨span₁, events₁, options₁, hcollect, hspan₁, hids₁, hgrouped₁⟩ :=
      collectEvent_spec hspan hids hevents e
    obtain ⟨span', events', hrest, hgrouped'⟩ := ih hspan₁ hids₁ hgrouped₁
    refine ⟨span', events', ?_, ?_⟩
    · rw [List.map_cons, List.foldlM_cons, hcollect]
      exact hrest
    · rwa [List.map_cons, List.append_cons]

/-! ### Reading the batch -/

/-- What was collected of the part of a batch that was read. -/
structure CollectedOf (c : Collected) (batch : List (Option (List Call)))
    (spans : List (Option Recordable)) : Prop where
  spanevents : c.spanevents = .array (spans.filterMap fun r => r.map Recordable.record)
  events : Grouped c.events (batchEvents batch)

/-- One pass of the loop adds the record of the span and its events. -/
theorem collectSpan_spec {c : Collected} {records : List Json}
    (hspanevents : c.spanevents = .array records) (hevents : Grouped c.events items)
    (hmade : r.MadeBy calls) :
    ∃ c', collectSpan c r = some c' ∧ c'.spanevents = .array (records ++ [r.record]) ∧
      Grouped c'.events (items ++ spanEvents calls) := by
  obtain ⟨options, hoptions, hspanId, htraceId⟩ := hmade.options
  obtain ⟨span, hspan, hholds⟩ := span_holds hoptions
  have hids : Ids options calls := ⟨by rw [hspanId], by rw [htraceId]⟩
  obtain ⟨span₁, hspan₁, hholds₁⟩ := indexIn_holds hholds FLUENT_FIELD_ENDTTIME
  obtain ⟨⟨fields, span₂, hspan₂, hfields, hholds₂⟩, -⟩ := index_holds hholds₁
  obtain ⟨-, span₃, hspan₃, hholds₃⟩ := index_holds hholds₂
  obtain ⟨span', events', hcollect, hgrouped⟩ :=
    collectEvents_spec hholds₃ (hids.alter _) hevents (eventsOf calls)
  -- the fields are copied one by one, and there is one: the time was read
  have hne : (options.alter FLUENT_FIELD_ENDTTIME (·.getD .null)).entries ≠ [] := by
    intro hnil
    have hfind := OrderedMap.find?_alter_self options FLUENT_FIELD_ENDTTIME (·.getD Json.null)
    rw [OrderedMap.find?, hnil] at hfind
    cases hfind
  have hrecord : r.record = .array [(options.find? FLUENT_FIELD_ENDTTIME).getD .null,
      .object (options.alter FLUENT_FIELD_ENDTTIME (·.getD .null)).entries] := by
    rw [Recordable.record, hoptions]
    rfl
  refine ⟨⟨.array (records ++ [r.record]), events'⟩, ?_, rfl, hgrouped⟩
  simp only [collectSpan, hspan, hspan₁, hspan₂, hspan₃, hfields, hmade.events, hspanevents,
    hrecord, Option.bind_eq_bind, Option.bind_some, Json.pushBack, Json.elements?,
    Json.foldlM_set_entries hne, hcollect, List.nil_append, List.cons_append]

/-- The loop over the batch finds all its spans and all its events. -/
theorem collect_spec {e : FluentdExporter} {batch : List (Option (List Call))}
    {spans : List (Option Recordable)} (hmade : MadeBatch e batch spans) :
    ∃ c, collect spans = some c ∧ CollectedOf c batch spans := by
  -- the records and events of what was read before come first
  have hfrom : ∀ (c : Collected) (records : List Json) (items : List (Bytes × Json)),
      c.spanevents = .array records → Grouped c.events items →
      ∃ c', spans.foldlM (fun c recordable =>
          match recordable with
          | some r => collectSpan c r
          | none => some c) c = some c' ∧
        c'.spanevents = .array (records ++ spans.filterMap fun r => r.map Recordable.record) ∧
        Grouped c'.events (items ++ batchEvents batch) := by
    induction hmade with
    | nil =>
      intro c records items hrecords hitems
      refine ⟨c, rfl, ?_, ?_⟩
      · rwa [List.filterMap_nil, List.append_nil]
      · rwa [batchEvents, List.flatMap_nil, List.append_nil]
    | cons hentry _ ih =>
      intro c records items hrecords hitems
      cases hentry with
      | none =>
        obtain ⟨c', hcollect, hrecords', hitems'⟩ := ih c records items hrecords hitems
        exact ⟨c', hcollect, hrecords', hitems'⟩
      | some hrun =>
        obtain ⟨c₁, hc₁, hrecords₁, hitems₁⟩ :=
          collectSpan_spec hrecords hitems (madeBy_run hrun)
        obtain ⟨c', hcollect, hrecords', hitems'⟩ := ih c₁ _ _ hrecords₁ hitems₁
        refine ⟨c', ?_, ?_, ?_⟩
        · rw [List.foldlM_cons]
          exact Option.bind_eq_some_iff.mpr ⟨c₁, hc₁, hcollect⟩
        · rw [hrecords', List.append_assoc]
          rfl
        · rw [List.append_assoc] at hitems'
          exact hitems'
  obtain ⟨c, hcollect, hrecords, hitems⟩ := hfrom ⟨.array [], .null⟩ [] [] rfl rfl
  exact ⟨c, hcollect, hrecords, hitems⟩

/-! ### Sending -/

section

variable {σ : Type} (to_msgpack : Json → Bytes) (Send : Bytes → σ → Bool × σ)

/-- The loop over groups delivers one message for each. -/
theorem sendEvents_eq (groups : List (Bytes × List Json)) (sent : List (Json × Bool)) (s : σ) :
    sendEvents to_msgpack Send sent (groups.map (Prod.map id Json.array)) s
      = some (deliver to_msgpack Send sent
        (groups.map fun group => .array [.string group.1, .array group.2]) s) := by
  induction groups generalizing sent s with
  | nil => rfl
  | cons group groups ih =>
    have hmessage : message group.1 (.array group.2)
        = some (.array [.string group.1, .array group.2]) := rfl
    rw [List.map_cons, List.map_cons, sendEvents, deliver]
    simp only [Prod.map_fst, Prod.map_snd, id_eq, Json.elements?, Option.bind_eq_bind,
      Option.bind_some, Json.foldlM_pushBack, List.nil_append, hmessage]
    rcases Send (to_msgpack (.array [.string group.1, .array group.2])) s with ⟨_ | _, s'⟩
    · rfl
    · exact ih _ s'

/-- Either all messages are sent, or those up to the first that fails. -/
theorem deliver_spec (messages : List Json) (sent : List (Json × Bool)) (s : σ) :
    (∃ s', deliver to_msgpack Send sent messages s
        = ⟨.kSuccess, sent ++ messages.map (·, true), s'⟩) ∨
      ∃ before failed after s', messages = before ++ failed :: after ∧
        deliver to_msgpack Send sent messages s
          = ⟨.kFailure, sent ++ (before.map (·, true) ++ [(failed, false)]), s'⟩ := by
  induction messages generalizing sent s with
  | nil => exact .inl ⟨s, by rw [deliver, List.map_nil, List.append_nil]⟩
  | cons obj messages ih =>
    rw [deliver]
    rcases Send (to_msgpack obj) s with ⟨_ | _, s'⟩
    · exact .inr ⟨[], obj, messages, s', rfl, rfl⟩
    · rcases ih (sent ++ [(obj, true)]) s' with
        ⟨s'', hall⟩ | ⟨before, failed, after, s'', rfl, hsome⟩
      · refine .inl ⟨s'', hall.trans ?_⟩
        rw [List.map_cons, List.append_assoc, List.singleton_append]
      · refine .inr ⟨obj :: before, failed, after, s'', rfl, hsome.trans ?_⟩
        rw [List.map_cons, List.append_assoc, List.singleton_append, List.cons_append]

end

/-! ### Exports -/

/-- The names of the events of a batch: in order, each once, and no event without one. -/
structure EventNames (batch : List (Option (List Call))) (names : List Bytes) : Prop where
  sorted : names.Pairwise (· < ·)
  occurring : ∀ name, name ∈ names ↔ ∃ event ∈ batchEvents batch, event.1 = name
  complete : (names.flatMap fun name =>
    (batchEvents batch).filter fun event => event.1 = name).Perm (batchEvents batch)

theorem eventNames_keys (batch : List (Option (List Call))) :
    EventNames batch (OrderedMap.groups (batchEvents batch)).keys where
  sorted := List.pairwise_map.mpr (OrderedMap.groups (batchEvents batch)).sorted
  occurring _ := OrderedMap.mem_keys_groups
  complete := OrderedMap.flatMap_groups_perm (batchEvents batch)

/-- All messages were sent, or those up to the first that failed. -/
def Outcome.Delivers {σ : Type} (o : Outcome σ) (messages : List Json) : Prop :=
  o.result = .kSuccess ∧ o.sent = messages.map (·, true) ∨
    o.result = .kFailure ∧ ∃ before failed after, messages = before ++ failed :: after ∧
      o.sent = before.map (·, true) ++ [(failed, false)]

theorem deliver_delivers {σ : Type} (to_msgpack : Json → Bytes) (Send : Bytes → σ → Bool × σ)
    (messages : List Json) (s : σ) :
    (deliver to_msgpack Send [] messages s).Delivers messages := by
  rcases deliver_spec to_msgpack Send messages [] s with
    ⟨s', hall⟩ | ⟨before, failed, after, s', hmessages, hsome⟩
  · rw [hall]
    exact .inl ⟨rfl, rfl⟩
  · rw [hsome]
    exact .inr ⟨rfl, before, failed, after, hmessages, rfl⟩

/-- The messages of an export, of which `deliver` sends what it can. -/
def FluentdExporter.messages (e : FluentdExporter) (batch : List (Option (List Call)))
    (spans : List (Option Recordable)) : List Json :=
  spanMessage spans ::
    if e.convert_event_to_trace then
      (OrderedMap.groups (batchEvents batch)).keys.map (eventMessage batch)
    else []

theorem exportSpans_eq {σ : Type} (to_msgpack : Json → Bytes) (Send : Bytes → σ → Bool × σ)
    {e : FluentdExporter} (hrunning : e.is_shutdown_ = false) {batch : List (Option (List Call))}
    {spans : List (Option Recordable)} (hmade : MadeBatch e batch spans) (hne : spans ≠ [])
    (s : σ) :
    e.exportSpans to_msgpack Send spans s =
      some (deliver to_msgpack Send [] (e.messages batch spans) s) := by
  obtain ⟨c, hcollect, hspanevents, hevents⟩ := collect_spec hmade
  have hspans : message FLUENT_VALUE_SPAN c.spanevents = some (spanMessage spans) := by
    rw [hspanevents]
    rfl
  have hgroups : c.events.members? =
      some ((OrderedMap.groups (batchEvents batch)).entries.map (Prod.map id Json.array)) := hevents
  have hmessages : (OrderedMap.groups (batchEvents batch)).entries.map
        (fun group => Json.array [.string group.1, .array group.2])
      = (OrderedMap.groups (batchEvents batch)).keys.map (eventMessage batch) := by
    rw [OrderedMap.entries_groups, List.map_map]
    rfl
  have hlength : spans.length ≠ 0 := fun hzero => hne (List.length_eq_zero_iff.mp hzero)
  rw [FluentdExporter.exportSpans, if_neg (by simp [hrunning]), if_neg hlength,
    FluentdExporter.messages, deliver]
  simp only [hcollect, hspans, hgroups, Option.bind_eq_bind, Option.bind_some]
  -- whether the spans were sent decides if any event is
  rcases Send (to_msgpack (spanMessage spans)) s with ⟨_ | _, s'⟩
  · rfl
  · cases e.convert_event_to_trace with
    | false => rfl
    | true =>
      refine (sendEvents_eq ..).trans ?_
      rw [hmessages]
      rfl

/-- An export delivers the spans of the batch in one message, and then, if they are to be
converted, the events of the batch in one message for each name. -/
theorem export_partition {σ : Type} (to_msgpack : Json → Bytes) (Send : Bytes → σ → Bool × σ)
    {e : FluentdExporter} (hrunning : e.is_shutdown_ = false) {batch : List (Option (List Call))}
    {spans : List (Option Recordable)} (hmade : MadeBatch e batch spans) (hne : spans ≠ [])
    (s : σ) :
    ∃ names, EventNames batch names ∧
      ∃ messages, messages = spanMessage spans ::
          (if e.convert_event_to_trace then names.map (eventMessage batch) else []) ∧
        ∃ o, e.exportSpans to_msgpack Send spans s = some o ∧
          o = deliver to_msgpack Send [] messages s ∧ o.Delivers messages :=
  ⟨_, eventNames_keys batch, _, rfl, _, exportSpans_eq to_msgpack Send hrunning hmade hne s, rfl,
    deliver_delivers ..⟩

/-- `Send` over a connection, with what the system will answer to each call of it. -/
def sendOver (packet : Bytes) (s : List (List Answers) × Transport) :
    Bool × (List (List Answers) × Transport) :=
  match s.1 with
  | [] => (false, s)
  | answers :: rest =>
    let (delivered, _, t) := send .trace packet answers s.2
    (delivered, rest, t)

/-- Two spans that add events of one name, and an entry that is null. -/
def sampleBatch : List (Option (List Call)) :=
  [some [.addEvent (ascii "b") [] 1, .addEvent (ascii "a") [] 2,
      .setIdentity ⟨7, 8, 0, []⟩, .setDuration 5 3],
    none,
    some [.addEvent (ascii "a") [(⟨ascii "name", [0]⟩, .bool true)] 4]]

def sampleExporter : FluentdExporter := ⟨true, false, false⟩

def sampleSpans : List (Option Recordable) :=
  sampleBatch.map fun calls => calls.bind sampleExporter.makeRecordable.run

/-- Every packet is one byte long here, and the third cannot be sent. -/
theorem export_partition_sample :
    ∃ names, EventNames sampleBatch names ∧
      ∃ messages, messages = spanMessage sampleSpans ::
          (if sampleExporter.convert_event_to_trace then names.map (eventMessage sampleBatch)
            else []) ∧
        ∃ o, sampleExporter.exportSpans (fun _ => [0x92]) sendOver sampleSpans
            ([[⟨0, true, true, [some 1]⟩], [⟨0, true, true, [some 1]⟩], []], Transport.init)
              = some o ∧
          o = deliver (fun _ => [0x92]) sendOver [] messages
            ([[⟨0, true, true, [some 1]⟩], [⟨0, true, true, [some 1]⟩], []], Transport.init) ∧
          o.Delivers messages :=
  export_partition _ _ rfl (.cons (.some rfl) (.cons .none (.cons (.some rfl) .nil)))
    (List.cons_ne_nil _ _) _

end Fluentd

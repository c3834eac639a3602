/-
The fluentd log exporter (`logs::FluentdExporter::Export`).

A batch becomes one message with a record for each log, which has the time the log was
observed at and all its fields.

* `Logs.run_registers` — a log never terminates the process, and holds what was assigned last;
* `Logs.log_export` — the message of a batch has the logs in their order, each with the last
  values it was given, and `Export` succeeds exactly when it could be sent.
-/
import OtelContrib.Fluentd.RecordFields

open Json (Place Registers updates registers_updateAll)
open LastWins (lastValue)
open Otel (toHex)
open Otel.Common

namespace Fluentd.Logs

def FLUENT_FIELD_OBSERVEDTIMESTAMP : Bytes := ascii "ObservedTimestamp"
def FLUENT_VALUE_LOG : Bytes := ascii "Log"

/-- Whether the exporter was shut down. -/
structure FluentdExporter where
  is_shutdown_ : Bool

/-- The body of the loop over the batch, for an entry that is not null.  The log is local to
its pass, so that nothing reads the time that is inserted where there was none but the loop
over its fields. -/
def collectLog (logevents : Json) (r : Recordable) : Option Json := do
  let (time, log) ← r.json_.index FLUENT_FIELD_OBSERVEDTIMESTAMP
  let record ← (Json.array []).pushBack time
  let fields ← (← log.members?).foldlM (fun fields kv => fields.set kv.1 kv.2) .null
  let record ← record.pushBack fields
  logevents.pushBack record

/-- The loop over the batch. -/
def collect (logs : List (Option Recordable)) : Option Json :=
  logs.foldlM (fun logevents recordable =>
    match recordable with
    | some r => collectLog logevents r
    | none => some logevents) (.array [])

/-- `logs::FluentdExporter::Export`, `none` where the process would be terminated. -/
def FluentdExporter.exportLogs {σ : Type} (to_msgpack : Json → Bytes) (Send : Bytes → σ → Bool × σ)
    (e : FluentdExporter) (logs : List (Option Recordable)) (s : σ) : Option (Outcome σ) :=
  if e.is_shutdown_ then some ⟨.kFailure, [], s⟩
  else if logs.length = 0 then some ⟨.kFailure, [], s⟩
  else do
    let obj ← message FLUENT_VALUE_LOG (← collect logs)
    let (result, s) := Send (to_msgpack obj) s
    if result then some ⟨.kSuccess, [(obj, true)], s⟩
    else some ⟨.kFailure, [(obj, false)], s⟩

/-! ### What a log holds -/

/-- What a call assigns, in its order. -/
def Call.writes : Call → List (Place × Json)
  | .setSeverity severity text =>
    [(.field (ascii "severityText"), .string text),
      (.field (ascii "severityNumber"), .uint severity.toUInt64)]
  | .setName name => [(.field (ascii "name"), .string name.data)]
  | .setBody message =>
    [(.field (ascii "body"), .string (cString (attributeValueToString message)))]
  | .setEventId id name =>
    [(.field (ascii "EventId"), .int id)] ++
    if name.viewed ≠ [] then [(.field (ascii "name"), .string name.data)] else []
  | .setTraceId trace_id => [(.field FLUENT_FIELD_TRACE_ID, .string (toHex 32 trace_id.toNat))]
  | .setSpanId span_id => [(.field FLUENT_FIELD_SPAN_ID, .string (toHex 16 span_id.toNat))]
  | .setAttribute key value => [(attributePlace key, attributeJson value)]
  | .setTimestamp timestamp now =>
    [(.field (ascii "Timestamp"), getMsgPackEventTimeFromSystemTimestamp now timestamp)]
  | .setObservedTimestamp timestamp now =>
    [(.field FLUENT_FIELD_OBSERVEDTIMESTAMP,
      getMsgPackEventTimeFromSystemTimestamp now timestamp)]
  | .setResource | .setTraceFlags | .setInstrumentationScope => []

/-- What calls assign, one after the other. -/
def logWrites (calls : List Call) : List (Place × Json) := calls.flatMap Call.writes

theorem writes_fit (call : Call) : ∀ w ∈ call.writes, w.1.Fits objectFields := by
  have hfields : ∀ k ∈ [ascii "severityText", ascii "severityNumber", ascii "name", ascii "body",
      ascii "EventId", FLUENT_FIELD_TRACE_ID, FLUENT_FIELD_SPAN_ID, ascii "Timestamp",
      FLUENT_FIELD_OBSERVEDTIMESTAMP], k ∉ objectFields := by decide
  simp only [List.forall_mem_cons, List.not_mem_nil, false_imp_iff, implies_true] at hfields
  cases call with
  | setAttribute key value => simp [Call.writes, attributePlace_fits]
  | setEventId id name =>
    by_cases hname : name.viewed = [] <;> simp [Call.writes, Place.Fits, hfields, hname]
  | _ => simp [Call.writes, Place.Fits, hfields]

variable {r : Recordable} {writes : List (Place × Json)}

theorem assign_registers (h : Registers objectFields r.json_ writes) {others : List (Place × Json)}
    (hfits : ∀ w ∈ others, w.1.Fits objectFields) :
    ∃ r', r.assign (updates others) = some r' ∧
      Registers objectFields r'.json_ (writes ++ others) := by
  obtain ⟨j', hupdate, hregisters⟩ := registers_updateAll h hfits
  exact ⟨⟨j'⟩, congrArg (Option.map Recordable.mk) hupdate, hregisters⟩

/-- One call makes its assignments. -/
theorem apply_registers (h : Registers objectFields r.json_ writes) (call : Call) :
    ∃ r', call.apply r = some r' ∧ Registers objectFields r'.json_ (writes ++ call.writes) := by
  have hassign := assign_registers h (writes_fit call)
  cases call with
  | setAttribute key value =>
    obtain ⟨m, hm, -⟩ := h.holds
    rw [Call.apply, Recordable.setAttribute, Recordable.assign, updateAll_attribute hm]
    exact hassign
  | setEventId id name =>
    rw [Call.apply, Recordable.setEventId]
    rw [Call.writes] at hassign ⊢
    by_cases hname : name.viewed ≠ []
    · simp only [if_pos hname] at hassign ⊢
      exact hassign
    · simp only [if_neg hname] at hassign ⊢
      exact hassign
  | _ => exact hassign

/-- No call terminates the process, and a log holds what was assigned last. -/
theorem run_registers (calls : List Call) :
    ∃ r, Recordable.init.run calls = some r ∧ Registers objectFields r.json_ (logWrites calls) := by
  induction calls using List.reverseRecOn with
  | nil => exact ⟨_, rfl, Json.registers_null⟩
  | append_singleton calls call ih =>
    obtain ⟨r₁, hrun, h₁⟩ := ih
    obtain ⟨r, happly, h⟩ := apply_registers h₁ call
    refine ⟨r, ?_, ?_⟩
    · rw [Recordable.run] at hrun
      rw [Recordable.run, List.foldlM_append, hrun, Option.bind_eq_bind, Option.bind_some,
        List.foldlM_cons, happly]
      rfl
    · rwa [logWrites, List.flatMap_append, List.flatMap_singleton]

/-! ### What is sent -/

/-- A record as it is sent: the time of observation and the fields, with the last values that
the calls gave them; null is the time that was not given. -/
def RecordOf (calls : List Call) (record : Json) : Prop :=
  ∃ time fields, record = .array [time, .object fields] ∧
    time = (lastValue (logWrites calls) (.field FLUENT_FIELD_OBSERVEDTIMESTAMP)).getD .null ∧
    ∀ p, p.Fits objectFields → (Json.object fields).at? p =
      (lastValue (logWrites calls) p).or
        (if p = .field FLUENT_FIELD_OBSERVEDTIMESTAMP then some .null else none)

/-- A batch of recordables is made by the calls on each; a null entry has none. -/
def MadeBatch (batch : List (Option (List Call))) (logs : List (Option Recordable)) : Prop :=
  List.Forall₂ (Option.Rel fun calls r => Recordable.init.run calls = some r) batch logs

theorem observed_not_object : FLUENT_FIELD_OBSERVEDTIMESTAMP ∉ objectFields := by decide

/-- One pass of the loop adds the record of a log. -/
theorem collectLog_spec (records : List Json) {calls : List Call}
    (hrun : Recordable.init.run calls = some r) :
    ∃ record, collectLog (.array records) r = some (.array (records ++ [record])) ∧
      RecordOf calls record := by
  obtain ⟨r', hrun', h⟩ := run_registers calls
  obtain rfl := Option.some.inj (hrun.symm.trans hrun')
  obtain ⟨m, hm, -⟩ := h.holds
  have htime := h.at_eq (p := .field FLUENT_FIELD_OBSERVEDTIMESTAMP) observed_not_object
  rw [Json.at?, Json.member?_eq hm] at htime
  -- the fields are copied one by one, and there is one: the time was read
  have hne : (m.alter FLUENT_FIELD_OBSERVEDTIMESTAMP (·.getD .null)).entries ≠ [] := by
    intro hnil
    have hfind := OrderedMap.find?_alter_self m FLUENT_FIELD_OBSERVEDTIMESTAMP (·.getD Json.null)
    rw [OrderedMap.find?, hnil] at hfind
    cases hfind
  refine ⟨.array [(m.find? FLUENT_FIELD_OBSERVEDTIMESTAMP).getD .null,
      .object (m.alter FLUENT_FIELD_OBSERVEDTIMESTAMP (·.getD .null)).entries], ?_, _, _, rfl, ?_,
    fun p hp => ?_⟩
  · simp only [collectLog, Json.index_eq hm, Option.bind_eq_bind, Option.bind_some, Json.pushBack,
      Json.elements?, Json.members?, Json.foldlM_set_entries hne, List.nil_append,
      List.cons_append]
  · rw [htime]
  · rw [← h.at_eq hp]
    exact at?_read hm observed_not_object hp

theorem collect_spec {batch : List (Option (List Call))} {logs : List (Option Recordable)}
    (hmade : MadeBatch batch logs) :
    ∃ records, collect logs = some (.array records) ∧
      List.Forall₂ RecordOf (batch.filterMap id) records := by
  have hfrom : ∀ done, ∃ records, logs.foldlM (fun logevents recordable =>
        match recordable with
        | some r => collectLog logevents r
        | none => some logevents) (Json.array done) = some (.array (done ++ records)) ∧
      List.Forall₂ RecordOf (batch.filterMap id) records := by
    induction hmade with
    | nil => exact fun done => ⟨[], by rw [List.append_nil]; rfl, .nil⟩
    | cons hentry _ ih =>
      intro done
      cases hentry with
      | none => exact ih done
      | some hrun =>
        obtain ⟨record, hcollect, hrecord⟩ := collectLog_spec done hrun
        obtain ⟨records, hrest, hrecords⟩ := ih (done ++ [record])
        refine ⟨record :: records, ?_, .cons hrecord hrecords⟩
        rw [List.foldlM_cons]
        refine Option.bind_eq_some_iff.mpr ⟨_, hcollect, ?_⟩
        rw [hrest, List.append_assoc, List.singleton_append]
  exact hfrom []

/-- **A batch of logs is exported as one message** with the record of every log, in the order of
the batch and with the last values it was given, whatever calls made the logs.  `Export`
succeeds exactly when the message could be sent; it sends nothing, and fails, when there is no
log and when the exporter was shut down. -/
theorem log_export {σ : Type} (to_msgpack : Json → Bytes) (Send : Bytes → σ → Bool × σ)
    (e : FluentdExporter) {batch : List (Option (List Call))} {logs : List (Option Recordable)}
    (hmade : MadeBatch batch logs) (s : σ) :
    ∃ records, List.Forall₂ RecordOf (batch.filterMap id) records ∧
      ∃ o, e.exportLogs to_msgpack Send logs s = some o ∧
        if e.is_shutdown_ ∨ batch = [] then o = ⟨.kFailure, [], s⟩
        else
          let obj := Json.array [.string FLUENT_VALUE_LOG, .array records]
          let sent := Send (to_msgpack obj) s
          o = ⟨if sent.1 then .kSuccess else .kFailure, [(obj, sent.1)], sent.2⟩ := by
  obtain ⟨records, hcollect, hrecords⟩ := collect_spec hmade
  have hempty : logs.length = 0 ↔ batch = [] := by
    rw [← hmade.length_eq, List.length_eq_zero_iff]
  refine ⟨records, hrecords, ?_⟩
  by_cases hnothing : e.is_shutdown_ ∨ batch = []
  · refine ⟨_, ?_, by rw [if_pos hnothing]⟩
    rcases hnothing with hshutdown | hnil
    · rw [FluentdExporter.exportLogs, if_pos hshutdown]
    · rw [FluentdExporter.exportLogs, if_pos (hempty.mpr hnil), ite_self]
  · rw [not_or] at hnothing
    refine ⟨_, ?_, by rw [if_neg (not_or.mpr hnothing)]⟩
    have hmessage : message FLUENT_VALUE_LOG (.array records) =
        some (.array [.string FLUENT_VALUE_LOG, .array records]) := rfl
    rw [FluentdExporter.exportLogs, if_neg hnothing.1, if_neg fun h => hnothing.2 (hempty.mp h),
      hcollect]
    simp only [Option.bind_eq_bind, Option.bind_some, hmessage]
    rcases Send (to_msgpack (.array [.string FLUENT_VALUE_LOG, .array records])) s with ⟨_ | _, s'⟩
    · rfl
    · rfl

/-- A log with two bodies, and an entry that is null. -/
theorem log_export_sample :
    ∃ logs records, MadeBatch [some [.setBody (.bool true), .setBody (.bool false)], none] logs ∧
      List.Forall₂ RecordOf [[.setBody (.bool true), .setBody (.bool false)]] records ∧
      ∃ o, (FluentdExporter.mk false).exportLogs (fun _ => [0x92]) sendOver logs
          ([[⟨0, true, true, [some 1]⟩]], Transport.init) = some o ∧
        o.sent = [(.array [.string FLUENT_VALUE_LOG, .array records], true)] := by
  obtain ⟨r, hrun, -⟩ := run_registers [.setBody (.bool true), .setBody (.bool false)]
  have hmade : MadeBatch [some [.setBody (.bool true), .setBody (.bool false)], none]
      [some r, none] := .cons (.some hrun) (.cons .none .nil)
  obtain ⟨records, hrecords, o, hexport, ho⟩ := log_export (fun _ => [0x92]) sendOver ⟨false⟩ hmade
    ([[⟨0, true, true, [some 1]⟩]], Transport.init)
  rw [if_neg (by simp)] at ho
  exact ⟨_, records, hmade, hrecords, o, hexport, congrArg Outcome.sent ho⟩

end Fluentd.Logs

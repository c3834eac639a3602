/-
The Prometheus push exporter and its collector (`push_exporter.cc`).

`TranslateToPrometheus` is a parameter: it may give any families for the data.  The
gateway collects once for each push and sends what it collected; the HTTP status of a
push belongs to the call.

* `Exported` — what one call owes to its data;
* `nothing_lost_iff` — a run loses nothing exactly when the data of every push that is
  answered by a success translate to no more families than the collection may hold.
-/
import OtelContrib.Lib.Runs
import Mathlib.Data.Int.Notation

namespace Prometheus

inductive ExportResult
  | kSuccess | kFailure | kFailureFull | kFailureInvalidArgument
  deriving DecidableEq

/-- The data of one export, as far as the exporter reads them itself. -/
structure ResourceMetrics (Scope : Type) where
  scope_metric_data_ : List Scope

/-! ### The collector -/

structure PrometheusPushCollector (MetricFamily : Type) where
  metrics_to_collect_ : List MetricFamily
  max_collection_size_ : ℕ

namespace PrometheusPushCollector

variable {MetricFamily : Type}

/-- The collector the constructor makes. -/
def new (max_collection_size : ℕ) : PrometheusPushCollector MetricFamily :=
  ⟨[], max_collection_size⟩

/-- `Collect`, which swaps the collection out. -/
def collect (c : PrometheusPushCollector MetricFamily) :
    List MetricFamily × PrometheusPushCollector MetricFamily :=
  (c.metrics_to_collect_, { c with metrics_to_collect_ := [] })

/-- The loop of `AddMetricData` over what was translated. -/
def addMetricData (c : PrometheusPushCollector MetricFamily) :
    List MetricFamily → PrometheusPushCollector MetricFamily
  | [] => c
  | item :: items =>
    if c.metrics_to_collect_.length + 1 ≤ c.max_collection_size_ then
      addMetricData { c with metrics_to_collect_ := c.metrics_to_collect_ ++ [item] } items
    else addMetricData c items

/-- `GetCollection().clear()`. -/
def clear (c : PrometheusPushCollector MetricFamily) : PrometheusPushCollector MetricFamily :=
  { c with metrics_to_collect_ := [] }

/-- The families that still fit are kept, from the first on, and the others are dropped. -/
theorem addMetricData_eq (c : PrometheusPushCollector MetricFamily) (items : List MetricFamily) :
    c.addMetricData items = { c with
      metrics_to_collect_ := c.metrics_to_collect_ ++
        items.take (c.max_collection_size_ - c.metrics_to_collect_.length) } := by
  induction items generalizing c with
  | nil => simp [addMetricData]
  | cons item items ih =>
    rw [addMetricData]
    split
    next hfits =>
      obtain ⟨room, hroom⟩ :
          ∃ room, c.max_collection_size_ - c.metrics_to_collect_.length = room + 1 :=
        ⟨c.max_collection_size_ - c.metrics_to_collect_.length - 1, by omega⟩
      have hrest : c.max_collection_size_ - (c.metrics_to_collect_.length + 1) = room := by omega
      rw [ih, hroom, List.take_succ_cons]
      simp [hrest]
    next hfull =>
      have hroom : c.max_collection_size_ - c.metrics_to_collect_.length = 0 := by omega
      rw [ih, hroom]
      simp

end PrometheusPushCollector

/-! ### The exporter -/

structure PrometheusPushExporter (MetricFamily : Type) where
  is_shutdown_ : Bool
  /-- Whether there is a gateway, which only a test constructor leaves out. -/
  gateway_ : Bool
  collector_ : PrometheusPushCollector MetricFamily

/-- A call of `Export`, with the status the gateway's server answers a push with, or of
`Shutdown`. -/
inductive Call (Scope : Type)
  | exportData (data : ResourceMetrics Scope) (http_code : ℤ)
  | shutdown

/-- What a call returns, and what its push collected, if it pushed. -/
structure Outcome (MetricFamily : Type) where
  result : Option ExportResult
  collected : Option (List MetricFamily)

section

variable {Scope MetricFamily : Type}
variable (TranslateToPrometheus : ResourceMetrics Scope → List MetricFamily)

/-- `PrometheusPushExporter(options)`. -/
def PrometheusPushExporter.new (max_collection_size : ℕ) : PrometheusPushExporter MetricFamily :=
  ⟨false, true, .new max_collection_size⟩

/-- `Gateway::Push` with the exporter's collector registered. -/
def PrometheusPushExporter.push (e : PrometheusPushExporter MetricFamily) :
    List MetricFamily × PrometheusPushExporter MetricFamily :=
  (e.collector_.collect.1, { e with collector_ := e.collector_.collect.2 })

/-- `Export`. -/
def PrometheusPushExporter.exportData (e : PrometheusPushExporter MetricFamily)
    (data : ResourceMetrics Scope) (http_code : ℤ) :
    Outcome MetricFamily × PrometheusPushExporter MetricFamily :=
  if e.is_shutdown_ then (⟨some .kFailure, none⟩, e)
  else if e.collector_.metrics_to_collect_.length + data.scope_metric_data_.length >
      e.collector_.max_collection_size_ then (⟨some .kFailureFull, none⟩, e)
  else if data.scope_metric_data_ = [] then (⟨some .kFailureInvalidArgument, none⟩, e)
  else
    let e := { e with collector_ := e.collector_.addMetricData (TranslateToPrometheus data) }
    if e.gateway_ then
      let (collected, e) := e.push
      if 200 ≤ http_code ∧ http_code < 300 then (⟨some .kSuccess, some collected⟩, e)
      else (⟨some .kFailure, some collected⟩, e)
    else (⟨some .kSuccess, none⟩, e)

/-- `Shutdown`. -/
def PrometheusPushExporter.shutdown (e : PrometheusPushExporter MetricFamily) :
    PrometheusPushExporter MetricFamily :=
  { e with is_shutdown_ := true, collector_ := e.collector_.clear }

def step (e : PrometheusPushExporter MetricFamily) :
    Call Scope → Option (Outcome MetricFamily × PrometheusPushExporter MetricFamily)
  | .exportData data http_code => some (e.exportData TranslateToPrometheus data http_code)
  | .shutdown => some (⟨none, none⟩, e.shutdown)

/-! ### What one call does -/

/-- Between two calls of an exporter made by the public constructor nothing is held. -/
structure Drained (max_collection_size : ℕ) (e : PrometheusPushExporter MetricFamily) : Prop where
  gateway : e.gateway_ = true
  empty : e.collector_.metrics_to_collect_ = []
  size : e.collector_.max_collection_size_ = max_collection_size

variable {max_collection_size : ℕ} {e e' : PrometheusPushExporter MetricFamily}

theorem drained_new : Drained max_collection_size
    (PrometheusPushExporter.new max_collection_size : PrometheusPushExporter MetricFamily) :=
  ⟨rfl, rfl, rfl⟩

/-- What is added to an empty collection is collected by the push. -/
theorem Drained.push_added (I : Drained max_collection_size e) (items : List MetricFamily) :
    PrometheusPushExporter.push { e with collector_ := e.collector_.addMetricData items } =
      (items.take max_collection_size, e) := by
  obtain ⟨is_shutdown_, gateway_, held, size⟩ := e
  obtain ⟨-, hempty, hsize⟩ := I
  dsimp only at hempty hsize
  subst hempty hsize
  rw [PrometheusPushExporter.push, PrometheusPushCollector.addMetricData_eq]
  simp [PrometheusPushCollector.collect]

variable {TranslateToPrometheus}

/-- What an export does with nothing held: it is refused, or it pushes as many of the
families as the collection may hold. -/
theorem exportData_spec {data : ResourceMetrics Scope} {http_code : ℤ} {b : Outcome MetricFamily}
    (I : Drained max_collection_size e)
    (h : e.exportData TranslateToPrometheus data http_code = (b, e')) :
    e' = e ∧ b.collected = none ∧ b.result ≠ some .kSuccess ∧
        (e.is_shutdown_ ∨ data.scope_metric_data_.length > max_collection_size ∨
          data.scope_metric_data_ = []) ∨
      e' = e ∧ b.collected = some ((TranslateToPrometheus data).take max_collection_size) ∧
        ¬e.is_shutdown_ ∧ data.scope_metric_data_.length ≤ max_collection_size ∧
        data.scope_metric_data_ ≠ [] ∧
        b.result = some (if 200 ≤ http_code ∧ http_code < 300 then .kSuccess else .kFailure) := by
  rw [PrometheusPushExporter.exportData, I.empty, I.size, List.length_nil, Nat.zero_add] at h
  by_cases hshutdown : e.is_shutdown_
  · rw [if_pos hshutdown] at h
    cases h
    exact .inl ⟨rfl, rfl, by simp, .inl hshutdown⟩
  rw [if_neg hshutdown] at h
  by_cases hfull : data.scope_metric_data_.length > max_collection_size
  · rw [if_pos hfull] at h
    cases h
    exact .inl ⟨rfl, rfl, by simp, .inr (.inl hfull)⟩
  rw [if_neg hfull] at h
  by_cases hempty : data.scope_metric_data_ = []
  · rw [if_pos hempty] at h
    cases h
    exact .inl ⟨rfl, rfl, by simp, .inr (.inr hempty)⟩
  rw [if_neg hempty] at h
  simp only [if_pos I.gateway, I.push_added] at h
  refine .inr ?_
  split at h
  next hcode =>
    cases h
    exact ⟨rfl, rfl, hshutdown, Nat.not_lt.mp hfull, hempty, by rw [if_pos hcode]⟩
  next hcode =>
    cases h
    exact ⟨rfl, rfl, hshutdown, Nat.not_lt.mp hfull, hempty, by rw [if_neg hcode]⟩

/-! ### Whole runs -/

/-- What a call owes: the collection stays within its limit, also while it is pushed; after
a success all families of the data were in what was pushed, and nothing else; and a
refused call leaves the collection alone. -/
structure Exported (TranslateToPrometheus : ResourceMetrics Scope → List MetricFamily)
    (max_collection_size : ℕ)
    (t : Transition (PrometheusPushExporter MetricFamily) (Call Scope) (Outcome MetricFamily)) :
    Prop where
  held : t.after.collector_.metrics_to_collect_.length ≤ max_collection_size
  pushed : ∀ collected, t.outcome.collected = some collected →
    collected.length ≤ max_collection_size
  complete : ∀ data http_code, t.call = .exportData data http_code →
    t.outcome.result = some .kSuccess → t.outcome.collected = some (TranslateToPrometheus data)
  refused : t.outcome.result = some .kFailureFull ∨
    t.outcome.result = some .kFailureInvalidArgument →
    t.after.collector_ = t.before.collector_

/-- The families that the data of a call translate to. -/
def Call.families (TranslateToPrometheus : ResourceMetrics Scope → List MetricFamily) :
    Call Scope → List MetricFamily
  | .exportData data _ => TranslateToPrometheus data
  | .shutdown => []

/-- All that the pushes of a run collected, in order. -/
def collectedBy (ts : List (Transition (PrometheusPushExporter MetricFamily) (Call Scope)
    (Outcome MetricFamily))) : List MetricFamily :=
  ts.flatMap fun t => t.outcome.collected.getD []

/-- All that the data of a run's exports translate to, in order. -/
def translatedFor (TranslateToPrometheus : ResourceMetrics Scope → List MetricFamily)
    (ts : List (Transition (PrometheusPushExporter MetricFamily) (Call Scope)
      (Outcome MetricFamily))) : List MetricFamily :=
  ts.flatMap fun t => t.call.families TranslateToPrometheus

/-- Data that are pushed, with a success for an answer, fit into the collection. -/
def FamiliesFit (TranslateToPrometheus : ResourceMetrics Scope → List MetricFamily)
    (max_collection_size : ℕ)
    (t : Transition (PrometheusPushExporter MetricFamily) (Call Scope) (Outcome MetricFamily)) :
    Prop :=
  ∀ data http_code, t.call = .exportData data http_code →
    ¬t.before.is_shutdown_ → data.scope_metric_data_ ≠ [] →
    data.scope_metric_data_.length ≤ max_collection_size → 200 ≤ http_code ∧ http_code < 300 →
    (TranslateToPrometheus data).length ≤ max_collection_size

theorem step_drained {call : Call Scope} {b : Outcome MetricFamily}
    (I : Drained max_collection_size e)
    (h : step TranslateToPrometheus e call = some (b, e')) :
    Drained max_collection_size e' ∧
      (b.collected.getD []).Sublist (call.families TranslateToPrometheus) := by
  cases call with
  | shutdown =>
    cases h
    exact ⟨⟨I.gateway, rfl, I.size⟩, List.Sublist.refl _⟩
  | exportData data http_code =>
    rcases exportData_spec I (Option.some.inj h) with ⟨rfl, hnone, -⟩ | ⟨rfl, hcollected, -⟩
    · rw [hnone]
      exact ⟨I, List.nil_sublist _⟩
    · rw [hcollected]
      exact ⟨I, List.take_sublist _ _⟩

/-- One call does what it owes exactly when the families of its data fit. -/
theorem exported_iff {t : Transition (PrometheusPushExporter MetricFamily) (Call Scope)
    (Outcome MetricFamily)} (I : Drained max_collection_size t.before)
    (h : step TranslateToPrometheus t.before t.call = some (t.outcome, t.after)) :
    Exported TranslateToPrometheus max_collection_size t ↔
      FamiliesFit TranslateToPrometheus max_collection_size t := by
  obtain ⟨e, call, b, e'⟩ := t
  dsimp only at I h
  have hheld : e'.collector_.metrics_to_collect_.length ≤ max_collection_size := by
    rw [(step_drained I h).1.empty]
    exact Nat.zero_le _
  cases call with
  | shutdown =>
    cases h
    constructor
    · intro _ data http_code hcall
      cases hcall
    · intro _
      exact ⟨hheld, by simp, by simp, by simp⟩
  | exportData data http_code =>
    rcases exportData_spec I (Option.some.inj h) with
      ⟨rfl, hnone, hresult, hwhy⟩ | ⟨rfl, hcollected, hopen, hscopes, hnonempty, hresult⟩
    · -- a refused call owes nothing
      constructor
      · intro _ data' http_code' hcall hopen hnonempty hscopes _
        cases hcall
        rcases hwhy with hshutdown | hfull | hempty
        · exact absurd hshutdown hopen
        · exact absurd hscopes (Nat.not_le.mpr hfull)
        · exact absurd hempty hnonempty
      · intro _
        refine ⟨hheld, ?_, fun _ _ _ hsuccess => absurd hsuccess hresult, fun _ => rfl⟩
        rw [hnone]
        simp
    · constructor
      · intro hexported data' http_code' hcall _ _ _ hcode
        cases hcall
        rw [if_pos hcode] at hresult
        have hall := hexported.complete data http_code rfl hresult
        rw [hcollected] at hall
        have hlength := congrArg List.length (Option.some.inj hall)
        rw [List.length_take] at hlength
        omega
      · intro hfit
        refine ⟨hheld, ?_, ?_, ?_⟩
        · intro collected hcollected'
          rw [hcollected] at hcollected'
          cases hcollected'
          rw [List.length_take]
          exact Nat.min_le_left _ _
        · intro data' http_code' hcall hsuccess
          cases hcall
          rw [hresult] at hsuccess
          split at hsuccess
          next hcode =>
            have hlength := hfit data http_code rfl hopen hnonempty hscopes hcode
            rw [hcollected, List.take_of_length_le hlength]
          next => cases hsuccess
        · intro _
          rfl

/-- **Nothing is lost silently.**  In every run from the public constructor, every call does
what it owes and no family is collected twice exactly when the data of every push that is
answered by a success translate to no more families than the collection may hold. -/
theorem nothing_lost_iff {ts : List (Transition (PrometheusPushExporter MetricFamily) (Call Scope)
      (Outcome MetricFamily))}
    (hrun : Run (step TranslateToPrometheus) (.new max_collection_size) ts e) :
    ((∀ t ∈ ts, Exported TranslateToPrometheus max_collection_size t) ∧
        (collectedBy ts).Sublist (translatedFor TranslateToPrometheus ts)) ↔
      ∀ t ∈ ts, FamiliesFit TranslateToPrometheus max_collection_size t := by
  have honce : (collectedBy ts).Sublist (translatedFor TranslateToPrometheus ts) := by
    refine (hrun.invariant (fun ts e => Drained max_collection_size e ∧
      (collectedBy ts).Sublist (translatedFor TranslateToPrometheus ts))
      ⟨drained_new, List.Sublist.refl _⟩ ?_).2
    rintro ts e call b e' ⟨I, hts⟩ hstep
    obtain ⟨I', hcall⟩ := step_drained I hstep
    refine ⟨I', ?_⟩
    rw [collectedBy, translatedFor, List.flatMap_append, List.flatMap_append]
    exact hts.append (by simpa using hcall)
  rw [and_iff_left honce]
  exact hrun.forall_iff (I := fun _ e => Drained max_collection_size e) drained_new
    (fun _ _ _ _ _ I hstep => (step_drained I hstep).1) (fun _ _ I hstep => exported_iff I hstep)

end

/-! ### A scope with many families -/

/-- Every scope is the list of its families. -/
def families (data : ResourceMetrics (List ℕ)) : List ℕ := data.scope_metric_data_.flatten

theorem nothing_lost_sample : ∃ ts e,
    Run (step families) (.new 2) ts e ∧ ts.map (fun t => t.outcome.result) =
      [some .kFailure, some .kFailureInvalidArgument, some .kFailureFull, some .kSuccess] ∧
    collectedBy ts = [1, 2, 3, 1] ∧ ∀ t ∈ ts, Exported families 2 t := by
  have hrun : ∃ r, Run.ofCalls (step families) (.new 2)
        [.exportData ⟨[[1, 2]]⟩ 500, .exportData ⟨[]⟩ 200, .exportData ⟨[[1], [2], [3]]⟩ 200,
          .exportData ⟨[[3], [1]]⟩ 202] = some r ∧
      r.1.map (fun t => t.outcome.result) =
        [some .kFailure, some .kFailureInvalidArgument, some .kFailureFull, some .kSuccess] ∧
      collectedBy r.1 = [1, 2, 3, 1] ∧ ∀ t ∈ r.1, FamiliesFit families 2 t := by
    refine ⟨_, rfl, rfl, rfl, ?_⟩
    simp [FamiliesFit, families]
  obtain ⟨r, hr, hresults, hcollected, hfit⟩ := hrun
  exact ⟨r.1, r.2, Run.of_ofCalls hr, hresults, hcollected,
    ((nothing_lost_iff (Run.of_ofCalls hr)).mpr hfit).1⟩

/-- One scope with three families, where two may be held: the third is dropped, and the
call reports a success. -/
theorem families_dropped : ∃ ts e, Run (step families) (.new 2) ts e ∧
    ts.map (fun t => t.outcome.result) = [some .kSuccess] ∧ collectedBy ts = [1, 2] ∧
    ¬∀ t ∈ ts, Exported families 2 t := by
  have hrun : ∃ r, Run.ofCalls (step families) (.new 2) [.exportData ⟨[[1, 2, 3]]⟩ 200] = some r ∧
      r.1.map (fun t => t.outcome.result) = [some .kSuccess] ∧ collectedBy r.1 = [1, 2] ∧
      r.1.map Transition.call = [.exportData ⟨[[1, 2, 3]]⟩ 200] ∧
      r.1.map (fun t => t.outcome.collected) = [some [1, 2]] := ⟨_, rfl, rfl, rfl, rfl, rfl⟩
  obtain ⟨⟨ts, e⟩, hr, hresults, hcollected, hcalls, hpushed⟩ := hrun
  refine ⟨ts, e, Run.of_ofCalls hr, hresults, hcollected, fun hall => ?_⟩
  rcases ts with _ | ⟨t, _ | ⟨t', ts⟩⟩
  · cases hcalls
  · have hcomplete := (hall t List.mem_cons_self).complete ⟨[[1, 2, 3]]⟩ 200
      (List.cons.inj hcalls).1 (List.cons.inj hresults).1
    have hpair : some [1, 2] = some (families ⟨[[1, 2, 3]]⟩) :=
      (List.cons.inj hpushed).1.symm.trans hcomplete
    exact absurd hpair (by decide)
  · cases (List.cons.inj hcalls).2

end Prometheus

/-
The lifecycle of requests and interactions in the webserver engine.

A run's transitions say which spans were created for a request: those that its
calls added to the tracer.  `Accounted` is the invariant of runs: of the spans of a
live request exactly the root and the interactions on its stack are still open,
those of a finished request have all been ended, and no span belongs to two
requests.

* `lifecycle` — failures change nothing, `endInteraction` ends the most recent open
  interaction, `endRequest` ends what is open and the root last, and nothing is
  ended twice.
-/
import OtelContrib.Webserver.RequestProcessingEngine
import Mathlib.Data.List.Nodup
import Mathlib.Data.List.Perm.Basic

open ContextStack Otel

namespace Webserver

/-! ### What the operations do to the spans -/

open Tracer.OnlyDescribes in
theorem setErrorStatus_onlyDescribes (t : Tracer) (s : IScopedSpan) (code : ℤ) (message : Bytes) :
    t.OnlyDescribes (setErrorStatus t s code message) := by
  rw [setErrorStatus]
  refine ite (setStatus _ _ _ _) (ite ?_ (setStatus _ _ _ _))
  exact ite (setStatus _ _ _ _) (setStatus _ _ _ _)

open Tracer.OnlyDescribes in
theorem addResponse_onlyDescribes (t : Tracer) (n : ℕ) (payload : ResponsePayload) :
    t.OnlyDescribes (addResponse t n payload) :=
  (Tracer.OnlyDescribes.addAttributes t n _ _).trans
    ((Tracer.OnlyDescribes.addAttributes _ n _ _).trans (setAttribute _ n _ _))

open Tracer.OnlyDescribes in
theorem describeRequest_onlyDescribes (sdk : Sdk) (t : Tracer) (s : IScopedSpan)
    (error : Option Bytes) (payload : Option ResponsePayload) :
    t.OnlyDescribes (describeRequest sdk t s error payload) := by
  have hstatus : t.OnlyDescribes (describeRequest sdk t s error none) := by
    cases error with
    | none => exact setStatus _ _ _ _
    | some error => exact setErrorStatus_onlyDescribes _ _ _ _
  cases payload with
  | none => exact hstatus
  | some payload => exact hstatus.trans (addResponse_onlyDescribes _ _ _)

open Tracer.OnlyDescribes in
theorem describeInteraction_onlyDescribes (t : Tracer) (s : IScopedSpan)
    (payload : EndInteractionPayload) : t.OnlyDescribes (describeInteraction t s payload) := by
  have hbackend : ∀ t : Tracer, t.OnlyDescribes
      (if payload.backendName ≠ [] then
        (t.setAttribute s.span (ascii "backend_name") (.string payload.backendName)).setAttribute
          s.span (ascii "backend_type") (.string payload.backendType)
      else t) := by
    intro t
    split
    · exact (setAttribute _ _ _ _).trans (setAttribute _ _ _ _)
    · exact refl t
  refine trans ?_ (hbackend _)
  split
  · exact (setErrorStatus_onlyDescribes _ _ _ _).trans (setAttribute _ _ _ _)
  · exact setStatus _ _ _ _

variable (sdk : Sdk)

/-- Creating a span adds one span, the one that is handed back. -/
theorem createSpan_spans {t : Tracer} {name : Bytes} {kind : SpanKind}
    {attributes : OtelKeyValueMap} {carrier : Carrier} {created : IScopedSpan × Tracer}
    (h : createSpan sdk t name kind attributes carrier = created) :
    created.1.span = t.spans.length ∧ created.2.ended = t.ended ∧
      created.2.spans.length = t.spans.length + 1 := by
  subst h
  by_cases hkind : kind = .SERVER
  · rw [createSpan, if_pos hkind]
    exact ⟨rfl, rfl, List.length_append⟩
  · rw [createSpan, if_neg hkind]
    exact ⟨rfl, rfl, List.length_append⟩

/-- Ending and destroying a span is one call of `End`. -/
theorem destroy_finish_spans (s : IScopedSpan) (t : Tracer) :
    (s.destroy sdk (s.finish sdk t)).ended = t.ended ++ [s.span] ∧
      (s.destroy sdk (s.finish sdk t)).spans = t.spans := by
  cases s with
  | serverSpan s token => exact ⟨rfl, rfl⟩
  | scopedSpan s => exact ⟨rfl, rfl⟩

theorem endInteractions_spans (interactions : List IScopedSpan) (t : Tracer) :
    (endInteractions sdk t interactions).ended = t.ended ++ interactions.map IScopedSpan.span ∧
      (endInteractions sdk t interactions).spans = t.spans := by
  induction interactions generalizing t with
  | nil => exact ⟨(List.append_nil _).symm, rfl⟩
  | cons s rest ih =>
    obtain ⟨hended, hspans⟩ := ih (s.destroy sdk (s.finish sdk t))
    obtain ⟨hended', hspans'⟩ := destroy_finish_spans sdk s t
    rw [endInteractions, hended, hspans, hended', hspans', List.append_assoc]
    exact ⟨rfl, rfl⟩

/-- `endRequest` ends the interactions on the stack, the most recent one first, and
then the root. -/
theorem endedRequest_spans {t tracer : Tracer} {interactions : List IScopedSpan}
    {root : IScopedSpan} {error : Option Bytes} {payload : Option ResponsePayload}
    (htracer : describeRequest sdk (endInteractions sdk t interactions) root error payload =
      tracer) :
    (root.destroy sdk (root.finish sdk tracer)).ended =
        t.ended ++ (interactions.map IScopedSpan.span ++ [root.span]) ∧
      (root.destroy sdk (root.finish sdk tracer)).spans.length = t.spans.length := by
  obtain ⟨hended, hspans⟩ := destroy_finish_spans sdk root tracer
  obtain ⟨hended', hspans'⟩ := endInteractions_spans sdk interactions t
  have hdescribed :=
    describeRequest_onlyDescribes sdk (endInteractions sdk t interactions) root error payload
  rw [htracer] at hdescribed
  rw [hended, hspans, hdescribed.ended, hdescribed.length, hended', hspans', List.append_assoc]
  exact ⟨rfl, rfl⟩

/-! ### The spans of a request -/

section
open RequestProcessingEngine

abbrev CallTransition := Transition RequestProcessingEngine Call Outcome

/-- The spans that came into being in a transition. -/
def created (t : CallTransition) : List ℕ :=
  List.range' t.before.tracer.spans.length
    (t.after.tracer.spans.length - t.before.tracer.spans.length)

/-- The spans created by the call that handed out the handle. -/
def rootSpans (handle : ℕ) (ts : List CallTransition) : List ℕ :=
  ts.flatMap fun t =>
    match t.call with
    | .startRequest _ _ _ => if t.outcome.reqHandle = some handle then created t else []
    | _ => []

/-- The spans created by calls of `startInteraction` with the handle. -/
def interactionSpans (handle : ℕ) (ts : List CallTransition) : List ℕ :=
  ts.flatMap fun t =>
    match t.call with
    | .startInteraction reqHandle _ _ => if reqHandle = some handle then created t else []
    | _ => []

/-- Every span ever created for a request. -/
def requestSpans (handle : ℕ) (ts : List CallTransition) : List ℕ :=
  rootSpans handle ts ++ interactionSpans handle ts

/-- Its interactions that `End` was not called on, in the order they were started. -/
def openInteractions (handle : ℕ) (ts : List CallTransition) (e : RequestProcessingEngine) :
    List ℕ :=
  (interactionSpans handle ts).filter fun n => n ∉ e.tracer.ended

theorem rootSpans_snoc (handle : ℕ) (ts : List CallTransition) (t : CallTransition) :
    rootSpans handle (ts ++ [t]) = rootSpans handle ts ++ rootSpans handle [t] :=
  List.flatMap_append

theorem interactionSpans_snoc (handle : ℕ) (ts : List CallTransition) (t : CallTransition) :
    interactionSpans handle (ts ++ [t]) =
      interactionSpans handle ts ++ interactionSpans handle [t] :=
  List.flatMap_append

theorem created_of_length_eq {t : CallTransition}
    (h : t.after.tracer.spans.length = t.before.tracer.spans.length) : created t = [] := by
  rw [created, h, Nat.sub_self, List.range'_zero]

theorem created_of_length_succ {t : CallTransition} {e : RequestProcessingEngine} {tracer : Tracer}
    (h : tracer.spans.length = e.tracer.spans.length + 1) (hbefore : t.before = e)
    (hafter : t.after.tracer = tracer) : created t = [e.tracer.spans.length] := by
  rw [created, hbefore, hafter, h, Nat.add_sub_cancel_left, List.range'_one]

/-- A transition that creates no span adds none to any request. -/
theorem spans_snoc_of_length_eq {t : CallTransition}
    (h : t.after.tracer.spans.length = t.before.tracer.spans.length) (handle : ℕ)
    (ts : List CallTransition) :
    rootSpans handle (ts ++ [t]) = rootSpans handle ts ∧
      interactionSpans handle (ts ++ [t]) = interactionSpans handle ts := by
  have hcreated := created_of_length_eq h
  have hroot : rootSpans handle [t] = [] := by
    rw [rootSpans, List.flatMap_singleton]
    split <;> simp [hcreated]
  have hinteraction : interactionSpans handle [t] = [] := by
    rw [interactionSpans, List.flatMap_singleton]
    split <;> simp [hcreated]
  rw [rootSpans_snoc, interactionSpans_snoc, hroot, hinteraction, List.append_nil, List.append_nil]
  exact ⟨rfl, rfl⟩

/-! ### The invariant of runs -/

/-- What the context of a live request says about its spans. -/
structure Describes (ts : List CallTransition) (e : RequestProcessingEngine) (handle : ℕ)
    (requestContext : RequestContext) : Prop where
  root : rootSpans handle ts = [requestContext.rootSpan.span]
  root_open : requestContext.rootSpan.span ∉ e.tracer.ended
  interactions : openInteractions handle ts e =
    (requestContext.interactions.map IScopedSpan.span).reverse

/-- Where every span of a run is accounted for. -/
structure Accounted (ts : List CallTransition) (e : RequestProcessingEngine) : Prop where
  ended_lt : ∀ n ∈ e.tracer.ended, n < e.tracer.spans.length
  ended_nodup : e.tracer.ended.Nodup
  spans_lt : ∀ handle, ∀ n ∈ requestSpans handle ts, n < e.tracer.spans.length
  spans_nodup : ∀ handle, (requestSpans handle ts).Nodup
  separate : ∀ handle handle', handle ≠ handle' →
    (requestSpans handle ts).Disjoint (requestSpans handle' ts)
  fresh : ∀ handle, e.nextHandle ≤ handle →
    e.requests handle = none ∧ requestSpans handle ts = []
  live : ∀ handle requestContext, e.requests handle = some requestContext →
    Describes ts e handle requestContext
  closed : ∀ handle, e.requests handle = none → ∀ n ∈ requestSpans handle ts, n ∈ e.tracer.ended

section
variable {ts ts' : List CallTransition} {e e' : RequestProcessingEngine} {handle : ℕ}
  {requestContext : RequestContext}

theorem requestSpans_congr (h : rootSpans handle ts' = rootSpans handle ts ∧
    interactionSpans handle ts' = interactionSpans handle ts) :
    requestSpans handle ts' = requestSpans handle ts := by
  rw [requestSpans, requestSpans, h.1, h.2]

/-- A context describes its request as long as the same spans of it are open. -/
theorem Describes.congr (h : Describes ts e handle requestContext)
    (hspans : rootSpans handle ts' = rootSpans handle ts ∧
      interactionSpans handle ts' = interactionSpans handle ts)
    (hended : ∀ n ∈ requestSpans handle ts, n ∈ e'.tracer.ended ↔ n ∈ e.tracer.ended) :
    Describes ts' e' handle requestContext := by
  have hroot : requestContext.rootSpan.span ∈ requestSpans handle ts := by
    rw [requestSpans, h.root]
    exact List.mem_append_left _ List.mem_cons_self
  refine ⟨hspans.1.trans h.root, fun hmem => h.root_open ((hended _ hroot).mp hmem), ?_⟩
  rw [← h.interactions, openInteractions, openInteractions, hspans.2]
  refine List.filter_congr fun n hn => ?_
  simp only [hended n (List.mem_append_right _ hn)]

theorem Accounted.congr (I : Accounted ts e)
    (hspans : ∀ handle, rootSpans handle ts' = rootSpans handle ts ∧
      interactionSpans handle ts' = interactionSpans handle ts) : Accounted ts' e := by
  have hrequest : ∀ handle, requestSpans handle ts' = requestSpans handle ts :=
    fun handle => requestSpans_congr (hspans handle)
  constructor
  · exact I.ended_lt
  · exact I.ended_nodup
  · intro handle
    rw [hrequest]
    exact I.spans_lt handle
  · intro handle
    rw [hrequest]
    exact I.spans_nodup handle
  · intro handle handle'
    rw [hrequest, hrequest]
    exact I.separate handle handle'
  · intro handle
    rw [hrequest]
    exact I.fresh handle
  · intro handle requestContext hlive
    exact (I.live handle requestContext hlive).congr (hspans handle) fun _ _ => Iff.rfl
  · intro handle
    rw [hrequest]
    exact I.closed handle

/-- Ending open spans of one request, each once, keeps every span accounted for. -/
theorem Accounted.ending {ns : List ℕ} {r : Option RequestContext} (I : Accounted ts e)
    (hspans : e'.tracer.spans.length = e.tracer.spans.length)
    (hended : e'.tracer.ended = e.tracer.ended ++ ns)
    (hrequests : e'.requests = Function.update e.requests handle r)
    (hnext : e'.nextHandle = e.nextHandle) (hhandle : handle < e.nextHandle)
    (hmem : ∀ n ∈ ns, n ∈ requestSpans handle ts) (hnodup : ns.Nodup)
    (hopen : ∀ n ∈ ns, n ∉ e.tracer.ended)
    (hlive : ∀ requestContext, r = some requestContext → Describes ts e' handle requestContext)
    (hclosed : r = none → ∀ n ∈ requestSpans handle ts, n ∈ e'.tracer.ended) :
    Accounted ts e' := by
  constructor
  · intro n hn
    rw [hspans]
    rcases List.mem_append.mp (hended ▸ hn) with hn | hn
    · exact I.ended_lt n hn
    · exact I.spans_lt handle n (hmem n hn)
  · rw [hended]
    exact I.ended_nodup.append hnodup fun n hn hns => hopen n hns hn
  · intro k
    rw [hspans]
    exact I.spans_lt k
  · exact I.spans_nodup
  · exact I.separate
  · intro k hk
    rw [hnext] at hk
    rw [hrequests, Function.update_of_ne (by omega)]
    exact I.fresh k hk
  · intro k requestContext hk
    rw [hrequests, update_eq_some_iff] at hk
    rcases hk with ⟨rfl, hk⟩ | ⟨hkh, hk⟩
    · exact hlive requestContext hk
    · refine (I.live k requestContext hk).congr ⟨rfl, rfl⟩ fun n hn => ?_
      -- the spans that were ended belong to another request
      have hns : n ∉ ns := fun hns => I.separate k handle hkh hn (hmem n hns)
      rw [hended, List.mem_append, or_iff_left hns]
  · intro k hk n hn
    by_cases hkh : k = handle
    · subst hkh
      rw [hrequests, Function.update_self] at hk
      exact hclosed hk n hn
    · rw [hrequests, Function.update_of_ne hkh] at hk
      rw [hended]
      exact List.mem_append_left _ (I.closed k hk n hn)

/-- Creating one span for one request keeps every span accounted for. -/
theorem Accounted.creating (I : Accounted ts e)
    (hspans : e'.tracer.spans.length = e.tracer.spans.length + 1)
    (hended : e'.tracer.ended = e.tracer.ended)
    (hrequests : e'.requests = Function.update e.requests handle (some requestContext))
    (hnext : e.nextHandle ≤ e'.nextHandle) (hhandle : handle < e'.nextHandle)
    (hothers : ∀ k, k ≠ handle → rootSpans k ts' = rootSpans k ts ∧
      interactionSpans k ts' = interactionSpans k ts)
    (hown : (requestSpans handle ts').Perm (e.tracer.spans.length :: requestSpans handle ts))
    (hlive : Describes ts' e' handle requestContext) : Accounted ts' e' := by
  have hmem : ∀ n, n ∈ requestSpans handle ts' →
      n = e.tracer.spans.length ∨ n ∈ requestSpans handle ts :=
    fun n hn => List.mem_cons.mp (hown.mem_iff.mp hn)
  -- the new span is in no request yet
  have hnew : ∀ k, e.tracer.spans.length ∉ requestSpans k ts :=
    fun k hk => Nat.lt_irrefl _ (I.spans_lt k _ hk)
  have hseparate : ∀ k, k ≠ handle →
      (requestSpans handle ts').Disjoint (requestSpans k ts') := by
    intro k hk n hn hn'
    rw [requestSpans_congr (hothers k hk)] at hn'
    rcases hmem n hn with rfl | hn
    · exact hnew k hn'
    · exact I.separate handle k (Ne.symm hk) hn hn'
  constructor
  · intro n hn
    rw [hspans]
    exact Nat.lt_succ_of_lt (I.ended_lt n (hended ▸ hn))
  · rw [hended]
    exact I.ended_nodup
  · intro k n hn
    rw [hspans]
    by_cases hk : k = handle
    · subst hk
      rcases hmem n hn with rfl | hn
      · exact Nat.lt_succ_self _
      · exact Nat.lt_succ_of_lt (I.spans_lt k n hn)
    · rw [requestSpans_congr (hothers k hk)] at hn
      exact Nat.lt_succ_of_lt (I.spans_lt k n hn)
  · intro k
    by_cases hk : k = handle
    · subst hk
      exact hown.nodup_iff.mpr (List.nodup_cons.mpr ⟨hnew k, I.spans_nodup k⟩)
    · rw [requestSpans_congr (hothers k hk)]
      exact I.spans_nodup k
  · intro k k' hkk'
    by_cases hk : k = handle
    · subst hk
      exact hseparate k' (Ne.symm hkk')
    · by_cases hk' : k' = handle
      · subst hk'
        exact fun n hn hn' => hseparate k hkk' hn' hn
      · rw [requestSpans_congr (hothers k hk), requestSpans_congr (hothers k' hk')]
        exact I.separate k k' hkk'
  · intro k hk
    have hne : k ≠ handle := by omega
    rw [hrequests, Function.update_of_ne hne, requestSpans_congr (hothers k hne)]
    exact I.fresh k (by omega)
  · intro k context hk
    rw [hrequests, update_eq_some_iff] at hk
    rcases hk with ⟨rfl, hk⟩ | ⟨hkh, hk⟩
    · exact Option.some.inj hk ▸ hlive
    · refine (I.live k context hk).congr (hothers k hkh) fun n _ => ?_
      rw [hended]
  · intro k hk n hn
    by_cases hkh : k = handle
    · subst hkh
      rw [hrequests, Function.update_self] at hk
      cases hk
    · rw [hrequests, Function.update_of_ne hkh] at hk
      rw [requestSpans_congr (hothers k hkh)] at hn
      rw [hended]
      exact I.closed k hk n hn

theorem Accounted.lt_nextHandle (I : Accounted ts e)
    (hlive : e.requests handle = some requestContext) : handle < e.nextHandle := by
  by_contra hle
  rw [(I.fresh handle (Nat.le_of_not_lt hle)).1] at hlive
  cases hlive

/-- The interactions on the stack of a live request are its open ones. -/
theorem Describes.mem_interactions (h : Describes ts e handle requestContext) {n : ℕ} :
    n ∈ requestContext.interactions.map IScopedSpan.span ↔
      n ∈ interactionSpans handle ts ∧ n ∉ e.tracer.ended := by
  rw [← List.mem_reverse, ← h.interactions, openInteractions, List.mem_filter, decide_eq_true_iff]

/-- The spans on the stack of a live request and its root are all different. -/
theorem Accounted.nodup_open (I : Accounted ts e)
    (hlive : e.requests handle = some requestContext) :
    (requestContext.interactions.map IScopedSpan.span ++ [requestContext.rootSpan.span]).Nodup := by
  have hdescribes := I.live handle requestContext hlive
  have hnodup := I.spans_nodup handle
  rw [requestSpans, hdescribes.root] at hnodup
  obtain ⟨hroot, hinteractions⟩ := List.nodup_cons.mp hnodup
  have hstack : (requestContext.interactions.map IScopedSpan.span).Nodup := by
    rw [← List.nodup_reverse, ← hdescribes.interactions]
    exact hinteractions.filter _
  refine hstack.append (List.nodup_singleton _) fun n hn hn' => hroot ?_
  rw [← List.mem_singleton.mp hn']
  exact (hdescribes.mem_interactions.mp hn).1

/-- Ending the interaction on top leaves the others open. -/
theorem Accounted.describes_rest (I : Accounted ts e)
    (hlive : e.requests handle = some requestContext) {s : IScopedSpan} {rest : List IScopedSpan}
    (hopen : requestContext.interactions = s :: rest)
    (hended : e'.tracer.ended = e.tracer.ended ++ [s.span]) :
    Describes ts e' handle { requestContext with interactions := rest } := by
  have hdescribes := I.live handle requestContext hlive
  have hnodup := I.nodup_open hlive
  rw [hopen, List.map_cons, List.cons_append] at hnodup
  have hs := (List.nodup_cons.mp hnodup).1
  refine ⟨hdescribes.root, ?_, ?_⟩
  · rw [hended]
    intro hmem
    rcases List.mem_append.mp hmem with hmem | hmem
    · exact hdescribes.root_open hmem
    · exact hs (List.mem_append_right _ (List.mem_singleton.mp hmem ▸ List.mem_cons_self))
  · have hfilter : openInteractions handle ts e' =
        (openInteractions handle ts e).filter fun n => n ≠ s.span := by
      rw [openInteractions, openInteractions, List.filter_filter]
      refine List.filter_congr fun n _ => ?_
      -- what was ended since is the span on top
      simp [hended, Bool.and_comm]
    have hrest : ∀ n ∈ (rest.map IScopedSpan.span).reverse, decide (n ≠ s.span) = true := by
      intro n hn
      refine decide_eq_true fun heq => hs (List.mem_append_left _ ?_)
      exact heq ▸ List.mem_reverse.mp hn
    rw [hfilter, hdescribes.interactions, hopen, List.map_cons, List.reverse_cons,
      List.filter_append, List.filter_eq_self.mpr hrest]
    simp

end

variable (getSpanName : Bytes → Bytes)

theorem accounted_init : Accounted [] RequestProcessingEngine.init where
  ended_lt := by simp [RequestProcessingEngine.init, Tracer.init]
  ended_nodup := .nil
  spans_lt := by simp [requestSpans, rootSpans, interactionSpans]
  spans_nodup := by simp [requestSpans, rootSpans, interactionSpans]
  separate := by simp [requestSpans, rootSpans, interactionSpans]
  fresh _ _ := ⟨rfl, rfl⟩
  live := by simp [RequestProcessingEngine.init]
  closed := by simp [requestSpans, rootSpans, interactionSpans]

/-- Every call keeps every span accounted for. -/
theorem Accounted.snoc {ts : List CallTransition} {e e' : RequestProcessingEngine} {call : Call}
    {outcome : Outcome} (I : Accounted ts e)
    (hstep : e.step sdk getSpanName call = some (outcome, e')) :
    Accounted (ts ++ [⟨e, call, outcome, e'⟩]) e' := by
  cases stepped sdk getSpanName hstep with
  | failed _ => exact I.congr fun handle => spans_snoc_of_length_eq rfl handle ts
  | @startedRequest wscontext payload name created hcreated =>
    obtain ⟨hspan, hended, hspans⟩ := createSpan_spans sdk hcreated
    -- the handle is new, and so there are no spans for it yet
    obtain ⟨-, hfresh⟩ := I.fresh e.nextHandle (Nat.le_refl _)
    obtain ⟨hroots, hinteractions⟩ := List.append_eq_nil_iff.mp hfresh
    refine I.creating hspans hended rfl (Nat.le_succ _) (Nat.lt_succ_self _) ?_ ?_ ?_
    · intro k hk
      rw [rootSpans_snoc, interactionSpans_snoc]
      simp [rootSpans, interactionSpans, Ne.symm hk]
    · rw [requestSpans, rootSpans_snoc, interactionSpans_snoc, hfresh, hroots, hinteractions]
      simp [rootSpans, interactionSpans, created_of_length_succ hspans]
    · refine ⟨?_, ?_, ?_⟩
      · rw [rootSpans_snoc, hroots]
        simp [rootSpans, created_of_length_succ hspans, hspan]
      · intro hmem
        exact Nat.lt_irrefl _ (hspan ▸ I.ended_lt _ (hended ▸ hmem))
      · rw [openInteractions, interactionSpans_snoc, hinteractions]
        simp [interactionSpans]
  | @startedInteraction handle payload headers name attributes requestContext created hlive
    hcreated =>
    obtain ⟨hspan, hended, hspans⟩ := createSpan_spans sdk hcreated
    have hdescribes := I.live handle requestContext hlive
    have hnew : e.tracer.spans.length ∉ e.tracer.ended :=
      fun hmem => Nat.lt_irrefl _ (I.ended_lt _ hmem)
    refine I.creating hspans hended rfl (Nat.le_refl _) (I.lt_nextHandle hlive) ?_ ?_ ?_
    · intro k hk
      rw [rootSpans_snoc, interactionSpans_snoc]
      simp [rootSpans, interactionSpans, Ne.symm hk]
    · rw [requestSpans, requestSpans, rootSpans_snoc, interactionSpans_snoc]
      simp only [rootSpans, interactionSpans, List.flatMap_singleton,
        created_of_length_succ hspans, List.append_nil, ← List.append_assoc, if_pos]
      exact List.perm_append_singleton _ _
    · refine ⟨?_, ?_, ?_⟩
      · rw [rootSpans_snoc, hdescribes.root]
        simp [rootSpans]
      · exact hended ▸ hdescribes.root_open
      · -- the new span is pushed, and it is open
        have hopen := hdescribes.interactions
        rw [openInteractions] at hopen
        rw [openInteractions, interactionSpans_snoc, List.filter_append, hended, hopen]
        simp [interactionSpans, created_of_length_succ hspans, hspan, hnew]
  | @endedInteraction handle ignoreBackend payload rContext s rest hlive hopen =>
    obtain ⟨hended, hspans⟩ := destroy_finish_spans sdk s (describeInteraction e.tracer s payload)
    have hdescribed := describeInteraction_onlyDescribes e.tracer s payload
    rw [hdescribed.ended] at hended
    have hlength := (congrArg List.length hspans).trans hdescribed.length
    have hmem := (I.live handle rContext hlive).mem_interactions (n := s.span)
    -- the span on top was started for this request and is still open
    rw [hopen] at hmem
    obtain ⟨hspan, hnot⟩ := hmem.mp List.mem_cons_self
    refine Accounted.congr ?_ fun handle => spans_snoc_of_length_eq hlength handle ts
    refine I.ending hlength hended rfl rfl (I.lt_nextHandle hlive) ?_ (List.nodup_singleton _)
      ?_ ?_ ?_
    · intro n hn
      exact List.mem_append_right _ (List.mem_singleton.mp hn ▸ hspan)
    · intro n hn
      exact List.mem_singleton.mp hn ▸ hnot
    · intro requestContext hr
      exact Option.some.inj hr ▸ I.describes_rest hlive hopen hended
    · exact fun hr => absurd hr (by simp)
  | @endedRequest handle error payload requestContext tracer hlive htracer =>
    obtain ⟨hended, hlength⟩ := endedRequest_spans sdk htracer
    have hdescribes := I.live handle requestContext hlive
    refine Accounted.congr ?_ fun handle => spans_snoc_of_length_eq hlength handle ts
    refine I.ending hlength hended rfl rfl (I.lt_nextHandle hlive) ?_ (I.nodup_open hlive) ?_ ?_ ?_
    · intro n hn
      rcases List.mem_append.mp hn with hn | hn
      · exact List.mem_append_right _ (hdescribes.mem_interactions.mp hn).1
      · refine List.mem_append_left _ ?_
        rwa [hdescribes.root]
    · intro n hn
      rcases List.mem_append.mp hn with hn | hn
      · exact (hdescribes.mem_interactions.mp hn).2
      · exact List.mem_singleton.mp hn ▸ hdescribes.root_open
    · exact fun _ hr => absurd hr (by simp)
    · intro _ n hn
      -- a span of the request was ended before, or is on the stack, or is the root
      rw [hended, List.mem_append, List.mem_append]
      rcases List.mem_append.mp hn with hn | hn
      · exact .inr (.inr (hdescribes.root ▸ hn))
      · by_cases hn' : n ∈ e.tracer.ended
        · exact .inl hn'
        · exact .inr (.inl (hdescribes.mem_interactions.mpr ⟨hn, hn'⟩))

/-- A handle that was given back is not handed out again. -/
theorem dead_step {e e' : RequestProcessingEngine} {call : Call} {outcome : Outcome} {handle : ℕ}
    (hdead : handle < e.nextHandle ∧ e.requests handle = none)
    (hstep : e.step sdk getSpanName call = some (outcome, e')) :
    handle < e'.nextHandle ∧ e'.requests handle = none := by
  obtain ⟨hlt, hnone⟩ := hdead
  have hother : ∀ handle' requestContext, e.requests handle' = some requestContext →
      handle ≠ handle' := by
    rintro handle' requestContext hlive rfl
    rw [hnone] at hlive
    cases hlive
  cases stepped sdk getSpanName hstep with
  | failed _ => exact ⟨hlt, hnone⟩
  | startedRequest _ _ _ =>
    exact ⟨Nat.lt_succ_of_lt hlt, (Function.update_of_ne (Nat.ne_of_lt hlt) ..).trans hnone⟩
  | startedInteraction handle' _ _ hlive _ =>
    exact ⟨hlt, (Function.update_of_ne (hother handle' _ hlive) ..).trans hnone⟩
  | endedInteraction handle' _ _ hlive _ =>
    exact ⟨hlt, (Function.update_of_ne (hother handle' _ hlive) ..).trans hnone⟩
  | endedRequest handle' _ _ hlive _ =>
    exact ⟨hlt, (Function.update_of_ne (hother handle' _ hlive) ..).trans hnone⟩

theorem accounted {ts : List CallTransition} {e : RequestProcessingEngine}
    (hrun : Run (step sdk getSpanName) init ts e) : Accounted ts e :=
  hrun.invariant Accounted accounted_init fun _ _ _ _ _ I hstep => I.snoc sdk getSpanName hstep

/-- **The lifecycle of requests and interactions.**  In every run of the engine no span
is ended twice; a call that fails changes nothing; a successful `endInteraction` ends
the most recent open interaction of its request; and a successful `endRequest` ends
the open interactions, the most recent one first, and the root last, after which
every span ever created for the request has been ended exactly once. -/
theorem lifecycle {ts : List CallTransition} {e : RequestProcessingEngine}
    (hrun : Run (step sdk getSpanName) init ts e) :
    e.tracer.ended.Nodup ∧
      ∀ before t after, ts = before ++ t :: after →
        (t.outcome.status ≠ .success → t.after = t.before) ∧
        (t.outcome.status = .success →
          (∀ reqHandle ignoreBackend payload,
            t.call = .endInteraction reqHandle ignoreBackend payload →
            ∃ handle n, reqHandle = some handle ∧
              (openInteractions handle before t.before).getLast? = some n ∧
              t.after.tracer.ended = t.before.tracer.ended ++ [n]) ∧
          ∀ reqHandle error payload, t.call = .endRequest reqHandle error payload →
            ∃ handle root, reqHandle = some handle ∧ rootSpans handle before = [root] ∧
              t.after.tracer.ended = t.before.tracer.ended ++
                ((openInteractions handle before t.before).reverse ++ [root]) ∧
              ∀ n ∈ requestSpans handle ts, e.tracer.ended.count n = 1) := by
  have hend := accounted sdk getSpanName hrun
  refine ⟨hend.ended_nodup, ?_⟩
  rintro before ⟨s, call, outcome, s'⟩ after hts
  obtain ⟨hbefore, hstep⟩ := hrun.reached hts
  replace hstep : s.step sdk getSpanName call = some (outcome, s') := hstep
  have I := accounted sdk getSpanName hbefore
  cases stepped sdk getSpanName hstep with
  | failed hfailed => exact ⟨fun _ => rfl, fun hsuccess => absurd hsuccess hfailed⟩
  | startedRequest _ _ _ =>
    exact ⟨fun hfailed => absurd rfl hfailed, fun _ => ⟨by simp, by simp⟩⟩
  | startedInteraction _ _ _ _ _ =>
    exact ⟨fun hfailed => absurd rfl hfailed, fun _ => ⟨by simp, by simp⟩⟩
  | @endedInteraction handle ignoreBackend payload rContext top rest hlive hopen =>
    refine ⟨fun hfailed => absurd rfl hfailed, fun _ => ⟨?_, by simp⟩⟩
    rintro _ _ _ ⟨⟩
    obtain ⟨hended, -⟩ :=
      destroy_finish_spans sdk top (describeInteraction s.tracer top payload)
    rw [(describeInteraction_onlyDescribes s.tracer top payload).ended] at hended
    refine ⟨handle, top.span, rfl, ?_, hended⟩
    rw [(I.live handle rContext hlive).interactions, hopen, List.map_cons, List.reverse_cons,
      List.getLast?_concat]
  | @endedRequest handle error payload requestContext tracer hlive htracer =>
    refine ⟨fun hfailed => absurd rfl hfailed, fun _ => ⟨by simp, ?_⟩⟩
    rintro _ _ _ ⟨⟩
    have hdescribes := I.live handle requestContext hlive
    refine ⟨handle, requestContext.rootSpan.span, rfl, hdescribes.root, ?_, ?_⟩
    · rw [hdescribes.interactions, List.reverse_reverse]
      exact (endedRequest_spans sdk htracer).1
    · intro n hn
      -- the handle stays dead for the rest of the run, and the spans of a dead handle are ended
      have hdead := hrun.stable (fun _ _ _ _ => dead_step sdk getSpanName) hts
        (P := fun e => handle < e.nextHandle ∧ e.requests handle = none)
        ⟨I.lt_nextHandle hlive, Function.update_self ..⟩
      exact List.count_eq_one_of_mem hend.ended_nodup (hend.closed handle hdead.2 n hn)

end

/-! ### A run -/

section
open RequestProcessingEngine

/-- The trace context format, for one trace of which every span started here is a part. -/
def httpTraceContext : Propagator where
  extract carrier := (carrier.find? (ascii "traceparent")).bind parseTraceparent
  inject context carrier :=
    match context with
    | none => carrier
    | some (.started n) => carrier.insert (ascii "traceparent") (traceparent ⟨1, n + 1, true⟩)
    | some (.remote c) => carrier.insert (ascii "traceparent") (traceparent c)

/-- An SDK in which a token stands for its own entry. -/
def sampleSdk : Sdk where
  propagators := [httpTraceContext]
  toLowerBase16
    | none => toHex 16 0
    | some (.started n) => toHex 16 (n + 1)
    | some (.remote c) => toHex 16 c.spanId
  detachRule := ownEntry
  emptyLiteralsMerged := true
  indeterminate := 0

/-- A request for `/` with the given headers. -/
def sampleRequest (httpHeaders : Carrier) : RequestPayload where
  uri := ascii "/"
  requestProtocol := ascii "GET"
  httpRequestMethod := ascii "GET"
  httpHeaders := httpHeaders
  requestHeaders := ∅
  serverName := ascii "localhost"
  scheme := ascii "http"
  host := ascii "localhost"
  target := ascii "/"
  flavor := ascii "1.1"
  clientIp := ascii "127.0.0.1"
  userAgent := ascii "curl"
  operationName := []
  peerPort := 4711
  port := 80

/-- A request that ends with one of its two interactions still open. -/
def sampleCalls : List Call :=
  [.startRequest (ascii "ws") (some (sampleRequest ∅)) true,
    .startInteraction (some 0) (some ⟨ascii "mod_proxy", ascii "fixup"⟩) ∅,
    .startInteraction (some 0) none ∅,
    .startInteraction (some 0) (some ⟨ascii "mod_php", ascii "handler"⟩) ∅,
    .endInteraction (some 0) false (some ⟨[], [], 0, []⟩),
    .endRequest (some 0) none none]

theorem lifecycle_sample :
    ∃ ts e, Run (step sampleSdk id) init ts e ∧
      e.tracer.ended = [2, 1, 0] ∧ e.tracer.ended.Nodup := by
  have hrun : ∃ r, Run.ofCalls (step sampleSdk id)
      init sampleCalls = some r ∧ r.2.tracer.ended = [2, 1, 0] :=
    ⟨_, rfl, rfl⟩
  obtain ⟨r, hr, hended⟩ := hrun
  exact ⟨r.1, r.2, Run.of_ofCalls hr, hended, (lifecycle sampleSdk id (Run.of_ofCalls hr)).1⟩

end

end Webserver

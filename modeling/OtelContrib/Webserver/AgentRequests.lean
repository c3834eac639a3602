/-
The requests of an agent, over whole runs.

What a run of the agent does to its requests is what calls of the engines do, each
with the SDK of its context; so every span stays accounted for.  A live request
always has an engine, since its context was there when it was made and stays.

* `accounted_requests` — the spans of every request are accounted for;
* `engines` — every live request is served, so that a call with a live handle does what
  the engine does with it (`endInteraction_live`, `startInteraction_live`,
  `endRequest_live`).
-/
import OtelContrib.Webserver.Registry

namespace Webserver

/-! ### What an engine does to a live request -/

namespace RequestProcessingEngine

variable {sdk : Sdk} {getSpanName : Bytes → Bytes} {e e' : RequestProcessingEngine} {call : Call}
  {o : Outcome} {handle : ℕ} {ctx : RequestContext}

/-- What was ended stays ended. -/
theorem mem_ended (h : e.step sdk getSpanName call = some (o, e')) {n : ℕ}
    (hn : n ∈ e.tracer.ended) : n ∈ e'.tracer.ended := by
  cases stepped sdk getSpanName h with
  | failed _ => exact hn
  | startedRequest _ _ hcreated => exact (createSpan_spans sdk hcreated).2.1 ▸ hn
  | startedInteraction _ _ _ _ hcreated => exact (createSpan_spans sdk hcreated).2.1 ▸ hn
  | @endedInteraction _ _ payload _ s _ _ _ =>
    show n ∈ Otel.Tracer.ended _
    rw [(destroy_finish_spans sdk s _).1,
      (describeInteraction_onlyDescribes e.tracer s payload).ended]
    exact List.mem_append_left _ hn
  | endedRequest _ _ _ _ htracer =>
    show n ∈ Otel.Tracer.ended _
    rw [(endedRequest_spans sdk htracer).1]
    exact List.mem_append_left _ hn

/-- Ending creates nothing. -/
theorem created_nil (h : e.step sdk getSpanName call = some (o, e'))
    (hcall : (∃ reqHandle ignoreBackend payload,
        call = .endInteraction reqHandle ignoreBackend payload) ∨
      ∃ reqHandle error payload, call = .endRequest reqHandle error payload) :
    created ⟨e, call, o, e'⟩ = [] := by
  refine created_of_length_eq ?_
  cases stepped sdk getSpanName h with
  | failed _ => rfl
  | startedRequest => simp at hcall
  | startedInteraction => simp at hcall
  | @endedInteraction _ _ payload _ s _ _ _ =>
    show (Otel.Tracer.spans _).length = _
    rw [(destroy_finish_spans sdk s _).2,
      (describeInteraction_onlyDescribes e.tracer s payload).length]
  | endedRequest _ _ _ _ htracer => exact (endedRequest_spans sdk htracer).2

theorem update_live (hlive : e.requests handle = some ctx) :
    Function.update e.requests handle (some ctx) = e.requests := by
  rw [← hlive, Function.update_eq_self]

theorem endInteraction_pops (sdk : Sdk) (hlive : e.requests handle = some ctx)
    (payload : EndInteractionPayload) :
    ∃ o e', e.endInteraction sdk (some handle) (some payload) = some (o, e') ∧
      e'.requests = Function.update e.requests handle
        (some { ctx with interactions := ctx.interactions.tail }) := by
  unfold endInteraction
  simp only [hlive]
  rcases hopen : ctx.interactions with _ | ⟨s, rest⟩
  · refine ⟨_, _, rfl, ?_⟩
    rw [List.tail_nil, ← hopen]
    exact (update_live hlive).symm
  · exact ⟨_, _, rfl, rfl⟩

theorem startInteraction_pushes (sdk : Sdk) (hlive : e.requests handle = some ctx)
    (payload : InteractionPayload)
    (propagationHeaders : Carrier) :
    ∃ o e' s, e.startInteraction sdk (some handle) (some payload) propagationHeaders =
      some (o, e') ∧
      e'.requests = Function.update e.requests handle
        (some { ctx with interactions := s :: ctx.interactions }) := by
  unfold startInteraction
  simp only [hlive]
  exact ⟨_, _, _, rfl, rfl⟩

theorem endRequest_closes (sdk : Sdk) (hlive : e.requests handle = some ctx) (error : Option Bytes)
    (payload : Option ResponsePayload) :
    ∃ o e', e.endRequest sdk (some handle) error payload = some (o, e') ∧
      e'.requests = Function.update e.requests handle none := by
  unfold endRequest
  simp only [hlive]
  exact ⟨_, _, rfl, rfl⟩

end RequestProcessingEngine

namespace WSAgent

/-! ### The calls that engines serve -/

/-- What the engine of the context is called with. -/
def engineCall (a : WSAgent) : Call → Option RequestProcessingEngine.Call
  | .startRequest (some wscontext) payload reqHandle =>
    some (.startRequest (a.mAgentCore.getRequestProcessor wscontext).1 payload reqHandle)
  | .startInteraction reqHandle payload propagationHeaders =>
    some (.startInteraction reqHandle payload propagationHeaders)
  | .endInteraction reqHandle ignoreBackend payload =>
    some (.endInteraction reqHandle ignoreBackend payload)
  | .endRequest reqHandle error payload => some (.endRequest reqHandle error payload)
  | _ => none

/-- The transition of an engine that a transition of the agent is, if one served it. -/
def engineTransition (t : CallTransition) : Option Webserver.CallTransition :=
  match t.outcome with
  | .request (some _) outcome =>
    (t.before.engineCall t.call).map fun call =>
      ⟨t.before.requests, call, outcome, t.after.requests⟩
  | _ => none

section

variable {sdk : TenantConfig → Sdk} {getSpanName : SpanNamer → Bytes → Bytes}
  {a a' : WSAgent} {ts : List CallTransition} {call : Call} {outcome : Outcome}

/-- The requests change as an engine changes them, or not at all. -/
def MadeByEngine (sdk : TenantConfig → Sdk) (getSpanName : SpanNamer → Bytes → Bytes)
    (t : CallTransition) : Prop :=
  engineTransition t = none ∧ t.after.requests = t.before.requests ∨
    ∃ (ws : WebServerContext) (engineCall : RequestProcessingEngine.Call) (o : Webserver.Outcome),
      t.outcome = .request (some ws.engine) o ∧
      engineTransition t = some ⟨t.before.requests, engineCall, o, t.after.requests⟩ ∧
      t.before.requests.step (sdk ws.mTenantConfig) (getSpanName ws.spanNamer) engineCall =
        some (o, t.after.requests)

theorem madeByEngine (h : a.step sdk getSpanName call = some (outcome, a')) :
    MadeByEngine sdk getSpanName ⟨a, call, outcome, a'⟩ := by
  have hserved : ∀ context engineCall, a.engineCall call = some engineCall →
      a.serve sdk getSpanName context engineCall = some (outcome, a') →
      MadeByEngine sdk getSpanName ⟨a, call, outcome, a'⟩ := by
    intro context engineCall hcall hserve
    obtain ⟨-, ⟨-, rfl, rfl⟩ | ⟨ws, o, -, rfl, hstep⟩⟩ := serve_spec hserve
    · exact .inl ⟨rfl, rfl⟩
    · refine .inr ⟨ws, engineCall, o, rfl, ?_, hstep⟩
      rw [engineTransition, hcall]
      rfl
  rcases step_cases h with
    ⟨env, answers, rfl, -, -, rfl, rfl⟩ | ⟨contextName, contextConfig, rfl, rfl, rfl⟩ |
    ⟨wscontext, payload, reqHandle, rfl, hserve⟩ | ⟨reqHandle, engineCall, hhandle, hcall⟩
  · obtain ⟨-, hresult⟩ | ⟨settings, spanNamer, -, -, hresult⟩ := init_cases a env answers
    · exact .inl ⟨rfl, congrArg requests hresult⟩
    · rw [hresult]
      exact .inl ⟨rfl, rfl⟩
  · obtain ⟨-, hresult⟩ | ⟨c, -, ⟨-, -, hresult⟩ | ⟨-, -, hresult⟩ | ⟨-, -, hresult⟩ |
        ⟨-, -, hresult⟩⟩ := addWSContextToCore_cases a contextName contextConfig
    all_goals
      rw [hresult]
      exact .inl ⟨rfl, rfl⟩
  · exact hserved _ _ rfl hserve
  · obtain ⟨handle, ctx, -, -, hserve⟩ := serveHandle_spec hhandle
    refine hserved _ _ ?_ hserve
    rcases hcall with ⟨_, _, rfl, rfl⟩ | ⟨_, _, rfl, rfl⟩ | ⟨_, _, rfl, rfl⟩
    · rfl
    · rfl
    · rfl

/-- Registering and initialising leave the requests alone. -/
theorem requests_of_registering (hrun : Run (step sdk getSpanName) a ts a')
    (hcalls : ∀ t ∈ ts, ∀ b : WSAgent, b.engineCall t.call = none) :
    a'.requests = a.requests ∧ ts.filterMap engineTransition = [] ∧
      ∀ t ∈ ts, t.after.requests = a.requests := by
  induction hrun with
  | nil => exact ⟨rfl, rfl, by simp⟩
  | @snoc ts s s' call outcome hrun hstep ih =>
    obtain ⟨hrequests, hnone, hafter⟩ := ih fun t ht => hcalls t (List.mem_append_left _ ht)
    have hcall := hcalls _ (List.mem_append_right ts List.mem_cons_self) s
    rcases madeByEngine hstep with ⟨hnone', hsame⟩ | ⟨ws, engineCall, o, rfl, hsome, -⟩
    · refine ⟨hsame.trans hrequests, ?_, ?_⟩
      · rw [List.filterMap_append, hnone, List.filterMap_cons, hnone']
        rfl
      · exact List.forall_mem_append.mpr ⟨hafter,
          List.forall_mem_singleton.mpr (hsame.trans hrequests)⟩
    · rw [engineTransition, hcall] at hsome
      cases hsome

/-- Whatever the engines, every span of every request is accounted for. -/
theorem accounted_requests (hrun : Run (step sdk getSpanName) WSAgent.new ts a) :
    Accounted (ts.filterMap engineTransition) a.requests := by
  have hinit : Accounted ([].filterMap engineTransition) WSAgent.new.requests := accounted_init
  refine hrun.invariant (fun ts a => Accounted (ts.filterMap engineTransition) a.requests) hinit ?_
  intro ts a call outcome a' I hstep
  rw [List.filterMap_append, List.filterMap_cons, List.filterMap_nil]
  rcases madeByEngine hstep with ⟨hnone, hsame⟩ | ⟨ws, engineCall, o, -, hsome, hengine⟩
  · rw [hnone, hsame, List.append_nil]
    exact I
  · rw [hsome]
    exact I.snoc _ _ hengine

/-- A handle that was given back is not handed out again by any engine. -/
theorem dead_kept {handle : ℕ}
    (hdead : handle < a.requests.nextHandle ∧ a.requests.requests handle = none)
    (h : a.step sdk getSpanName call = some (outcome, a')) :
    handle < a'.requests.nextHandle ∧ a'.requests.requests handle = none := by
  rcases madeByEngine h with ⟨-, hsame⟩ | ⟨ws, engineCall, o, -, -, hengine⟩
  · rwa [hsame]
  · exact dead_step _ _ hdead hengine

/-! ### Every live request has an engine -/

/-- The context of every live request is there. -/
structure Engines (a : WSAgent) : Prop where
  settled : Settled a
  served : ∀ handle ctx, a.requests.requests handle = some ctx → ∃ engine, ServedBy handle engine a

/-- A request that is live after a call was live before, or was made by the call. -/
theorem live_of_step (h : a.step sdk getSpanName call = some (outcome, a')) {handle : ℕ}
    {ctx : RequestContext} (hlive : a'.requests.requests handle = some ctx) :
    (∃ ctx, a.requests.requests handle = some ctx) ∨
      ∃ engine o, outcome = .request (some engine) o ∧ o.reqHandle = some handle := by
  rcases madeByEngine h with ⟨-, hsame⟩ | ⟨ws, engineCall, o, houtcome, -, hengine⟩
  · exact .inl ⟨ctx, hsame ▸ hlive⟩
  have hupdate : ∀ {handle' : ℕ} {old : RequestContext} {r : Option RequestContext},
      a.requests.requests handle' = some old →
      Function.update a.requests.requests handle' r handle = some ctx →
      ∃ ctx, a.requests.requests handle = some ctx := by
    intro handle' old r hold hctx
    by_cases heq : handle = handle'
    · exact ⟨old, heq ▸ hold⟩
    · exact ⟨ctx, (Function.update_of_ne heq ..).symm.trans hctx⟩
  generalize hafter : a'.requests = e' at hlive hengine
  cases RequestProcessingEngine.stepped _ _ hengine with
  | failed _ => exact .inl ⟨ctx, hlive⟩
  | startedRequest _ _ _ =>
    by_cases heq : handle = a.requests.nextHandle
    · exact .inr ⟨_, _, houtcome, congrArg some heq.symm⟩
    · exact .inl ⟨ctx, (Function.update_of_ne heq ..).symm.trans hlive⟩
  | startedInteraction _ _ _ hold _ => exact .inl (hupdate hold hlive)
  | endedInteraction _ _ _ hold _ => exact .inl (hupdate hold hlive)
  | endedRequest _ _ _ hold _ => exact .inl (hupdate hold hlive)

theorem engines_step (I : Engines a) (h : a.step sdk getSpanName call = some (outcome, a')) :
    Engines a' := by
  refine ⟨settled_kept I.settled h, fun handle ctx hlive => ?_⟩
  rcases live_of_step h hlive with ⟨ctx', hlive'⟩ | ⟨engine, o, rfl, hhandle⟩
  · obtain ⟨engine, hserved⟩ := I.served handle ctx' hlive'
    exact ⟨engine, servedBy_kept hserved h⟩
  · exact ⟨engine, servedBy_of_handle I.settled h hhandle⟩

theorem engines (hrun : Run (step sdk getSpanName) WSAgent.new ts a) : Engines a :=
  hrun.invariant (fun _ => Engines)
    ⟨fun _ _ => rfl, fun _ _ hlive => absurd hlive
      (by simp [WSAgent.new, RequestProcessingEngine.init])⟩
    fun _ _ _ _ _ => engines_step

/-- A call with a live handle reaches the engine of the handle. -/
theorem serveHandle_live (sdk : TenantConfig → Sdk)
    (getSpanName : SpanNamer → Bytes → Bytes) (I : Engines a) {handle : ℕ} {ctx : RequestContext}
    (hlive : a.requests.requests handle = some ctx) (engineCall : RequestProcessingEngine.Call) :
    ∃ ws : WebServerContext, a.serveHandle sdk getSpanName (some handle) engineCall =
      (a.requests.step (sdk ws.mTenantConfig) (getSpanName ws.spanNamer) engineCall).map fun r =>
        (.request (some ws.engine) r.1, { a with requests := r.2 }) := by
  obtain ⟨engine, hserved⟩ := I.served handle ctx hlive
  obtain ⟨ws, hws, -⟩ := hserved.context ctx hlive
  refine ⟨ws, ?_⟩
  have hserve : a.serveHandle sdk getSpanName (some handle) engineCall =
      a.serve sdk getSpanName (some ws) engineCall := by
    rw [serveHandle, Option.bind_some, hlive]
    exact congrArg (fun context => a.serve sdk getSpanName context engineCall)
      (congrArg Prod.snd hws)
  rw [hserve, serve]
  cases a.requests.step (sdk ws.mTenantConfig) (getSpanName ws.spanNamer) engineCall with
  | none => rfl
  | some r => rfl

/-- Hence `endInteraction` takes the interaction on top off the stack. -/
theorem endInteraction_live (sdk : TenantConfig → Sdk)
    (getSpanName : SpanNamer → Bytes → Bytes) (I : Engines a) {handle : ℕ} {ctx : RequestContext}
    (hlive : a.requests.requests handle = some ctx) (ignoreBackend : Bool)
    (payload : EndInteractionPayload) :
    ∃ outcome a',
      a.step sdk getSpanName (.endInteraction (some handle) ignoreBackend (some payload)) =
        some (outcome, a') ∧
      a'.requests.requests = Function.update a.requests.requests handle
        (some { ctx with interactions := ctx.interactions.tail }) := by
  obtain ⟨ws, hserve⟩ := serveHandle_live sdk getSpanName I hlive
    (.endInteraction (some handle) ignoreBackend (some payload))
  obtain ⟨o, e', hstep, hrequests⟩ := RequestProcessingEngine.endInteraction_pops
    (sdk ws.mTenantConfig) hlive payload
  refine ⟨.request (some ws.engine) o, { a with requests := e' }, ?_, hrequests⟩
  rw [step, hserve, RequestProcessingEngine.step, hstep]
  rfl

theorem startInteraction_live (sdk : TenantConfig → Sdk)
    (getSpanName : SpanNamer → Bytes → Bytes) (I : Engines a) {handle : ℕ} {ctx : RequestContext}
    (hlive : a.requests.requests handle = some ctx) (payload : InteractionPayload)
    (propagationHeaders : Carrier) :
    ∃ outcome a' s, a.step sdk getSpanName
        (.startInteraction (some handle) (some payload) propagationHeaders) = some (outcome, a') ∧
      a'.requests.requests = Function.update a.requests.requests handle
        (some { ctx with interactions := s :: ctx.interactions }) := by
  obtain ⟨ws, hserve⟩ := serveHandle_live sdk getSpanName I hlive
    (.startInteraction (some handle) (some payload) propagationHeaders)
  obtain ⟨o, e', s, hstep, hrequests⟩ := RequestProcessingEngine.startInteraction_pushes
    (sdk ws.mTenantConfig) hlive payload propagationHeaders
  refine ⟨.request (some ws.engine) o, { a with requests := e' }, s, ?_, hrequests⟩
  rw [step, hserve, RequestProcessingEngine.step, hstep]
  rfl

theorem endRequest_live (sdk : TenantConfig → Sdk)
    (getSpanName : SpanNamer → Bytes → Bytes) (I : Engines a) {handle : ℕ} {ctx : RequestContext}
    (hlive : a.requests.requests handle = some ctx) (error : Option Bytes)
    (payload : Option ResponsePayload) :
    ∃ outcome a', a.step sdk getSpanName (.endRequest (some handle) error payload) =
        some (outcome, a') ∧
      a'.requests.requests = Function.update a.requests.requests handle none := by
  obtain ⟨ws, hserve⟩ := serveHandle_live sdk getSpanName I hlive
    (.endRequest (some handle) error payload)
  obtain ⟨o, e', hstep, hrequests⟩ := RequestProcessingEngine.endRequest_closes
    (sdk ws.mTenantConfig) hlive error payload
  refine ⟨.request (some ws.engine) o, { a with requests := e' }, ?_, hrequests⟩
  rw [step, hserve, RequestProcessingEngine.step, hstep]
  rfl

/-- A request that is started has no interactions yet. -/
theorem startRequest_live {wscontext : Option Bytes} {payload : Option RequestPayload}
    {engine : Option ℕ}
    {o : Webserver.Outcome}
    (h : a.step sdk getSpanName (.startRequest wscontext payload true) =
      some (.request engine o, a'))
    (hsuccess : o.status = .success) :
    ∃ handle ctx, o.reqHandle = some handle ∧ a'.requests.requests handle = some ctx ∧
      ctx.interactions = [] := by
  rcases step_cases h with
    ⟨_, _, hcall, -⟩ | ⟨_, _, hcall, -⟩ | ⟨name, payload', reqHandle, -, hserve⟩ |
    ⟨_, _, -, ⟨_, _, hcall, -⟩ | ⟨_, _, hcall, -⟩ | ⟨_, _, hcall, -⟩⟩
  · cases hcall
  · cases hcall
  · obtain ⟨-, ⟨-, -, houtcome⟩ | ⟨ws, o', -, houtcome, hstep⟩⟩ := serve_spec hserve
    · cases houtcome
      cases hsuccess
    · cases houtcome
      generalize a'.requests = e' at hstep ⊢
      cases RequestProcessingEngine.stepped _ _ hstep with
      | failed hfailed => exact absurd hsuccess hfailed
      | startedRequest _ _ _ => exact ⟨_, _, rfl, Function.update_self .., rfl⟩
  · cases hcall
  · cases hcall
  · cases hcall

/-- A call with a handle that is not live is undefined. -/
theorem live_of_call (h : a.step sdk getSpanName call = some (outcome, a')) {handle : ℕ}
    (hhandle : call.handle? = some handle) : a.requests.requests handle ≠ none := by
  rcases step_cases h with ⟨_, _, rfl, -⟩ | ⟨_, _, rfl, -⟩ | ⟨_, _, _, rfl, -⟩ |
    ⟨reqHandle, engineCall, hserved, hcall⟩
  · cases hhandle
  · cases hhandle
  · cases hhandle
  · obtain ⟨handle', ctx, rfl, hlive, -⟩ := serveHandle_spec hserved
    have hsame : some handle' = some handle := by
      rcases hcall with ⟨_, _, rfl, -⟩ | ⟨_, _, rfl, -⟩ | ⟨_, _, rfl, -⟩
      · exact hhandle
      · exact hhandle
      · exact hhandle
    cases hsame
    rw [hlive]
    exact Option.some_ne_none ctx

/-- A handle that was given back is not used again. -/
theorem handle_not_used {before after : List CallTransition} {t : CallTransition}
    (hrun : Run (step sdk getSpanName) WSAgent.new (before ++ t :: after) a) {handle : ℕ}
    (hdead : handle < t.after.requests.nextHandle ∧ t.after.requests.requests handle = none) :
    ∀ u ∈ after, u.call.handle? ≠ some handle := by
  intro u hu hhandle
  obtain ⟨between, later, rfl⟩ := List.append_of_mem hu
  have hts : before ++ t :: (between ++ u :: later) = (before ++ t :: between) ++ u :: later := by
    simp
  obtain ⟨hreached, hstep⟩ := hrun.reached hts
  have hstill := hreached.stable
    (P := fun a => handle < a.requests.nextHandle ∧ a.requests.requests handle = none)
    (fun _ _ _ _ hdead hstep => dead_kept hdead hstep) rfl hdead
  exact live_of_call hstep hhandle hstill.2

theorem mem_ended (h : a.step sdk getSpanName call = some (outcome, a')) {n : ℕ}
    (hn : n ∈ a.requests.tracer.ended) : n ∈ a'.requests.tracer.ended := by
  rcases madeByEngine h with ⟨-, hsame⟩ | ⟨ws, engineCall, o, -, -, hengine⟩
  · exact hsame ▸ hn
  · exact RequestProcessingEngine.mem_ended hengine hn

end

end WSAgent

end Webserver

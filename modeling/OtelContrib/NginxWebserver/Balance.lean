/-
What the wrappers begin and end in the run of a main request.

* `Does` — what the calls of a step begin and end;
* `Standing` — where a request stands: not monitored, started, or ended;
* `balance` — in a run in nginx's order whose handlers keep what the wrappers rely on,
  every wrapper ends the interaction it has started and no other, the request is ended
  once, by the log handler, and nothing undefined is reached on the way.
-/
import OtelContrib.NginxWebserver.Routing
import OtelContrib.NginxWebserver.Wrappers

open Webserver (WSAgent InitAnswers TenantConfig SpanNamer Sdk IScopedSpan)
open Webserver.WSAgent (Engines)

namespace NginxWebserver

open Worker

/-! ### What calls begin and end -/

/-- The interactions that are begun and ended, and the requests that are. -/
structure Does (log : Log) (begun ended : List (ℕ × IScopedSpan)) (starts ends : List ℕ) :
    Prop where
  begun : startedInteractions log = begun
  ended : endedInteractions log = ended
  starts : requestStarts log = starts
  ends : requestEnds log = ends
  leftOpen : leftOpen log = []

theorem Does.nil : Does [] [] [] [] [] := ⟨rfl, rfl, rfl, rfl, rfl⟩

theorem Does.append {log log' : Log} {begun begun' ended ended' : List (ℕ × IScopedSpan)}
    {starts starts' ends ends' : List ℕ} (h : Does log begun ended starts ends)
    (h' : Does log' begun' ended' starts' ends') :
    Does (log ++ log') (begun ++ begun') (ended ++ ended') (starts ++ starts') (ends ++ ends') where
  begun := List.filterMap_append.trans (congrArg₂ _ h.begun h'.begun)
  ended := List.filterMap_append.trans (congrArg₂ _ h.ended h'.ended)
  starts := List.filterMap_append.trans (congrArg₂ _ h.starts h'.starts)
  ends := List.filterMap_append.trans (congrArg₂ _ h.ends h'.ends)
  leftOpen := List.flatMap_append.trans (congrArg₂ (· ++ ·) h.leftOpen h'.leftOpen)

/-- Calls for the agent itself. -/
theorem Does.of_setup {log : Log} (h : ∀ c ∈ log,
    (∃ name config, c.call = .addWSContextToCore name config) ∨
    ∃ env answers, c.call = .init env answers) : Does log [] [] [] [] := by
  induction log with
  | nil => exact .nil
  | cons c log ih =>
    have hone : Does [c] [] [] [] [] := by
      obtain ⟨before, call, outcome, after⟩ := c
      obtain ⟨_, _, rfl⟩ | ⟨_, _, rfl⟩ := h _ List.mem_cons_self
      · exact ⟨rfl, rfl, rfl, rfl, rfl⟩
      · exact ⟨rfl, rfl, rfl, rfl, rfl⟩
    exact hone.append (ih fun c' hc' => h c' (List.mem_cons_of_mem c hc'))

/-! ### The functions on a live request -/

section

variable {sdk : TenantConfig → Sdk} {getSpanName : SpanNamer → Bytes → Bytes}
  {matchIgnorePathRegex : Bytes → Bytes → Bool} {w w' : Worker} {r r' : NgxHttpRequest} {handle : ℕ}
  {spans : List IScopedSpan} {span : IScopedSpan}

/-- The agent of an initialised worker has a request with the given interactions. -/
structure Live (w : Worker) (handle : ℕ) (spans : List IScopedSpan) : Prop where
  engines : Engines w.agent
  initialized : w.isInitialized = true
  live : ∃ ctx, w.agent.requests.requests handle = some ctx ∧ ctx.interactions = spans

theorem topInteraction_live {a : WSAgent} {ctx : Webserver.RequestContext}
    (hlive : a.requests.requests handle = some ctx) (hspans : ctx.interactions = span :: spans) :
    topInteraction a handle = some (handle, span) := by
  rw [topInteraction, hlive, Option.bind_some, hspans]
  rfl

theorem startOf_quiet {module_name : Bytes} (h : r.internal = true ∨ r.ctx = none) :
    startOf sdk getSpanName module_name w r = some ([], w, r) := by
  rw [startOf, otelStartInteraction]
  split
  next => rfl
  next hinternal =>
    rw [ctxHandle, h.resolve_left hinternal]
    rfl

theorem stopOf_quiet (h : r.internal = true ∨ r.ctx = none) :
    stopOf sdk getSpanName none w r = some ([], w, r) := by
  rw [stopOf, otelStopInteraction]
  split
  next => rfl
  next hinternal =>
    rw [stopHandle, ctxHandle, h.resolve_left hinternal]
    cases r.pool <;> rfl

theorem stopHandle_eq (hpool : r.pool = true) (request_handle_key : Option ℕ) :
    stopHandle r request_handle_key = some (ctxHandle r) :=
  if_pos hpool

theorem callAgent_eq {call : WSAgent.Call} {outcome : WSAgent.Outcome} {a' : WSAgent}
    (h : w.agent.step sdk getSpanName call = some (outcome, a')) :
    w.callAgent sdk getSpanName call =
      some (⟨w.agent, call, outcome, a'⟩, { w with agent := a' }) := by
  rw [callAgent, h]

/-- Starting an interaction puts it on the request's stack. -/
theorem startOf_live (L : Live w handle spans) (hinternal : r.internal = false)
    (hpool : r.pool = true)
    (hctx : ctxHandle r = some handle) (module_name : Bytes) :
    ∃ log w' span, startOf sdk getSpanName module_name w r = some (log, w', r) ∧
      Live w' handle (span :: spans) ∧ Does log [(handle, span)] [] [] [] := by
  obtain ⟨ctx, hlive, hspans⟩ := L.live
  obtain ⟨outcome, a', span, hstep, hrequests⟩ :=
    WSAgent.startInteraction_live sdk getSpanName L.engines hlive
    ⟨module_name, []⟩ ∅
  have hlive' :
      a'.requests.requests handle = some { ctx with interactions := span :: ctx.interactions } := by
    rw [hrequests, Function.update_self]
  refine ⟨[⟨w.agent, .startInteraction (some handle) (some ⟨module_name, []⟩) ∅, outcome, a'⟩],
    { w with agent := a' }, span, ?_, ?_, ?_⟩
  · rw [startOf, otelStartInteraction, hinternal, hctx, hpool]
    dsimp only
    rw [callAgent_eq hstep]
    rfl
  · exact ⟨WSAgent.engines_step L.engines hstep, L.initialized, _, hlive', congrArg _ hspans⟩
  · refine ⟨?_, rfl, rfl, rfl, rfl⟩
    exact List.filterMap_cons_some (topInteraction_live hlive' rfl)

/-- Stopping one takes it off. -/
theorem stopOf_live (L : Live w handle (span :: spans)) (hinternal : r.internal = false)
    (hpool : r.pool = true)
    (hctx : ctxHandle r = some handle) (request_handle_key : Option ℕ) :
    ∃ log w', stopOf sdk getSpanName request_handle_key w r = some (log, w', r) ∧
      Live w' handle spans ∧
      Does log [] [(handle, span)] [] [] := by
  obtain ⟨ctx, hlive, hspans⟩ := L.live
  obtain ⟨outcome, a', hstep, hrequests⟩ :=
    WSAgent.endInteraction_live sdk getSpanName L.engines hlive false
    (endInteractionPayload r)
  have hlive' :
      a'.requests.requests handle = some { ctx with interactions := ctx.interactions.tail } := by
    rw [hrequests, Function.update_self]
  refine ⟨[⟨w.agent, .endInteraction (some handle) false (some (endInteractionPayload r)),
    outcome, a'⟩],
    { w with agent := a' }, ?_, ?_, ?_⟩
  · rw [stopOf, otelStopInteraction, hinternal, stopHandle_eq hpool, hctx]
    simp only [Bool.false_eq_true, if_false, Option.bind_eq_bind, Option.bind_some,
      callAgent_eq hstep]
    rfl
  · exact ⟨WSAgent.engines_step L.engines hstep, L.initialized, _, hlive',
      congrArg List.tail hspans⟩
  · refine ⟨rfl, ?_, rfl, rfl, rfl⟩
    exact List.filterMap_cons_some (topInteraction_live hlive hspans)

/-- The request is ended, with no interaction open. -/
theorem stopMonitoringRequest_live (L : Live w handle [])
    (henabled : r.locConf.flag .enabled ≠ some false)
    (hpool : r.pool = true) (hctx : ctxHandle r = some handle) (request_handle_key : Option ℕ) :
    ∃ log w', w.stopMonitoringRequest sdk getSpanName r request_handle_key = some (log, w') ∧
      Engines w'.agent ∧ Does log [] [] [] [handle] := by
  obtain ⟨ctx, hlive, hspans⟩ := L.live
  obtain ⟨error, payload, hcall⟩ : ∃ error payload,
      w.stopMonitoringRequest sdk getSpanName r request_handle_key =
        (w.callAgent sdk getSpanName (.endRequest (some handle) error (some payload))).map fun q =>
          ([q.1], q.2) := by
    rw [stopMonitoringRequest, if_neg henabled, stopHandle_eq hpool, hctx, hpool]
    simp only [ Option.bind_eq_bind, Option.bind_some, not_true_eq_false, if_false]
    exact ⟨_, _, Option.map_eq_bind.symm⟩
  obtain ⟨outcome, a', hstep, -⟩ :=
    WSAgent.endRequest_live sdk getSpanName L.engines hlive error (some payload)
  refine ⟨[⟨w.agent, .endRequest (some handle) error (some payload), outcome, a'⟩],
    { w with agent := a' }, ?_, WSAgent.engines_step L.engines hstep, ?_⟩
  · rw [hcall, callAgent_eq hstep]
    rfl
  · refine ⟨rfl, rfl, rfl, rfl, ?_⟩
    rw [leftOpen, List.flatMap_singleton]
    dsimp only
    rw [hlive, Option.map_some, hspans]
    rfl

theorem stopMonitoringRequest_quiet {request_handle_key : Option ℕ}
    (h : r.locConf.flag .enabled = some false ∨ r.ctx = none ∧ request_handle_key = none) :
    w.stopMonitoringRequest sdk getSpanName r request_handle_key = some ([], w) := by
  rw [stopMonitoringRequest]
  split
  next => rfl
  next henabled =>
    obtain ⟨hctx, rfl⟩ := h.resolve_left henabled
    have hnone : stopHandle r none = some none := by
      unfold stopHandle
      rw [ctxHandle, hctx]
      cases r.pool <;> rfl
    rw [hnone]
    rfl

theorem Worker.Initialised.does {b : Bool} {log : Log} {conf : LocConf}
    (h : Initialised sdk getSpanName w conf b log w') : Does log [] [] [] [] := by
  cases h with
  | already | refused => exact .nil
  | @attempted env log a answers outcome agent hnot henv hadded hcontexts hinit =>
    refine Does.of_setup fun c hc => ?_
    rcases List.mem_append.mp hc with hc | hc
    · obtain ⟨t, -, ht⟩ := List.mem_map.mp (hcontexts ▸ List.mem_map_of_mem hc : c.call ∈
        w.contexts.map registerContext)
      exact .inl ⟨_, _, ht.symm⟩
    · obtain rfl := List.mem_singleton.mp hc
      exact .inr ⟨env, answers, rfl⟩

theorem engines_run {a a' : WSAgent} {log : Log} (I : Engines a)
    (h : Run (WSAgent.step sdk getSpanName) a log a') :
    Engines a' :=
  h.invariant (fun _ => Engines) I fun _ _ _ _ _ => WSAgent.engines_step

/-- Where the request is started already, nothing is. -/
theorem startMonitoringRequest_again (L : Live w handle spans) (hinternal : r.internal = false)
    (hpool : r.pool = true) (hctx : ctxHandle r = some handle) (answers : InitAnswers) :
    w.startMonitoringRequest sdk getSpanName matchIgnorePathRegex r answers = some ([], w, r) := by
  rw [startMonitoringRequest, hinternal, ngxInitializeOpentelemetry, if_pos L.initialized,
    hpool, hctx]
  simp

/-- Otherwise the request may be started, and the context gets its handle. -/
theorem Worker.Monitored.first {log : Log} (I : Engines w.agent) (hctx : r.ctx = none)
    (h : Monitored sdk getSpanName w r log w' r') :
    (r' = r ∧ Engines w'.agent ∧ Does log [] [] [] []) ∨
      ∃ handle, r' = { r with ctx := some ⟨some handle⟩ } ∧ r.pool = true ∧ r.internal = false ∧
        Live w' handle [] ∧ Does log [] [] [handle] [] := by
  have hengines := engines_run I h.run
  cases h with
  | internal => exact .inl ⟨rfl, hengines, .nil⟩
  | declined _ hinitialised => exact .inl ⟨rfl, hengines, hinitialised.does⟩
  | @started log w' outcome agent hinternal hpool _ hinitialised hstart =>
    cases hhandle : startedHandle outcome with
    | none =>
      refine .inl ⟨?_, hengines, ?_⟩
      · rw [Option.map_none, Option.or_none]
      · refine hinitialised.does.append ⟨rfl, rfl, ?_, rfl, rfl⟩
        exact List.filterMap_cons_none hhandle
    | some handle =>
      refine .inr ⟨handle, ?_, hpool, hinternal, ?_, ?_⟩
      · rw [hctx]
        rfl
      · unfold startedHandle at hhandle
        split at hhandle
        next engine o =>
          obtain ⟨hsuccess, hhandle⟩ := Option.ite_none_right_eq_some.mp hhandle
          obtain ⟨handle', ctx, hhandle', hlive, hnone⟩ := WSAgent.startRequest_live hstart hsuccess
          obtain rfl := Option.some.inj (hhandle.symm.trans hhandle')
          exact ⟨hengines, hinitialised.isInitialized, ctx, hlive, hnone⟩
        next => cases hhandle
      · refine hinitialised.does.append ⟨rfl, rfl, ?_, rfl, rfl⟩
        exact List.filterMap_cons_some hhandle

/-! ### The wrappers -/

theorem before_eq {i : NgxHttpIndex} (hlog : i ≠ .log) (hrewrite : i ≠ .rewrite) :
    ∃ module_name, ∀ w r answers,
      (i.handler sdk getSpanName matchIgnorePathRegex).before w r answers =
      startOf sdk getSpanName module_name w r := by
  cases i with
  | log => exact absurd rfl hlog
  | rewrite => exact absurd rfl hrewrite
  | _ => exact ⟨_, fun _ _ _ => rfl⟩

/-- A wrapper begins nothing for a request that was redirected or has no context. -/
theorem before_quiet {i : NgxHttpIndex} (hlog : i ≠ .log)
    (h : r.internal = true ∨ r.ctx = none ∧ i ≠ .rewrite)
    (answers : InitAnswers) :
    (i.handler sdk getSpanName matchIgnorePathRegex).before w r answers = some ([], w, r) := by
  by_cases hrewrite : i = .rewrite
  · subst hrewrite
    have hinternal : r.internal = true := h.resolve_right fun h => h.2 rfl
    exact (if_pos hinternal).trans (startOf_quiet (.inl hinternal))
  · obtain ⟨module_name, hbefore⟩ := before_eq hlog hrewrite
    rw [hbefore]
    exact startOf_quiet (h.imp_right And.left)

/-- It begins an interaction for a request that is live. -/
theorem before_live {i : NgxHttpIndex} (hlog : i ≠ .log) (L : Live w handle spans)
    (hinternal : r.internal = false)
    (hpool : r.pool = true) (hctx : ctxHandle r = some handle) (answers : InitAnswers) :
    ∃ log w' span, (i.handler sdk getSpanName matchIgnorePathRegex).before w r answers =
      some (log, w', r) ∧
      Live w' handle (span :: spans) ∧ Does log [(handle, span)] [] [] [] := by
  by_cases hrewrite : i = .rewrite
  · subst hrewrite
    obtain ⟨log, w', span, hstart, hlive, hdoes⟩ := startOf_live L
      hinternal hpool hctx (ascii "ngx_http_rewrite_module")
    refine ⟨log, w', span, ?_, hlive, hdoes⟩
    refine (if_neg (Bool.eq_false_iff.mp hinternal)).trans ?_
    rw [startMonitoringRequest_again L hinternal hpool hctx]
    dsimp only
    rw [hstart]
    rfl
  · obtain ⟨module_name, hbefore⟩ := before_eq hlog hrewrite
    obtain ⟨log, w', span, hstart, hlive, hdoes⟩ := startOf_live L
      hinternal hpool hctx module_name
    exact ⟨log, w', span, (hbefore w r answers).trans hstart, hlive, hdoes⟩

/-- What a wrapper does after its handler, but for those that look at the redirect. -/
theorem after_eq {i : NgxHttpIndex} (hlog : i ≠ .log) (hindex : i ≠ .index)
    (hrandom : i ≠ .randomIndex)
    (htry : i ≠ .tryFiles) (old_internal : Bool) (old_ctx : Option NgxHttpOtelHandles) :
    (i.handler sdk getSpanName matchIgnorePathRegex).after old_internal old_ctx w r =
      stopOf sdk getSpanName none w r := by
  cases i with
  | log => exact absurd rfl hlog
  | index => exact absurd rfl hindex
  | randomIndex => exact absurd rfl hrandom
  | tryFiles => exact absurd rfl htry
  | _ => rfl

theorem after_index {i : NgxHttpIndex} (hi : i = .index ∨ i = .randomIndex) (old_internal : Bool)
    (old_ctx : Option NgxHttpOtelHandles) :
    (i.handler sdk getSpanName matchIgnorePathRegex).after old_internal old_ctx w r =
      if r.internal ∧ ¬old_internal then
        (stopOf sdk getSpanName none w { r with ctx := old_ctx, internal := false }).map fun q =>
          (q.1, q.2.1, { q.2.2 with internal := true })
      else stopOf sdk getSpanName none w r := by
  rcases hi with rfl | rfl
  · rfl
  · rfl

theorem after_tryFiles {old_internal : Bool} {old_ctx : Option NgxHttpOtelHandles} {log : Log}
    (hstopped : stopTryFiles sdk getSpanName old_internal
      (old_ctx.bind NgxHttpOtelHandles.otel_req_handle_key) w r =
      some (log, w', r')) :
    (NgxHttpIndex.tryFiles.handler sdk getSpanName matchIgnorePathRegex).after
        old_internal old_ctx w r =
      if r'.pool then some (log, w', r')
      else (w'.stopMonitoringRequest sdk getSpanName r'
        (old_ctx.bind NgxHttpOtelHandles.otel_req_handle_key)).map
        fun q => (log ++ q.1, q.2, r') := by
  simp only [NgxHttpIndex.handler, ngxHttpOtelTryFilesHandler, hstopped]

/-- A wrapper that has begun nothing ends nothing, as long as `try_files` finds the pool. -/
theorem after_quiet {i : NgxHttpIndex} {old_internal : Bool} {old_ctx : Option NgxHttpOtelHandles}
    (h : r.internal = true ∧ old_internal = true ∨ r.ctx = none ∧ old_ctx = none)
    (htry : i = .tryFiles → r.pool = true ∨ r.locConf.flag .enabled = some false ∨
      r.ctx = none ∧ old_ctx = none) :
    (i.handler sdk getSpanName matchIgnorePathRegex).after old_internal old_ctx w r =
      some ([], w, r) := by
  have hstop : stopOf sdk getSpanName none w r = some ([], w, r) :=
    stopOf_quiet (h.imp And.left And.left)
  -- a redirect is found only where there was no context
  have hredirected (hr : r.internal = true ∧ ¬old_internal = true) : r.ctx = none ∧
      old_ctx = none :=
    h.resolve_left fun h => hr.2 h.2
  by_cases hi : i = .index ∨ i = .randomIndex
  · rw [after_index hi]
    split
    next hr =>
      obtain ⟨hctx, rfl⟩ := hredirected hr
      rw [stopOf_quiet (.inr rfl), Option.map_some, ← hctx, ← hr.1]
    next => exact hstop
  · by_cases htryFiles : i = .tryFiles
    · subst htryFiles
      have hstopped : stopTryFiles sdk getSpanName old_internal
          (old_ctx.bind NgxHttpOtelHandles.otel_req_handle_key) w r = some ([], w, r) := by
        rw [stopTryFiles]
        split
        next hr =>
          obtain ⟨hctx, rfl⟩ := hredirected hr
          have hquiet : stopOf sdk getSpanName none w { r with internal := false } =
            some ([], w, { r with internal := false }) := stopOf_quiet (.inr hctx)
          rw [Option.bind_none, hquiet, Option.map_some, ← hr.1]
        next => exact hstop
      rw [after_tryFiles hstopped]
      split
      next => rfl
      next hpool =>
        have hgone : r.locConf.flag .enabled = some false ∨ r.ctx = none ∧
            old_ctx.bind NgxHttpOtelHandles.otel_req_handle_key = none := by
          refine ((htry rfl).resolve_left hpool).imp_right fun hnone => ⟨hnone.1, ?_⟩
          rw [hnone.2, Option.bind_none]
        rw [stopMonitoringRequest_quiet hgone]
        rfl
    · by_cases hlog : i = .log
      · subst hlog
        rfl
      · rw [after_eq hlog (fun h => hi (.inl h)) (fun h => hi (.inr h)) htryFiles, hstop]

/-- A wrapper ends the interaction on top when the request is as it left it. -/
theorem after_live {i : NgxHttpIndex} (hlog : i ≠ .log) (L : Live w handle (span :: spans))
    (hinternal : r.internal = false) (hpool : r.pool = true) (hctx : ctxHandle r = some handle)
    (old_internal : Bool) (old_ctx : Option NgxHttpOtelHandles) :
    ∃ log w', (i.handler sdk getSpanName matchIgnorePathRegex).after old_internal old_ctx w r =
      some (log, w', r) ∧
      Live w' handle spans ∧ Does log [] [(handle, span)] [] [] := by
  obtain ⟨log, w', hstop, hlive, hdoes⟩ := stopOf_live L hinternal hpool hctx none
  refine ⟨log, w', ?_, hlive, hdoes⟩
  have hnot : ¬(r.internal = true ∧ ¬old_internal = true) :=
    fun h => Bool.eq_false_iff.mp hinternal h.1
  by_cases hi : i = .index ∨ i = .randomIndex
  · rw [after_index hi, if_neg hnot, hstop]
  · by_cases htryFiles : i = .tryFiles
    · subst htryFiles
      rw [after_tryFiles ((if_neg hnot).trans hstop), if_pos hpool]
    · rw [after_eq hlog (fun h => hi (.inl h)) (fun h => hi (.inr h)) htryFiles, hstop]

/-- After a redirect the context is restored. -/
theorem after_redirected {i : NgxHttpIndex} (hi : i = .index ∨ i = .randomIndex)
    (L : Live w handle (span :: spans)) (hinternal : r.internal = true) (hpool : r.pool = true) :
    ∃ log w', (i.handler sdk getSpanName matchIgnorePathRegex).after false
      (some ⟨some handle⟩) w r =
        some (log, w', { r with ctx := some ⟨some handle⟩ }) ∧
      Live w' handle spans ∧ Does log [] [(handle, span)] [] [] := by
  obtain ⟨log, w', hstop, hlive, hdoes⟩ :=
    @stopOf_live sdk getSpanName w { r with ctx := some ⟨some handle⟩, internal := false } handle
      spans span L rfl hpool rfl none
  refine ⟨log, w', ?_, hlive, hdoes⟩
  rw [after_index hi, if_pos ⟨hinternal, Bool.false_ne_true⟩, hstop, Option.map_some, ← hinternal]

/-! ### Where a request stands -/

/-- A wrapper that was called after a redirect. -/
structure Nested (f : Frame) : Prop where
  module : f.module ≠ .log
  internal : f.old_internal = true
  idle : startedInteractions f.started = []

/-- A wrapper that has started an interaction. -/
structure Waiting (handle : ℕ) (span : IScopedSpan) (f : Frame) : Prop where
  module : f.module ≠ .log
  internal : f.old_internal = false
  started : startedInteractions f.started = [(handle, span)]
  ctx : f.module ≠ .rewrite → f.old_ctx = some ⟨some handle⟩

/-- A live request: `internal`, its context, the wrappers that wait, and its interactions. -/
inductive Open (handle : ℕ) : Bool → Option NgxHttpOtelHandles → List Frame →
    List IScopedSpan → Prop
  | between : Open handle false (some ⟨some handle⟩) [] []
  | wrapped {f : Frame} {span : IScopedSpan} (hf : Waiting handle span f) :
    Open handle false (some ⟨some handle⟩) [f] [span]
  | redirected {nested : List Frame} {f : Frame} {span : IScopedSpan} (hf : Waiting handle span f)
    (hmodule : f.module = .index ∨ f.module = .randomIndex) (hnested : ∀ g ∈ nested, Nested g) :
    Open handle true none (nested ++ [f]) [span]
  | after {nested : List Frame} (hnested : ∀ g ∈ nested,
    Nested g ∧ g.old_ctx = some ⟨some handle⟩) :
    Open handle true (some ⟨some handle⟩) nested []

/-- A redirect that is allowed. -/
theorem Open.redirect {handle : ℕ} {internal : Bool} {ctx : Option NgxHttpOtelHandles}
    {frames : List Frame}
    {spans : List IScopedSpan} (h : Open handle internal ctx frames spans)
    (hkept : ((ctx.bind NgxHttpOtelHandles.otel_req_handle_key).isNone ||
      Processing.restores frames) = true) :
    Open handle true none frames spans := by
  cases h with
  | between => cases hkept
  | @wrapped f span hf =>
    have hmodule : f.module = .index ∨ f.module = .randomIndex := by
      simpa [Processing.restores, hf.internal] using hkept
    exact @Open.redirected handle [] f span hf hmodule fun g hg => (List.not_mem_nil hg).elim
  | redirected hf hmodule hnested => exact .redirected hf hmodule hnested
  | after hnested =>
    rcases frames with _ | ⟨g, _ | ⟨g', frames⟩⟩
    · cases hkept
    · have hinternal := (hnested g List.mem_cons_self).1.internal
      simp [Processing.restores, hinternal] at hkept
    · cases hkept

/-- A wrapper is called after the redirect. -/
theorem Open.enter {handle : ℕ} {ctx : Option NgxHttpOtelHandles} {frames : List Frame}
    {spans : List IScopedSpan} (h : Open handle true ctx frames spans) {g : Frame} (hg : Nested g)
    (hctx : g.old_ctx = ctx) : Open handle true ctx (g :: frames) spans := by
  cases h with
  | redirected hf hmodule hnested =>
    exact @Open.redirected handle (g :: _) _ _ hf hmodule (List.forall_mem_cons.mpr ⟨hg, hnested⟩)
  | after hnested => exact .after (List.forall_mem_cons.mpr ⟨⟨hg, hctx⟩, hnested⟩)

theorem Open.first {handle : ℕ} {ctx : Option NgxHttpOtelHandles} {spans : List IScopedSpan}
    (h : Open handle false ctx [] spans) : ctx = some ⟨some handle⟩ ∧ spans = [] := by
  cases h
  exact ⟨rfl, rfl⟩

/-- What the latest wrapper can be. -/
theorem Open.leave {handle : ℕ} {internal : Bool} {ctx : Option NgxHttpOtelHandles} {f : Frame}
    {frames : List Frame} {spans : List IScopedSpan}
    (h : Open handle internal ctx (f :: frames) spans) :
    (∃ span, Waiting handle span f ∧ frames = [] ∧ spans = [span] ∧
        (internal = false ∧ ctx = some ⟨some handle⟩ ∨
          internal = true ∧ ctx = none ∧ (f.module = .index ∨ f.module = .randomIndex))) ∨
      Nested f ∧ internal = true ∧ Open handle internal ctx frames spans := by
  generalize hframes : f :: frames = all at h
  cases h with
  | between => cases hframes
  | wrapped hf =>
    cases hframes
    exact .inl ⟨_, hf, rfl, rfl, .inl ⟨rfl, rfl⟩⟩
  | @redirected nested _ _ hf hmodule hnested =>
    cases nested with
    | nil =>
      cases hframes
      exact .inl ⟨_, hf, rfl, rfl, .inr ⟨rfl, rfl, hmodule⟩⟩
    | cons g nested =>
      cases hframes
      obtain ⟨hg, hnested⟩ := List.forall_mem_cons.mp hnested
      exact .inr ⟨hg, rfl, .redirected hf hmodule hnested⟩
  | after hnested =>
    subst hframes
    obtain ⟨hf, hnested⟩ := List.forall_mem_cons.mp hnested
    exact .inr ⟨hf.1, rfl, .after hnested⟩

/-- A wrapper that waits when the request has been ended. -/
structure Late (handle : ℕ) (internal : Bool) (f : Frame) : Prop where
  idle : startedInteractions f.started = []
  nested : f.module ≠ .log →
    internal = true ∧ f.old_internal = true ∧ f.old_ctx = some ⟨some handle⟩

/-- When no wrapper has an interaction, the request has none, and its context. -/
theorem Open.idle {handle : ℕ} {internal : Bool} {ctx : Option NgxHttpOtelHandles}
    {frames : List Frame}
    {spans : List IScopedSpan} (h : Open handle internal ctx frames spans)
    (hidle : ∀ f ∈ frames, startedInteractions f.started = []) :
    spans = [] ∧ ctx = some ⟨some handle⟩ ∧ ∀ f ∈ frames, Late handle internal f := by
  cases h with
  | between => exact ⟨rfl, rfl, fun f hf => (List.not_mem_nil hf).elim⟩
  | @wrapped f span hf =>
    have hnone := hf.started.symm.trans (hidle f List.mem_cons_self)
    cases hnone
  | @redirected nested f span hf =>
    have hnone := hf.started.symm.trans (hidle f (List.mem_append_right _ List.mem_cons_self))
    cases hnone
  | after hnested =>
    exact ⟨rfl, rfl, fun f hf => ⟨hidle f hf,
      fun _ => ⟨rfl, (hnested f hf).1.internal, (hnested f hf).2⟩⟩⟩

/-- Where a request stands after some calls. -/
inductive Standing (calls : Log) (s : Processing) : Prop
  | unmonitored (hstarts : requestStarts calls = []) (hends : requestEnds calls = [])
    (hengines : Engines s.worker.agent) (hctx : s.r.ctx = none)
    (hframes : ∀ f ∈ s.frames, f.old_ctx = none ∧ startedInteractions f.started = [])
  | started {handle : ℕ} {spans : List IScopedSpan} (hstarts : requestStarts calls = [handle])
    (hends : requestEnds calls = []) (hlogged : s.logged = false) (hpool : s.r.pool = true)
    (hlive : Live s.worker handle spans) (hopen : Open handle s.r.internal s.r.ctx s.frames spans)
  | ended {handle : ℕ} (hstarts : requestStarts calls = [handle])
    (hends : requestEnds calls = [handle])
    (hlogged : s.logged = true) (hframes : ∀ f ∈ s.frames, Late handle s.r.internal f)

/-- What the wrapper that an event lets return has started. -/
def Processing.owned (s : Processing) : Event → List (ℕ × IScopedSpan)
  | .leave =>
    match s.frames with
    | f :: _ => startedInteractions f.started
    | [] => []
  | _ => []

/-- A step that ends what the wrapper has started and no other interaction, and that ends
the request in the log handler only, when none is open. -/
structure EndsOwn (t : Transition Processing Event Log) : Prop where
  ended : endedInteractions t.outcome = t.before.owned t.call
  leftOpen : leftOpen t.outcome = []
  byLog : requestEnds t.outcome ≠ [] → ∃ answers, t.call = .enter .log answers

/-- What a step has to keep. -/
structure Stands (calls : Log) (t : Transition Processing Event Log) : Prop extends EndsOwn t where
  standing : Standing (calls ++ t.outcome) t.after

theorem requestStarts_append (log log' : Log) :
    requestStarts (log ++ log') = requestStarts log ++ requestStarts log' :=
  List.filterMap_append

theorem requestEnds_append (log log' : Log) :
    requestEnds (log ++ log') = requestEnds log ++ requestEnds log' :=
  List.filterMap_append

variable {calls log : Log} {s s' : Processing}

/-- A step without calls. -/
theorem Stands.quiet {event : Event} (howned : s.owned event = []) (S : Standing calls s') :
    Stands calls ⟨s, event, [], s'⟩ where
  ended := howned.symm
  leftOpen := rfl
  byLog h := absurd rfl h
  standing := by rwa [List.append_nil]

/-! ### The steps -/

theorem Standing.effect (S : Standing calls s) {e : Effect}
    (horder : s.nginxOrder (.effect e) = true)
    (hkept : s.kept (.effect e) = true) :
    Stands calls ⟨s, .effect e, [], { s with r := e.apply s.r }⟩ := by
  refine .quiet rfl ?_
  cases S with
  | unmonitored hstarts hends hengines hctx hframes =>
    refine .unmonitored hstarts hends hengines ?_ hframes
    cases e with
    | internalRedirect => rfl
    | poolGone | other => exact hctx
  | @started handle spans hstarts hends hlogged hpool hlive hopen =>
    cases e with
    | poolGone =>
      rw [Processing.nginxOrder, hlogged] at horder
      cases horder
    | other => exact .started hstarts hends hlogged hpool hlive hopen
    | internalRedirect uri locConf =>
      exact .started hstarts hends hlogged hpool hlive (hopen.redirect hkept)
  | @ended handle hstarts hends hlogged hframes =>
    refine .ended hstarts hends hlogged fun f hf => ⟨(hframes f hf).idle, fun hmodule => ?_⟩
    obtain ⟨hinternal, hrest⟩ := (hframes f hf).nested hmodule
    refine ⟨?_, hrest⟩
    cases e with
    | internalRedirect => rfl
    | poolGone | other => exact hinternal

/-- The log handler ends the request. -/
theorem Standing.enterLog (S : Standing calls s) {answers : InitAnswers}
    (horder : s.nginxOrder (.enter .log answers) = true)
    (hkept : s.kept (.enter .log answers) = true) :
    ∃ log s', s.step sdk getSpanName matchIgnorePathRegex (.enter .log answers) = some (log, s') ∧
      Stands calls ⟨s, .enter .log answers, log, s'⟩ := by
  have hstep {log : Log} {w' : Worker}
      (h : s.worker.stopMonitoringRequest sdk getSpanName s.r none = some (log, w')) :
      s.step sdk getSpanName matchIgnorePathRegex (.enter .log answers) =
        some (log, ⟨w', s.r, ⟨.log, s.r.internal, s.r.ctx, log⟩ :: s.frames,
          s.logged || true⟩) := by
    rw [Processing.step]
    dsimp only [NgxHttpIndex.handler, ngxHttpOtelLogHandler]
    rw [h]
    rfl
  cases S with
  | unmonitored hstarts hends hengines hctx hframes =>
    refine ⟨_, _, hstep (stopMonitoringRequest_quiet (.inr ⟨hctx, rfl⟩)), .quiet rfl ?_⟩
    exact .unmonitored hstarts hends hengines hctx (List.forall_mem_cons.mpr ⟨⟨hctx, rfl⟩, hframes⟩)
  | @started handle spans hstarts hends hlogged hpool hlive hopen =>
    obtain ⟨hidle, henabled⟩ := Bool.and_eq_true_iff.mp hkept
    obtain ⟨rfl, hctx, hlate⟩ :=
      hopen.idle fun f hf => by simpa using List.all_eq_true.mp hidle f hf
    have hhandle : ctxHandle s.r = some handle := by
      rw [ctxHandle, hctx]
      rfl
    have henabled : s.r.locConf.flag .enabled ≠ some false := by
      simpa [hhandle, Processing.enabled] using henabled
    obtain ⟨log, w', hstop, hengines, hdoes⟩ :=
      stopMonitoringRequest_live hlive henabled hpool hhandle none
    refine ⟨log, _, hstep hstop, ⟨⟨hdoes.ended, hdoes.leftOpen, fun _ => ⟨answers, rfl⟩⟩, ?_⟩⟩
    have hlog : Late handle s.r.internal ⟨.log, s.r.internal, s.r.ctx, log⟩ :=
      ⟨hdoes.begun, fun h => absurd rfl h⟩
    refine .ended ?_ ?_ (Bool.or_true _) (List.forall_mem_cons.mpr ⟨hlog, hlate⟩)
    · rw [requestStarts_append, hstarts, hdoes.starts, List.append_nil]
    · rw [requestEnds_append, hends, hdoes.ends, List.nil_append]
  | ended _ _ hlogged =>
    rw [Processing.nginxOrder, hlogged] at horder
    simp at horder

/-- A handler returns, and its wrapper ends what it has started. -/
theorem Standing.leave (S : Standing calls s) (horder : s.nginxOrder .leave = true)
    (hkept : s.kept .leave = true) :
    ∃ log s', s.step sdk getSpanName matchIgnorePathRegex .leave = some (log, s') ∧
      Stands calls ⟨s, .leave, log, s'⟩ := by
  obtain ⟨f, frames, hframes⟩ : ∃ f frames, s.frames = f :: frames :=
    List.exists_cons_of_ne_nil (by simpa [Processing.nginxOrder] using horder)
  have hstep {log : Log} {w' : Worker} {r' : NgxHttpRequest}
      (h : (f.module.handler sdk getSpanName matchIgnorePathRegex).after f.old_internal f.old_ctx
        s.worker s.r = some (log, w', r')) :
      s.step sdk getSpanName matchIgnorePathRegex .leave =
        some (log, ⟨w', r', frames, s.logged⟩) := by
    rw [Processing.step, hframes]
    dsimp only
    rw [h]
    rfl
  have hquiet (h : s.r.internal = true ∧ f.old_internal = true ∨ s.r.ctx = none ∧ f.old_ctx = none)
      (htry : f.module = .tryFiles →
        s.r.pool = true ∨ s.r.locConf.flag .enabled = some false ∨
          s.r.ctx = none ∧ f.old_ctx = none) :
      s.step sdk getSpanName matchIgnorePathRegex .leave =
        some ([], ⟨s.worker, s.r, frames, s.logged⟩) :=
    hstep (after_quiet h htry)
  have howned : s.owned .leave = startedInteractions f.started := by rw [Processing.owned, hframes]
  cases S with
  | unmonitored hstarts hends hengines hctx hall =>
    rw [hframes] at hall
    obtain ⟨⟨hold, hidle⟩, hrest⟩ := List.forall_mem_cons.mp hall
    refine ⟨_, _, hquiet (.inr ⟨hctx, hold⟩) fun _ => .inr (.inr ⟨hctx, hold⟩),
      .quiet (howned.trans hidle) ?_⟩
    exact .unmonitored hstarts hends hengines hctx hrest
  | @started handle spans hstarts hends hlogged hpool hlive hopen =>
    rw [hframes] at hopen
    -- what the calls of a wrapper that has an interaction amount to
    have hended {log : Log} {span : IScopedSpan} {s' : Processing} (hf : Waiting handle span f)
        (hdoes : Does log [] [(handle, span)] [] []) (S' : requestStarts (calls ++ log) = [handle] →
          requestEnds (calls ++ log) = [] → Standing (calls ++ log) s') :
        Stands calls ⟨s, .leave, log, s'⟩ := by
      refine ⟨⟨?_, hdoes.leftOpen, fun h => absurd hdoes.ends h⟩, S' ?_ ?_⟩
      · exact hdoes.ended.trans (howned.trans hf.started).symm
      · rw [requestStarts_append, hstarts, hdoes.starts, List.append_nil]
      · rw [requestEnds_append, hends, hdoes.ends, List.append_nil]
    obtain ⟨span, hf, rfl, rfl, ⟨hinternal, hctx⟩ | ⟨hinternal, hctx, hmodule⟩⟩ |
      ⟨hnested, hinternal, hopen⟩ := hopen.leave
    · have hhandle : ctxHandle s.r = some handle := by
        rw [ctxHandle, hctx]
        rfl
      obtain ⟨log, w', hafter, hlive, hdoes⟩ := after_live hf.module hlive hinternal hpool hhandle
        f.old_internal f.old_ctx
      refine ⟨log, _, hstep hafter, hended hf hdoes fun hstarts hends => ?_⟩
      refine .started hstarts hends hlogged hpool hlive ?_
      dsimp only
      rw [hinternal, hctx]
      exact .between
    · have hrewrite : f.module ≠ .rewrite := by
        rcases hmodule with h | h
        · rw [h]
          exact fun h => by cases h
        · rw [h]
          exact fun h => by cases h
      obtain ⟨log, w', hafter, hlive, hdoes⟩ := after_redirected hmodule hlive hinternal hpool
      rw [← hf.internal, ← hf.ctx hrewrite] at hafter
      refine ⟨log, _, hstep hafter, hended hf hdoes fun hstarts hends => ?_⟩
      refine .started hstarts hends hlogged hpool hlive ?_
      dsimp only
      rw [hinternal, hf.ctx hrewrite]
      exact .after fun g hg => (List.not_mem_nil hg).elim
    · refine ⟨_, _, hquiet (.inl ⟨hinternal, hnested.internal⟩) fun _ => .inl hpool, ?_⟩
      exact .quiet (howned.trans hnested.idle) (.started hstarts hends hlogged hpool hlive hopen)
  | @ended handle hstarts hends hlogged hall =>
    rw [hframes] at hall
    obtain ⟨hlate, hrest⟩ := List.forall_mem_cons.mp hall
    have hleave : s.step sdk getSpanName matchIgnorePathRegex .leave =
        some ([], ⟨s.worker, s.r, frames, s.logged⟩) := by
      by_cases hlog : f.module = .log
      · exact hstep (by rw [hlog]; rfl)
      · obtain ⟨hinternal, hold, hctx⟩ := hlate.nested hlog
        refine hquiet (.inl ⟨hinternal, hold⟩) fun htry => ?_
        -- the handle was there when the wrapper was called
        have hpool : s.r.pool = true ∨ s.enabled = false := by
          simpa [Processing.kept, hframes, htry, hctx] using hkept
        refine hpool.imp_right fun hdisabled => .inl ?_
        simpa [Processing.enabled] using hdisabled
    exact ⟨_, _, hleave, .quiet (howned.trans hlate.idle) (.ended hstarts hends hlogged hrest)⟩

/-- The first wrapper of a request without a context, which may start it. -/
theorem before_first {i : NgxHttpIndex} {answers : InitAnswers} {q : Log × Worker × NgxHttpRequest}
    (hlog : i ≠ .log)
    (I : Engines w.agent) (hctx : r.ctx = none)
    (h : (i.handler sdk getSpanName matchIgnorePathRegex).before w r answers = some q) :
    (q.2.2 = r ∧ Engines q.2.1.agent ∧ Does q.1 [] [] [] []) ∨
      ∃ handle span, i = .rewrite ∧ r.internal = false ∧ r.pool = true ∧
        q.2.2 = { r with ctx := some ⟨some handle⟩ } ∧
        Live q.2.1 handle [span] ∧ Does q.1 [(handle, span)] [] [handle] [] := by
  by_cases hquiet : r.internal = true ∨ i ≠ .rewrite
  · rw [before_quiet hlog (hquiet.imp_right fun h => ⟨hctx, h⟩)] at h
    obtain rfl := Option.some.inj h
    exact .inl ⟨rfl, I, .nil⟩
  · obtain ⟨hinternal, hrewrite⟩ := not_or.mp hquiet
    obtain rfl : i = .rewrite := not_not.mp hrewrite
    dsimp only [NgxHttpIndex.handler, ngxHttpOtelRewriteHandler] at h
    rw [if_neg hinternal] at h
    split at h
    next => cases h
    next log w' r' hstart =>
      obtain ⟨q', hq', rfl⟩ := Option.map_eq_some_iff.mp h
      obtain ⟨rfl, hengines, hdoes⟩ | ⟨handle, rfl, hpool, hinternal, hlive, hdoes⟩ :=
        (monitored hstart).first I hctx
      · rw [startOf_quiet (.inr hctx)] at hq'
        obtain rfl := Option.some.inj hq'
        exact .inl ⟨rfl, hengines, by rwa [List.append_nil]⟩
      · obtain ⟨log', w'', span, hstarted, hlive', hdoes'⟩ :=
          @startOf_live sdk getSpanName w' { r with ctx := some ⟨some handle⟩ } handle [] hlive
            hinternal hpool rfl (ascii "ngx_http_rewrite_module")
        rw [hstarted] at hq'
        obtain rfl := Option.some.inj hq'
        exact .inr ⟨handle, span, rfl, hinternal, hpool, rfl, hlive', hdoes.append hdoes'⟩

/-- A wrapper is called. -/
theorem Standing.enter (S : Standing calls s) {i : NgxHttpIndex} {answers : InitAnswers}
    (hlog : i ≠ .log)
    (horder : s.nginxOrder (.enter i answers) = true)
    (h : s.step sdk getSpanName matchIgnorePathRegex (.enter i answers) = some (log, s')) :
    Stands calls ⟨s, .enter i answers, log, s'⟩ := by
  obtain ⟨q, hq, hpair⟩ := Option.map_eq_some_iff.mp h
  cases hpair
  obtain ⟨⟨hpool, hlogged⟩, hnested⟩ : (s.r.pool = true ∧ s.logged = false) ∧
      (s.frames = [] ∨ s.r.internal = true) := by
    simpa [Processing.nginxOrder, hlog] using horder
  -- what is left to show when the calls begin at most an interaction or the request
  have hstands {begun : List (ℕ × IScopedSpan)} {starts : List ℕ}
    (hdoes : Does q.1 begun [] starts [])
      (S' : Standing (calls ++ q.1) ⟨q.2.1, q.2.2, ⟨i, s.r.internal, s.r.ctx, q.1⟩ :: s.frames,
        s.logged || i = .log⟩) :
      Stands calls ⟨s, .enter i answers, q.1, _⟩ :=
    ⟨⟨hdoes.ended, hdoes.leftOpen, fun h => absurd hdoes.ends h⟩, S'⟩
  have hstill : (s.logged || decide (i = .log)) = false := by simp [hlogged, hlog]
  cases S with
  | unmonitored hstarts hends hengines hctx hframes =>
    obtain ⟨hr, hengines, hdoes⟩ | ⟨handle, span, hrewrite, hinternal, -, hr, hlive, hdoes⟩ :=
      before_first hlog hengines hctx hq
    · refine hstands hdoes (.unmonitored ?_ ?_ hengines (hr ▸ hctx) ?_)
      · rw [requestStarts_append, hstarts, hdoes.starts, List.append_nil]
      · rw [requestEnds_append, hends, hdoes.ends, List.append_nil]
      · exact List.forall_mem_cons.mpr ⟨⟨hctx, hdoes.begun⟩, hframes⟩
    · have hnone : s.frames = [] := hnested.resolve_right (Bool.eq_false_iff.mp hinternal)
      refine hstands hdoes (.started ?_ ?_ hstill (hr ▸ hpool) hlive ?_)
      · rw [requestStarts_append, hstarts, hdoes.starts, List.nil_append]
      · rw [requestEnds_append, hends, hdoes.ends, List.append_nil]
      · rw [hr, hnone]
        dsimp only
        rw [hinternal]
        exact .wrapped ⟨hlog, rfl, hdoes.begun, fun h => absurd hrewrite h⟩
  | @started handle spans hstarts hends _ _ hlive hopen =>
    by_cases hinternal : s.r.internal = true
    · rw [before_quiet hlog (.inl hinternal)] at hq
      obtain rfl := Option.some.inj hq
      refine .quiet rfl (.started hstarts hends hstill hpool hlive ?_)
      dsimp only
      rw [hinternal] at hopen ⊢
      exact hopen.enter ⟨hlog, rfl, rfl⟩ rfl
    · have hinternal := Bool.eq_false_iff.mpr hinternal
      have hnone : s.frames = [] := hnested.resolve_right (Bool.eq_false_iff.mp hinternal)
      rw [hinternal, hnone] at hopen
      obtain ⟨hctx, rfl⟩ := hopen.first
      have hhandle : ctxHandle s.r = some handle := by
        rw [ctxHandle, hctx]
        rfl
      obtain ⟨log, w', span, hbefore, hlive, hdoes⟩ :=
        before_live hlog hlive hinternal hpool hhandle answers
      obtain rfl := Option.some.inj (hbefore.symm.trans hq)
      refine hstands hdoes (.started ?_ ?_ hstill hpool hlive ?_)
      · rw [requestStarts_append, hstarts, hdoes.starts, List.append_nil]
      · rw [requestEnds_append, hends, hdoes.ends, List.append_nil]
      · rw [hnone]
        dsimp only
        rw [hinternal, hctx]
        exact .wrapped ⟨hlog, rfl, hdoes.begun, fun _ => rfl⟩
  | ended _ _ hended =>
    rw [hended] at hlogged
    cases hlogged

/-! ### Whole runs -/

abbrev ProcessingTransition := Transition Processing Event Log

/-- All calls of a run. -/
def runCalls (ts : List ProcessingTransition) : Log := ts.flatMap Transition.outcome

/-- The events at which a wrapper stops something. -/
def Event.Stops : Event → Prop
  | .leave => True
  | .enter i _ => i = .log
  | .effect _ => False

/-- **The balance of a run.**  Every wrapper ends what it has started, and the request is
ended once when the log phase was entered, and not before. -/
structure Balance (ts : List ProcessingTransition) (s : Processing) : Prop where
  interactions : ∀ t ∈ ts, EndsOwn t
  once : (requestStarts (runCalls ts)).length ≤ 1
  request : requestEnds (runCalls ts) = if s.logged then requestStarts (runCalls ts) else []

/-- A main request comes in. -/
structure Incoming (r : NgxHttpRequest) : Prop where
  internal : r.internal = false
  pool : r.pool = true
  ctx : r.ctx = none

theorem Standing.stops (S : Standing calls s) {event : Event} (hevent : event.Stops)
    (horder : s.nginxOrder event = true) (hkept : s.kept event = true) :
    ∃ log s', s.step sdk getSpanName matchIgnorePathRegex event = some (log, s') ∧
      Stands calls ⟨s, event, log, s'⟩ := by
  cases event with
  | leave => exact S.leave horder hkept
  | enter i answers =>
    obtain rfl : i = .log := hevent
    exact S.enterLog horder hkept
  | effect e => exact hevent.elim

/-- The step lemma. -/
theorem Standing.step (S : Standing calls s) {event : Event} (horder : s.nginxOrder event = true)
    (hkept : s.kept event = true) (h : s.step sdk getSpanName matchIgnorePathRegex event =
      some (log, s')) :
    Stands calls ⟨s, event, log, s'⟩ := by
  by_cases hevent : event.Stops
  · obtain ⟨log', s'', hstep, hstands⟩ := S.stops hevent horder hkept
    cases hstep.symm.trans h
    exact hstands
  · cases event with
    | leave => exact absurd trivial hevent
    | enter i answers => exact S.enter hevent horder h
    | effect e =>
      cases h
      exact S.effect horder hkept

theorem standing_init (I : Engines w.agent) (hr : Incoming r) : Standing [] ⟨w, r, [], false⟩ :=
  .unmonitored rfl rfl I hr.ctx fun _ hf => (List.not_mem_nil hf).elim

/-- The run lemma. -/
theorem standing (I : Engines w.agent) (hr : Incoming r) {ts : List ProcessingTransition}
    (hrun : Run (Processing.step sdk getSpanName matchIgnorePathRegex) ⟨w, r, [], false⟩ ts s)
    (horder : ∀ t ∈ ts, t.before.nginxOrder t.call = true)
    (hkept : ∀ t ∈ ts, t.before.kept t.call = true) :
    Standing (runCalls ts) s ∧ ∀ t ∈ ts, EndsOwn t := by
  refine hrun.invariant (fun ts s => (∀ t ∈ ts, t.before.nginxOrder t.call = true) →
    (∀ t ∈ ts, t.before.kept t.call = true) → Standing (runCalls ts) s ∧ ∀ t ∈ ts, EndsOwn t)
    (fun _ _ => ⟨standing_init I hr, fun _ ht => (List.not_mem_nil ht).elim⟩) ?_ horder hkept
  intro ts s event log s' ih hstep horder hkept
  have hts {t : ProcessingTransition} (ht : t ∈ ts) : t ∈ ts ++ [⟨s, event, log, s'⟩] :=
    List.mem_append_left _ ht
  have hlast : (⟨s, event, log, s'⟩ : ProcessingTransition) ∈ ts ++ [⟨s, event, log, s'⟩] :=
    List.mem_append_right _ List.mem_cons_self
  obtain ⟨S, hall⟩ := ih (fun t ht => horder t (hts ht)) fun t ht => hkept t (hts ht)
  have hstands := S.step (horder _ hlast) (hkept _ hlast) hstep
  refine ⟨?_, fun t ht => ?_⟩
  · rw [runCalls, List.flatMap_append, List.flatMap_singleton]
    exact hstands.standing
  · rcases List.mem_append.mp ht with ht | ht
    · exact hall t ht
    · obtain rfl := List.mem_singleton.mp ht
      exact hstands.toEndsOwn

/-- A request that stands well is ended when its log phase was entered. -/
theorem Standing.request (S : Standing calls s) :
    (requestStarts calls).length ≤ 1 ∧
      requestEnds calls = if s.logged then requestStarts calls else [] := by
  cases S with
  | unmonitored hstarts hends =>
    rw [hstarts, hends]
    exact ⟨Nat.zero_le 1, (ite_self _).symm⟩
  | started hstarts hends hlogged =>
    rw [hstarts, hends, hlogged]
    exact ⟨Nat.le_refl 1, rfl⟩
  | ended hstarts hends hlogged =>
    rw [hstarts, hends, hlogged]
    exact ⟨Nat.le_refl 1, rfl⟩

/-- **Balance.**  Let a main request come to a worker whose agent serves every live
request, and let it be processed in nginx's order with what the wrappers rely on kept.
Then every wrapper ends the interaction it has started, and nothing else, the request is
ended once, by the log handler, and the wrappers stop without undefined behaviour in
every state that is reached. -/
theorem balance {log₀ : Log} {a : WSAgent} (hagent : Run (WSAgent.step sdk getSpanName) .new log₀ a)
    {contexts : List Triple} {isInitialized : Bool} (hr : Incoming r)
    {ts : List ProcessingTransition}
    (hrun : Run (Processing.step sdk getSpanName matchIgnorePathRegex)
      ⟨⟨contexts, isInitialized, a⟩, r, [], false⟩ ts s)
    (horder : ∀ t ∈ ts, t.before.nginxOrder t.call = true)
    (hkept : ∀ t ∈ ts, t.before.kept t.call = true) :
    Balance ts s ∧ ∀ event, event.Stops → s.nginxOrder event = true → s.kept event = true →
      (s.step sdk getSpanName matchIgnorePathRegex event).isSome := by
  obtain ⟨S, hall⟩ :=
    standing (w := ⟨contexts, isInitialized, a⟩) (WSAgent.engines hagent) hr hrun horder hkept
  refine ⟨⟨hall, S.request.1, S.request.2⟩, fun event hevent horder hkept => ?_⟩
  obtain ⟨log, s', hstep, -⟩ := S.stops hevent horder hkept
  rw [hstep]
  rfl

end

/-! ### Two requests -/

/-- A request for `/` that comes to a worker with the contexts of the configuration. -/
def sampleProcessing : Processing :=
  ⟨.new (stores .new sampleHttp), sampleRequest (sampleConf 0), [], false⟩

def sampleStep : Processing → Event → Option (Log × Processing) :=
  Processing.step (fun _ => Webserver.sampleSdk) (fun _ uri => uri) fun _ _ => false

def sampleEnter (i : NgxHttpIndex) : Event :=
  .enter i (sampleAnswers [(ascii "shop", ascii "front", ascii "1")])

/-- What the events are up to the handler that redirects the request to a page. -/
def sampleRedirect (i : NgxHttpIndex) : List Event :=
  [sampleEnter .rewrite, .leave, sampleEnter i,
    .effect (.internalRedirect (ascii "/index.html") (sampleConf 0)), sampleEnter .static, .leave]

/-- The handler of `index` returns before the request ends. -/
theorem balance_sample : ∃ ts s, Run sampleStep sampleProcessing ts s ∧ s.logged = true ∧
    Balance ts s := by
  have hchecked : (Run.ofCalls sampleStep sampleProcessing
      (sampleRedirect .index ++ [.leave, sampleEnter .log, .leave, .effect .poolGone])).any
      (fun r => r.2.logged && r.1.all fun t =>
          t.before.nginxOrder t.call && t.before.kept t.call) = true := by
    decide +kernel
  obtain ⟨ts, s, hrun, hchecked⟩ := Run.exists_of_any hchecked
  obtain ⟨hlogged, hall⟩ := Bool.and_eq_true_iff.mp hchecked
  have hsteps (t : ProcessingTransition) (ht : t ∈ ts) :
      t.before.nginxOrder t.call = true ∧ t.before.kept t.call = true :=
    Bool.and_eq_true_iff.mp (List.all_eq_true.mp hall t ht)
  exact ⟨ts, s, hrun, hlogged, (balance .nil ⟨rfl, rfl, rfl⟩ hrun (fun t ht => (hsteps t ht).1)
    fun t ht => (hsteps t ht).2).1⟩

/-- The handler of `try_files` ends the request too: the log handler finds no context, and
the wrapper stops the request with a null payload. -/
theorem try_files_undefined : ∃ ts s, Run sampleStep sampleProcessing ts s ∧
    (∀ t ∈ ts, t.before.nginxOrder t.call = true) ∧ s.nginxOrder .leave = true ∧
      sampleStep s .leave = none ∧
      ¬ Balance ts s := by
  have hchecked : (Run.ofCalls sampleStep sampleProcessing
      (sampleRedirect .tryFiles ++ [sampleEnter .log, .leave, .effect .poolGone])).any (fun r =>
        (r.1.all fun t => t.before.nginxOrder t.call) && r.2.nginxOrder .leave &&
          (sampleStep r.2 .leave).isNone &&
          r.2.logged && requestStarts (runCalls r.1) != requestEnds (runCalls r.1)) = true := by
    decide +kernel
  obtain ⟨ts, s, hrun, hchecked⟩ := Run.exists_of_any hchecked
  simp only [Bool.and_eq_true, Option.isNone_iff_eq_none, bne_iff_ne] at hchecked
  obtain ⟨⟨⟨⟨horder, hleave⟩, hundefined⟩, hlogged⟩, hunbalanced⟩ := hchecked
  refine ⟨ts, s, hrun, List.all_eq_true.mp horder, hleave, hundefined, fun hbalance => ?_⟩
  refine hunbalanced (hbalance.request.trans ?_).symm
  rw [hlogged, if_pos rfl]

end NginxWebserver

/-
The spans for the exchanges that one main request and its subrequests have with a
backend.

The record of an outbound span is kept under a key of the main request's pool, where its
cleanup is registered too, but it lies in the pool of the request that the hook is called
with, and it stays under the key when the exchange has ended.

* `Stage` — what the hooks so far have made of a request;
* `outbound_iff` — the hooks keep to the spans and pools exactly when there is at most
  one exchange, of the main request itself and after `opentel_handler`.
-/
import OtelContrib.Httpd.Isolation

open Otel

namespace Httpd

/-! ### The order of the hooks -/

/-- The requests that have an exchange. -/
def exchanges (hooks : List Hook) : List (Option SubRequest) :=
  hooks.filterMap fun
    | .proxyFixup r => some r
    | _ => none

/-- Exchanges follow one another, and the pool of a subrequest goes when it is in none;
later hooks are not for this subrequest. -/
def Protocol : Option (Option ℕ) → List ℕ → List Hook → Prop
  | opened, _, [] => opened = none
  | opened, gone, .handler :: hooks => Protocol opened gone hooks
  | opened, gone, .logTransaction :: hooks => Protocol opened gone hooks
  | opened, gone, .proxyFixup r :: hooks =>
    opened = none ∧ (∀ sub, r = some sub → sub.pool ∉ gone) ∧
      Protocol (some (r.map SubRequest.pool)) gone hooks
  | opened, gone, .proxyEnd _ r :: hooks =>
    opened = some (r.map SubRequest.pool) ∧ Protocol none gone hooks
  | opened, gone, .destroySubPool pool :: hooks =>
    opened ≠ some (some pool) ∧ Protocol opened (pool :: gone) hooks

/-- The hooks before the server span is started. -/
def beforeHandler (hooks : List Hook) : List Hook :=
  hooks.takeWhile fun
    | .handler => false
    | _ => true

/-- At most one exchange, of the main request and after its handler. -/
structure OneMainExchange (hooks : List Hook) : Prop where
  started : exchanges (beforeHandler hooks) = []
  atMostOne : exchanges hooks = [] ∨ exchanges hooks = [none]

/-! ### What the hooks should do -/

abbrev HookTransition := Transition Serving Hook Unit

def hookStep (sdk : Sdk) (config : OtelConfig) (s : Serving) (hook : Hook) :
    Option (Unit × Serving) :=
  (runHook sdk config s hook).map fun s' => ((), s')

/-- The spans that were there before and that a hook calls. -/
def operands (s : Serving) : Hook → List ℕ
  | .handler | .destroySubPool _ => []
  | .logTransaction => (s.request.otel.bind ExtraRequestData.span).toList
  | .proxyFixup _ =>
    if s.request.otelProxy.isNone then (s.request.otel.bind ExtraRequestData.span).toList else []
  | .proxyEnd _ _ => (s.request.otelProxy.bind ExtraRequestData.span).toList

/-- The injector for the configured propagation. -/
def outboundPropagator (sdk : Sdk) (config : OtelConfig) : Option Propagator :=
  match config.propagation with
  | .NONE => none
  | .TRACE_CONTEXT => some sdk.PropagatorTraceContext
  | .B3_SINGLE_HEADER => some sdk.PropagatorB3SingleHeader
  | .B3_MULTI_HEADER => some sdk.PropagatorB3MultiHeader

/-- A start of an exchange with a client span of its own: a new one, under the request's
server span, and in the headers that are forwarded. -/
structure OwnSpan (sdk : Sdk) (config : OtelConfig) (q : HookTransition) : Prop where
  record : q.after.request.otelProxy.bind ExtraRequestData.span = some q.before.tracer.spans.length
  kind : q.after.tracer.spans[q.before.tracer.spans.length]?.map Span.kind = some .CLIENT
  parent : ∃ server, q.before.request.otel.bind ExtraRequestData.span = some server ∧
    q.after.tracer.spans[q.before.tracer.spans.length]?.map Span.parent =
      some (some (.started server))
  injected : q.after.request.main.headers_in =
    (outboundPropagator sdk config).elim q.before.request.main.headers_in fun propagator =>
      injectHeaders propagator (some (.started q.before.tracer.spans.length))
        q.before.request.main.headers_in

/-- A hook that calls no ended span; an exchange gets its own. -/
structure RightHook (sdk : Sdk) (config : OtelConfig) (q : HookTransition) : Prop where
  live : ∀ n ∈ operands q.before q.call, n ∉ q.before.tracer.ended
  own : ∀ r, q.call = .proxyFixup r → OwnSpan sdk config q

/-- The spans that were started since are ended, each once. -/
def EndedOnce (t t' : Tracer) : Prop :=
  ∃ ended, t'.ended = t.ended ++ ended ∧
    ended.Perm (List.range' t.spans.length (t'.spans.length - t.spans.length))

/-- The main request with the given hooks up to the end of its pool: nothing undefined,
each hook right, each span ended once. -/
def OutboundSpans (sdk : Sdk) (config : OtelConfig) (t : Tracer) (main : RequestRec)
    (hooks : List Hook) : Prop :=
  ∃ r, Run.ofCalls (hookStep sdk config) ⟨t, ⟨main, none, none, []⟩⟩ hooks = some r ∧
    (∀ q ∈ r.1, RightHook sdk config q) ∧ ∃ t', destroyPool r.2 = some t' ∧ EndedOnce t t'

/-! ### Stages of a request -/

/-- What the hooks have made of a request.  `exchanged` stays: the record is still under
its key. -/
inductive Stage
  | fresh
  | started
  | exchanging (pool : Option ℕ)
  | exchanged (pool : Option ℕ)

namespace Stage

def next : Stage → Hook → Option Stage
  | .fresh, .handler => some .started
  | .started, .proxyFixup r => some (.exchanging (r.map SubRequest.pool))
  | .exchanging pool, .proxyEnd _ _ => some (.exchanged pool)
  | _, .proxyFixup _ | _, .proxyEnd _ _ => none
  | stage, .handler | stage, .logTransaction | stage, .destroySubPool _ => some stage

/-- The exchange that is going on. -/
def opened : Stage → Option (Option ℕ)
  | .exchanging pool => some pool
  | _ => none

/-- The cleanups find their records. -/
def Accepting : Stage → Prop
  | .fresh | .started => True
  | .exchanging _ => False
  | .exchanged pool => pool = none

/-- How many spans are started. -/
def spans : Stage → ℕ
  | .fresh => 0
  | .started => 1
  | .exchanging _ | .exchanged _ => 2

/-- The spans that are ended; `n` is the server span. -/
def ended (n : ℕ) : Stage → List ℕ
  | .exchanged _ => [n + 1]
  | _ => []

/-- The span of the record of the main request. -/
def server (n : ℕ) : Stage → Option (Option ℕ)
  | .fresh => none
  | _ => some (some n)

/-- The record of the exchange. -/
def client (n : ℕ) : Stage → Option ExtraRequestData
  | .fresh | .started => none
  | .exchanging pool => some ⟨none, some (n + 1), pool⟩
  | .exchanged pool => some ⟨none, none, pool⟩

end Stage

/-- A request is at a stage, `hooks` are still to come; `t` is the thread's tracer before
the request. -/
structure At (t : Tracer) (hooks : List Hook) (stage : Stage) (s : Serving) : Prop where
  method : s.request.main.method.isSome
  otel : s.request.otel.map ExtraRequestData.span = stage.server t.spans.length
  otelProxy : s.request.otelProxy = stage.client t.spans.length
  length : s.tracer.spans.length = t.spans.length + stage.spans
  ended : s.tracer.ended = t.ended ++ stage.ended t.spans.length
  held : ∀ pool, stage = .exchanging (some pool) → pool ∉ s.request.gone
  protocol : Protocol stage.opened s.request.gone hooks

/-! ### Starting a span -/

theorem kinds_setAttribute (t : Tracer) (n : ℕ) (key : Bytes) (value : AttributeValue) :
    (t.setAttribute n key value).spans.map Span.kind = t.spans.map Span.kind :=
  t.map_updateSpan n fun _ => rfl

theorem kinds_setNonEmpty (t : Tracer) (n : ℕ) (key value : Bytes) :
    (setNonEmpty t n key value).spans.map Span.kind = t.spans.map Span.kind := by
  rw [setNonEmpty]
  split
  · rfl
  · exact kinds_setAttribute t n key _

theorem kinds_addAttributes (t : Tracer) (n : ℕ) (start : Bytes) (texts : OrderedMap Bytes Bytes) :
    (t.addAttributes n start texts).spans.map Span.kind = t.spans.map Span.kind := by
  rw [Tracer.addAttributes]
  induction texts.entries generalizing t with
  | nil => rfl
  | cons kv entries ih => exact (ih _).trans (kinds_setAttribute t n _ _)

theorem kinds_startSpan (config : OtelConfig) (t : Tracer) (n : ℕ)
    (attrs : HttpdStartSpanAttributes) :
    (startSpan config t n attrs).spans.map Span.kind = t.spans.map Span.kind := by
  rw [startSpan, kinds_addAttributes]
  split
  · simp only [kinds_setAttribute, kinds_setNonEmpty]
  · simp only [kinds_setAttribute, kinds_setNonEmpty]

/-- What the injection does when the span is on top of the contexts. -/
theorem injectOutbound_eq (sdk : Sdk) (config : OtelConfig) {t : Tracer} {ctx : SpanContext}
    (hcurrent : t.contexts.current.span = some ctx) (headers : AprTable) :
    injectOutbound sdk config t headers =
      (outboundPropagator sdk config).elim headers
        fun propagator => injectHeaders propagator (some ctx) headers := by
  rw [injectOutbound, hcurrent, outboundPropagator]
  cases config.propagation <;> rfl

/-! ### One hook -/

variable {sdk : Sdk} {config : OtelConfig} {t : Tracer} {hooks : List Hook} {stage : Stage}
    {s : Serving}

/-- The request's record, once the server span is started. -/
theorem At.exists_otel (A : At t hooks stage s) (hstage : stage ≠ .fresh) :
    ∃ data, s.request.otel = some data ∧ data.span = some t.spans.length := by
  have hserver : stage.server t.spans.length = some (some t.spans.length) := by
    cases stage with
    | fresh => exact absurd rfl hstage
    | started | exchanging _ | exchanged _ => rfl
  exact Option.map_eq_some_iff.mp (A.otel.trans hserver)

theorem At.otel_fresh (A : At t hooks .fresh s) : s.request.otel = none :=
  Option.map_eq_none_iff.mp A.otel

/-- The server span is not ended while the request is served. -/
theorem At.server_live (A : At t hooks stage s) (hended : ∀ n ∈ t.ended, n < t.spans.length) :
    t.spans.length ∉ s.tracer.ended := by
  rw [A.ended, List.mem_append]
  rintro (hmem | hmem)
  · exact Nat.lt_irrefl _ (hended _ hmem)
  · cases stage with
    | fresh | started | exchanging _ => cases hmem
    | exchanged pool => exact absurd (List.mem_singleton.mp hmem) (Nat.succ_ne_self _).symm

/-- What the handler makes of a request that has no record yet. -/
theorem opentelHandler_spec (hmethod : s.request.main.method.isSome)
    (hotel : s.request.otel = none) :
    ∃ s', opentelHandler sdk config s = some s' ∧
      s'.request.otel.map ExtraRequestData.span = some (some s.tracer.spans.length) ∧
      s'.request.otelProxy = s.request.otelProxy ∧ s'.request.gone = s.request.gone ∧
      s'.request.main.method = s.request.main.method ∧
      s'.tracer.spans.length = s.tracer.spans.length + 1 ∧ s'.tracer.ended = s.tracer.ended := by
  obtain ⟨method, hmethod⟩ := Option.isSome_iff_exists.mp hmethod
  have hspans := (attachInbound_spec sdk config s.tracer s.request.main.headers_in).1
  have hended : (attachInbound sdk config s.tracer s.request.main.headers_in).2.ended =
      s.tracer.ended := by
    rw [attachInbound]
    split <;> rfl
  rw [opentelHandler, hotel]
  simp only [hmethod, Option.isSome_none, Bool.false_eq_true, if_false]
  refine ⟨_, rfl, ?_, rfl, rfl, rfl, ?_, ?_⟩
  · exact congrArg (fun spans => some (some (List.length spans))) hspans
  · rw [(startSpan_onlyDescribes config _ _ _).length]
    exact List.length_append.trans (congrArg (fun spans => List.length spans + 1) hspans)
  · rw [(startSpan_onlyDescribes config _ _ _).ended]
    exact hended

theorem At.handler (A : At t (.handler :: hooks) stage s) :
    ∃ stage' s', stage.next .handler = some stage' ∧ runHook sdk config s .handler = some s' ∧
      At t hooks stage' s' := by
  cases stage with
  | fresh =>
    obtain ⟨s', hs', hotel, hproxy, hgone, hmethod, hlength, hended⟩ :=
      opentelHandler_spec A.method A.otel_fresh
    refine ⟨.started, s', rfl, hs', ?_⟩
    constructor
    · exact hmethod ▸ A.method
    · rw [hotel, A.length]
      rfl
    · exact hproxy.trans A.otelProxy
    · rw [hlength, A.length]
      rfl
    · exact hended.trans A.ended
    · exact fun pool h => by cases h
    · exact hgone ▸ A.protocol
  | started | exchanging _ | exchanged _ =>
    -- the request has its record, so that the handler declines
    obtain ⟨data, hdata, -⟩ := A.exists_otel (by simp)
    refine ⟨_, s, rfl, ?_, ⟨A.method, A.otel, A.otelProxy, A.length, A.ended, A.held, A.protocol⟩⟩
    rw [runHook, opentelHandler, hdata]
    rfl

theorem At.logTransaction (A : At t (.logTransaction :: hooks) stage s) :
    ∃ s', runHook sdk config s .logTransaction = some s' ∧ At t hooks stage s' := by
  rw [runHook, opentelLogTransaction]
  cases hotel : s.request.otel with
  | none => exact ⟨s, rfl, A.method, A.otel, A.otelProxy, A.length, A.ended, A.held, A.protocol⟩
  | some data =>
    have hstage : stage ≠ .fresh := by
      rintro rfl
      rw [A.otel_fresh] at hotel
      cases hotel
    obtain ⟨data', hdata', hspan⟩ := A.exists_otel hstage
    obtain rfl := Option.some.inj (hotel.symm.trans hdata')
    dsimp only
    rw [hspan]
    have hdescribes := endSpan_onlyDescribes s.tracer t.spans.length
      ⟨s.request.main.status, s.request.main.bytes_sent⟩
    exact ⟨_, rfl, A.method, A.otel, A.otelProxy, hdescribes.length.trans A.length,
      hdescribes.ended.trans A.ended, A.held, A.protocol⟩

theorem At.destroySubPool {pool : ℕ} (A : At t (.destroySubPool pool :: hooks) stage s) :
    ∃ s', runHook sdk config s (.destroySubPool pool) = some s' ∧ At t hooks stage s' := by
  refine ⟨_, rfl, A.method, A.otel, A.otelProxy, A.length, A.ended, ?_, A.protocol.2⟩
  rintro pool' rfl hmem
  rcases List.mem_cons.mp hmem with rfl | hmem
  · exact A.protocol.1 rfl
  · exact A.held pool' rfl hmem

/-- The exchange of a request that has had none gets its own span. -/
theorem At.proxyFixup {r : Option SubRequest} (A : At t (.proxyFixup r :: hooks) .started s) :
    ∃ s', runHook sdk config s (.proxyFixup r) = some s' ∧
      OwnSpan sdk config ⟨s, .proxyFixup r, (), s'⟩ ∧
        At t hooks (.exchanging (r.map SubRequest.pool)) s' := by
  obtain ⟨method, hmethod⟩ := Option.isSome_iff_exists.mp A.method
  obtain ⟨data, hotel, hserver⟩ := A.exists_otel (by simp)
  have hproxy : s.request.otelProxy = none := A.otelProxy
  rw [runHook, proxyFixupHandler]
  simp only [hotel, hproxy, hserver, hmethod]
  refine ⟨_, rfl, ?_, ?_⟩
  · constructor
    · rfl
    · rw [← List.getElem?_map]
      refine (congrArg (·[s.tracer.spans.length]?) (kinds_startSpan config _ _ _)).trans ?_
      rw [List.getElem?_map]
      exact congrArg (Option.map Span.kind) List.getElem?_concat_length
    · refine ⟨t.spans.length, ?_, ?_⟩
      · dsimp only
        rw [hotel]
        exact hserver
      · rw [← List.getElem?_map]
        refine (congrArg (·[s.tracer.spans.length]?)
          (startSpan_onlyDescribes config _ _ _).parents).trans ?_
        rw [List.getElem?_map]
        exact congrArg (Option.map Span.parent) List.getElem?_concat_length
    · exact injectOutbound_eq sdk config rfl _
  · constructor
    · rfl
    · exact congrArg some hserver
    · exact congrArg (fun n => some (ExtraRequestData.mk none (some n) _)) A.length
    · refine (startSpan_onlyDescribes config _ _ _).length.trans ?_
      refine List.length_append.trans ?_
      rw [A.length]
      rfl
    · exact (startSpan_onlyDescribes config _ _ _).ended.trans A.ended
    · intro pool h
      obtain ⟨sub, rfl, rfl⟩ := Option.map_eq_some_iff.mp (Stage.exchanging.inj h)
      exact A.protocol.2.1 sub rfl
    · exact A.protocol.2.2

/-- An exchange at another stage does not get its own span. -/
theorem At.proxyFixup_declined {r : Option SubRequest} (A : At t (.proxyFixup r :: hooks) stage s)
    (hnext : stage.next (.proxyFixup r) = none) {s' : Serving}
    (h : runHook sdk config s (.proxyFixup r) = some s') :
    ¬ OwnSpan sdk config ⟨s, .proxyFixup r, (), s'⟩ := by
  rw [runHook, proxyFixupHandler] at h
  intro hown
  have hrecord := hown.record
  cases stage with
  | fresh =>
    rw [A.otel_fresh] at h
    obtain rfl := Option.some.inj h
    dsimp only at hrecord
    rw [A.otelProxy] at hrecord
    cases hrecord
  | started => cases hnext
  | exchanging pool => cases A.protocol.1
  | exchanged pool =>
    obtain ⟨data, hotel, -⟩ := A.exists_otel (by simp)
    rw [hotel, A.otelProxy] at h
    obtain rfl := Option.some.inj h
    dsimp only at hrecord
    rw [A.otelProxy] at hrecord
    cases hrecord

/-- The end of an exchange ends its span. -/
theorem At.proxyEnd {status : Option Int32} {r : Option SubRequest} {pool : Option ℕ}
    (A : At t (.proxyEnd status r :: hooks) (.exchanging pool) s) :
    ∃ s', runHook sdk config s (.proxyEnd status r) = some s' ∧
      At t hooks (.exchanged pool) s' := by
  have hproxy : s.request.otelProxy = some ⟨none, some (t.spans.length + 1), pool⟩ := A.otelProxy
  have hholds : s.request.holds ⟨none, some (t.spans.length + 1), pool⟩ := by
    rw [Request.holds]
    cases pool with
    | none => rfl
    | some pool => exact decide_eq_true (A.held pool rfl)
  simp only [runHook, proxyEndHandler, hproxy, hholds, if_true, destruct]
  refine ⟨_, rfl, A.method, A.otel, rfl, ?_, ?_, (fun pool h => by cases h), A.protocol.2⟩
  · refine (endSpan_onlyDescribes _ _ _).length.trans ?_
    split
    · exact (Tracer.OnlyDescribes.setStatus _ _ _ _).length.trans A.length
    · exact A.length
  · refine congrArg (· ++ [t.spans.length + 1]) ((endSpan_onlyDescribes _ _ _).ended.trans ?_)
    have hended : s.tracer.ended = t.ended := A.ended.trans (List.append_nil _)
    split
    · exact hended
    · exact hended

/-- No exchange but one with a span ends. -/
theorem At.exchanging_of_proxyEnd {status : Option Int32} {r : Option SubRequest}
    (A : At t (.proxyEnd status r :: hooks) stage s) : ∃ pool, stage = .exchanging pool := by
  cases stage with
  | exchanging pool => exact ⟨pool, rfl⟩
  | fresh | started | exchanged pool => cases A.protocol.1

/-! ### All hooks -/

/-- What goes on at a stage where the machine takes the hook. -/
theorem At.goes (hended : ∀ n ∈ t.ended, n < t.spans.length) (hook : Hook) (hooks : List Hook)
    (stage stage' : Stage) (s : Serving) (A : At t (hook :: hooks) stage s)
    (hnext : stage.next hook = some stage') :
    ∃ u s', hookStep sdk config s hook = some (u, s') ∧ RightHook sdk config ⟨s, hook, u, s'⟩ ∧
      At t hooks stage' s' := by
  have hserver (n : ℕ) (h : n ∈ (s.request.otel.bind ExtraRequestData.span).toList) :
      n ∉ s.tracer.ended := by
    by_cases hstage : stage = .fresh
    · subst hstage
      rw [A.otel_fresh] at h
      cases h
    · obtain ⟨data, hdata, hspan⟩ := A.exists_otel hstage
      rw [hdata, Option.bind_some, hspan] at h
      obtain rfl := List.mem_singleton.mp h
      exact A.server_live hended
  have hothers {s' : Serving} (hfixup : ∀ r, hook ≠ .proxyFixup r)
      (hlive : ∀ n ∈ operands s hook, n ∉ s.tracer.ended) :
      RightHook sdk config ⟨s, hook, (), s'⟩ :=
    ⟨hlive, fun r h => absurd h (hfixup r)⟩
  cases hook with
  | handler =>
    obtain ⟨stage₁, s', hnext₁, hs', A'⟩ := A.handler
    obtain rfl := Option.some.inj (hnext.symm.trans hnext₁)
    exact ⟨(), s', congrArg _ hs', hothers (by simp) (by simp [operands]), A'⟩
  | logTransaction =>
    have hsame : stage.next .logTransaction = some stage := by cases stage <;> rfl
    obtain rfl := Option.some.inj (hsame.symm.trans hnext)
    obtain ⟨s', hs', A'⟩ := A.logTransaction
    exact ⟨(), s', congrArg _ hs', hothers (by simp) hserver, A'⟩
  | proxyFixup r =>
    have hstarted : stage = .started := by
      cases stage with
      | started => rfl
      | fresh | exchanging pool | exchanged pool => cases hnext
    subst hstarted
    obtain rfl := Option.some.inj hnext
    obtain ⟨s', hs', hown, A'⟩ := A.proxyFixup
    refine ⟨(), s', congrArg _ hs', ⟨fun n hn => ?_, fun r' h => ?_⟩, A'⟩
    · dsimp only [operands] at hn
      rw [A.otelProxy] at hn
      exact hserver n hn
    · exact hown
  | proxyEnd status r =>
    obtain ⟨pool, rfl⟩ := A.exchanging_of_proxyEnd
    obtain rfl := Option.some.inj hnext
    obtain ⟨s', hs', A'⟩ := A.proxyEnd
    refine ⟨(), s', congrArg _ hs', hothers (by simp) fun n hn => ?_, A'⟩
    dsimp only [operands] at hn
    rw [A.otelProxy] at hn
    obtain rfl := List.mem_singleton.mp hn
    rw [A.ended, List.mem_append]
    rintro (hmem | hmem)
    · exact Nat.not_succ_lt_self (hended _ hmem)
    · cases hmem
  | destroySubPool pool =>
    have hsame : stage.next (.destroySubPool pool) = some stage := by cases stage <;> rfl
    obtain rfl := Option.some.inj (hsame.symm.trans hnext)
    obtain ⟨s', hs', A'⟩ := A.destroySubPool
    exact ⟨(), s', congrArg _ hs', hothers (by simp) (by simp [operands]), A'⟩

/-- Where the machine sticks, an exchange does not get its own span. -/
theorem At.sticks (hook : Hook) (hooks : List Hook) (stage : Stage) (s : Serving) (u : Unit)
    (s' : Serving)
    (A : At t (hook :: hooks) stage s) (hnext : stage.next hook = none)
    (hstep : hookStep sdk config s hook = some (u, s')) :
    ¬ RightHook sdk config ⟨s, hook, u, s'⟩ := by
  obtain ⟨s₁, hs', hpair⟩ := Option.map_eq_some_iff.mp hstep
  obtain rfl : s₁ = s' := (Prod.mk.inj hpair).2
  intro hright
  cases hook with
  | proxyFixup r => exact A.proxyFixup_declined hnext hs' (hright.own r rfl)
  | proxyEnd status r =>
    obtain ⟨pool, rfl⟩ := A.exchanging_of_proxyEnd
    cases hnext
  | handler | logTransaction | destroySubPool pool => cases stage <;> cases hnext

theorem destruct_started {data : ExtraRequestData} {n : ℕ} (h : data.span = some n) (t : Tracer) :
    (destruct data t).2 = t.endSpan n := by
  simp only [destruct, h]

/-- The cleanups end what is open, unless the record of the exchange went with a
subrequest's pool. -/
theorem At.ends (stage : Stage) (s : Serving) (A : At t [] stage s) :
    (∃ t', destroyPool s = some t' ∧ EndedOnce t t') ↔ stage.Accepting := by
  have hlength := A.length
  have hended := A.ended
  rw [destroyPool, A.otelProxy]
  cases stage with
  | fresh =>
    rw [A.otel_fresh]
    refine iff_of_true ⟨s.tracer, rfl, [], hended, ?_⟩ trivial
    rw [hlength, Stage.spans, Nat.add_zero, Nat.sub_self]
    exact .nil
  | started =>
    obtain ⟨data, hdata, hspan⟩ := A.exists_otel (by simp)
    rw [hdata]
    refine iff_of_true ⟨s.tracer.endSpan t.spans.length, congrArg some (destruct_started hspan _),
      ?_⟩ trivial
    refine ⟨[t.spans.length], ?_, ?_⟩
    · exact congrArg (· ++ [t.spans.length]) (hended.trans (List.append_nil _))
    · rw [Tracer.endSpan, hlength, Stage.spans, Nat.add_sub_cancel_left]
      exact .refl _
  | exchanging pool => cases A.protocol
  | exchanged pool =>
    obtain ⟨data, hdata, hspan⟩ := A.exists_otel (by simp)
    rw [hdata]
    cases pool with
    | none =>
      -- the record lies in the main pool, and its span is ended already
      refine iff_of_true ⟨s.tracer.endSpan t.spans.length, congrArg some (destruct_started hspan _),
        ?_⟩ rfl
      refine ⟨[t.spans.length + 1, t.spans.length], ?_, ?_⟩
      · rw [Tracer.endSpan, hended, Stage.ended, List.append_assoc]
        rfl
      · rw [Tracer.endSpan, hlength, Stage.spans, Nat.add_sub_cancel_left]
        exact .swap _ _ _
    | some pool =>
      refine iff_of_false ?_ (Option.some_ne_none pool)
      rintro ⟨t', ht', -⟩
      cases ht'

/-- The machine accepts the hooks from a stage. -/
def Stage.Accepts (stage : Stage) (hooks : List Hook) : Prop :=
  ∃ stage', hooks.foldlM Stage.next stage = some stage' ∧ stage'.Accepting

theorem Stage.accepts_cons {hook : Hook} {stage stage' : Stage}
    (hnext : stage.next hook = some stage') :
    stage.Accepts (hook :: hooks) ↔ stage'.Accepts hooks := by
  rw [Stage.Accepts, List.foldlM_cons, hnext]
  rfl

theorem Stage.not_accepts {hook : Hook} (hnext : stage.next hook = none) :
    ¬ stage.Accepts (hook :: hooks) := by
  rintro ⟨stage', h, -⟩
  rw [List.foldlM_cons, hnext] at h
  cases h

/-- What the machine accepts from each of its stages. -/
def Stage.Accepted : Stage → List Hook → Prop
  | .fresh, hooks => OneMainExchange hooks
  | .started, hooks => exchanges hooks = [] ∨ exchanges hooks = [none]
  | .exchanging pool, hooks => exchanges hooks = [] ∧ pool = none
  | .exchanged pool, hooks => exchanges hooks = [] ∧ pool = none

/-- A hook that is no matter for the exchanges. -/
theorem Stage.accepts_cons_idle {hook : Hook} (hnext : stage.next hook = some stage)
    (hexchanges : exchanges (hook :: hooks) = exchanges hooks)
    (hbefore : exchanges (beforeHandler (hook :: hooks)) = exchanges (beforeHandler hooks))
    (ih : stage.Accepts hooks ↔ stage.Accepted hooks) :
    stage.Accepts (hook :: hooks) ↔ stage.Accepted (hook :: hooks) := by
  rw [accepts_cons hnext, ih]
  cases stage with
  | fresh =>
    exact ⟨fun h => ⟨hbefore.trans h.1, hexchanges ▸ h.2⟩,
      fun h => ⟨hbefore.symm.trans h.1, hexchanges ▸ h.2⟩⟩
  | started | exchanging pool | exchanged pool => rw [Accepted, Accepted, hexchanges]

theorem Stage.accepts_iff {gone : List ℕ} (hprotocol : Protocol stage.opened gone hooks) :
    stage.Accepts hooks ↔ stage.Accepted hooks := by
  induction hooks generalizing stage gone with
  | nil =>
    cases stage with
    | fresh => exact iff_of_true ⟨_, rfl, trivial⟩ ⟨rfl, .inl rfl⟩
    | started => exact iff_of_true ⟨_, rfl, trivial⟩ (.inl rfl)
    | exchanging pool => cases hprotocol
    | exchanged pool =>
      refine ⟨?_, fun h => ⟨_, rfl, h.2⟩⟩
      rintro ⟨stage', hstage', haccepting⟩
      obtain rfl := Option.some.inj hstage'
      exact ⟨rfl, haccepting⟩
  | cons hook hooks ih =>
    cases hook with
    | handler =>
      cases stage with
      | fresh =>
        rw [accepts_cons rfl, @ih .started gone hprotocol]
        exact ⟨fun h => ⟨rfl, h⟩, fun h => h.atMostOne⟩
      | started | exchanging pool | exchanged pool =>
        rw [accepts_cons rfl, ih hprotocol]
        exact Iff.rfl
    | logTransaction =>
      have hsame : stage.next .logTransaction = some stage := by cases stage <;> rfl
      exact accepts_cons_idle hsame rfl rfl (ih hprotocol)
    | destroySubPool pool =>
      have hsame : stage.next (.destroySubPool pool) = some stage := by cases stage <;> rfl
      exact accepts_cons_idle hsame rfl rfl (ih hprotocol.2)
    | proxyFixup r =>
      cases stage with
      | fresh =>
        refine iff_of_false (not_accepts rfl) fun h => ?_
        cases h.started
      | started =>
        rw [accepts_cons rfl, @ih (.exchanging (r.map SubRequest.pool)) gone hprotocol.2.2]
        constructor
        · rintro ⟨hnone, hpool⟩
          obtain rfl := Option.map_eq_none_iff.mp hpool
          exact .inr (congrArg _ hnone)
        · rintro (h | h)
          · cases h
          · obtain ⟨rfl, hnone⟩ := List.cons.inj h
            exact ⟨hnone, rfl⟩
      | exchanging pool => cases hprotocol.1
      | exchanged pool =>
        refine iff_of_false (not_accepts rfl) fun h => ?_
        cases h.1
    | proxyEnd status r =>
      cases stage with
      | exchanging pool =>
        rw [accepts_cons rfl, @ih (.exchanged pool) gone hprotocol.2]
        exact Iff.rfl
      | fresh | started | exchanged pool => cases hprotocol.1

/-- **The outbound spans.**  The hooks of a main request and its subrequests keep to the
spans and the pools exactly when there is at most one exchange, of the main request and
after its server span is started. -/
theorem outbound_iff (hended : ∀ n ∈ t.ended, n < t.spans.length) {main : RequestRec}
    (hmethod : main.method.isSome) (hprotocol : Protocol none [] hooks) :
    OutboundSpans sdk config t main hooks ↔ OneMainExchange hooks := by
  have hinit : At t hooks .fresh ⟨t, ⟨main, none, none, []⟩⟩ :=
    ⟨hmethod, rfl, rfl, rfl, (List.append_nil _).symm, (fun pool h => by cases h), hprotocol⟩
  refine (Run.ofCalls_iff (At.goes hended) At.sticks At.ends hinit).trans ?_
  exact @Stage.accepts_iff hooks .fresh [] hprotocol

/-- A request that is proxied itself. -/
theorem outbound_sample :
    OutboundSpans sampleSdk (sampleConfig true) Tracer.init (sampleRequest []).main
      (.handler :: mainHooks 0 (some (some 200))) := by
  have hprotocol : Protocol none [] (.handler :: mainHooks 0 (some (some 200))) :=
    ⟨rfl, (fun sub h => by cases h), rfl, rfl⟩
  exact (outbound_iff (fun n hn => by cases hn) rfl hprotocol).mpr ⟨rfl, .inr rfl⟩

def sampleSubRequest (pool : ℕ) : SubRequest := ⟨pool, ascii "localhost", 200, none⟩

/-- A page that includes two proxied ones. -/
def sampleIncludes : List Hook :=
  [.handler, .proxyFixup (some (sampleSubRequest 1)), .proxyEnd none (some (sampleSubRequest 1)),
    .destroySubPool 1, .proxyFixup (some (sampleSubRequest 2)),
    .proxyEnd none (some (sampleSubRequest 2)), .destroySubPool 2, .logTransaction]

/-- The second exchange finds the record of the first one, which is gone. -/
theorem second_include_undefined :
    Protocol none [] sampleIncludes ∧
      Run.ofCalls (hookStep sampleSdk (sampleConfig true))
        ⟨Tracer.init, ⟨(sampleRequest []).main, none, none, []⟩⟩
        sampleIncludes = none ∧
      ¬ OutboundSpans sampleSdk (sampleConfig true) Tracer.init (sampleRequest []).main
        sampleIncludes := by
  have hprotocol : Protocol none [] sampleIncludes := by
    refine ⟨rfl, by simp, rfl, by simp, rfl, ?_, rfl, by simp, rfl⟩
    rintro sub hsub hmem
    obtain rfl := Option.some.inj hsub
    simp [sampleSubRequest] at hmem
  have hundefined : Run.ofCalls (hookStep sampleSdk (sampleConfig true))
      ⟨Tracer.init, ⟨(sampleRequest []).main, none, none, []⟩⟩ sampleIncludes = none := rfl
  refine ⟨hprotocol, hundefined, ?_⟩
  rintro ⟨r, hr, -⟩
  rw [hundefined] at hr
  cases hr

end Httpd

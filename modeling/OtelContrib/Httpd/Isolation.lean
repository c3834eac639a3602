/-
Main requests that one httpd worker thread serves one after another.

The context that `opentel_handler` attaches for an inbound header is not detached when
the request's pool goes: `Destruct` releases the token instead of destroying it.

* `server_parent` — the parent of a request's server span is the latest remote context
  that any request of the thread, this one included, brought and the configuration
  accepted;
* `isolated_iff` — requests leave nothing behind exactly when the configuration
  accepts no inbound contexts.
-/
import OtelContrib.Httpd.ModOtel
import OtelContrib.Lib.Runs

open ContextStack Otel

namespace Httpd

/-! ### What the hooks leave alone -/

/-- The same contexts are attached, and spans that were there have the parents they had. -/
structure Keeps (t t' : Tracer) : Prop where
  entries : t'.contexts.entries = t.contexts.entries
  parents : (t.spans.map Span.parent) <+: (t'.spans.map Span.parent)

namespace Keeps

theorem refl (t : Tracer) : Keeps t t := ⟨rfl, List.prefix_rfl⟩

theorem trans {t t' t'' : Tracer} (h : Keeps t t') (h' : Keeps t' t'') : Keeps t t'' :=
  ⟨h'.entries.trans h.entries, h.parents.trans h'.parents⟩

theorem of_onlyDescribes {t t' : Tracer} (h : t.OnlyDescribes t') : Keeps t t' :=
  ⟨congrArg Stack.entries h.contexts, h.parents ▸ List.prefix_rfl⟩

theorem endSpan (t : Tracer) (n : ℕ) : Keeps t (t.endSpan n) := ⟨rfl, List.prefix_rfl⟩

theorem startSpanUnder (t : Tracer) (parent : Option SpanContext) (name : Bytes) (kind : SpanKind)
    (attributes : Attributes) : Keeps t (t.startSpanUnder parent name kind attributes).2 := by
  refine ⟨rfl, ?_⟩
  rw [Tracer.startSpanUnder, List.map_append]
  exact List.prefix_append _ _

theorem detach_withActiveSpan (t : Tracer) (n : ℕ) :
    Keeps t ((t.withActiveSpan n).2.detach ownEntry (t.withActiveSpan n).1) :=
  ⟨t.detach_withActiveSpan n, List.prefix_rfl⟩

/-- A span that was there still has its parent. -/
theorem parent {t t' : Tracer} (h : Keeps t t') {n : ℕ} {parent : Option SpanContext}
    (hn : t.spans[n]?.map Span.parent = some parent) :
    t'.spans[n]?.map Span.parent = some parent := by
  rw [← List.getElem?_map] at hn ⊢
  obtain ⟨later, hlater⟩ := h.parents
  rw [← hlater]
  exact List.getElem?_append_left (List.getElem?_eq_some_iff.mp hn).1 |>.trans hn

end Keeps

open Tracer.OnlyDescribes in
theorem setNonEmpty_onlyDescribes (t : Tracer) (n : ℕ) (key value : Bytes) :
    t.OnlyDescribes (setNonEmpty t n key value) :=
  ite (refl t) (setAttribute t n _ _)

open Tracer.OnlyDescribes in
theorem startSpan_onlyDescribes (config : OtelConfig) (t : Tracer) (n : ℕ)
    (attrs : HttpdStartSpanAttributes) : t.OnlyDescribes (startSpan config t n attrs) := by
  rw [startSpan]
  refine trans ?_ (addAttributes _ n [] config.attributes)
  refine trans ?_ (ite (setAttribute _ n _ _) (refl _))
  refine trans ?_ (setAttribute _ n _ _)
  refine trans ?_ (setNonEmpty_onlyDescribes _ n _ attrs.flavor)
  refine trans ?_ (setNonEmpty_onlyDescribes _ n _ attrs.url)
  refine trans ?_ (setNonEmpty_onlyDescribes _ n _ attrs.target)
  refine trans ?_ (setNonEmpty_onlyDescribes _ n _ attrs.host)
  refine trans ?_ (setNonEmpty_onlyDescribes _ n _ attrs.scheme)
  refine trans ?_ (setNonEmpty_onlyDescribes _ n _ attrs.method)
  exact setAttribute t n _ _

open Tracer.OnlyDescribes in
theorem endSpan_onlyDescribes (t : Tracer) (n : ℕ) (attrs : HttpdEndSpanAttributes) :
    t.OnlyDescribes (endSpan t n attrs) :=
  (setAttribute t n _ _).trans (setAttribute _ n _ _)

theorem destruct_keeps (data : ExtraRequestData) (t : Tracer) : Keeps t (destruct data t).2 := by
  rw [destruct]
  split
  · exact Keeps.endSpan t _
  · exact Keeps.refl t

variable {sdk : Sdk} {config : OtelConfig}

/-- After the first hook of a request, the others keep everything. -/
theorem runHook_keeps (hrule : sdk.detachRule = ownEntry) {s s' : Serving} {hook : Hook}
    (hstarted : s.request.otel.isSome) (h : runHook sdk config s hook = some s') :
    Keeps s.tracer s'.tracer ∧ s'.request.otel.isSome := by
  cases hook with
  | handler =>
    -- the request is started already, so that the handler declines
    rw [runHook, opentelHandler, if_pos hstarted] at h
    cases h
    exact ⟨Keeps.refl _, hstarted⟩
  | logTransaction =>
    simp only [runHook, opentelLogTransaction] at h
    split at h
    · cases h
      exact ⟨Keeps.refl _, hstarted⟩
    · split at h
      · cases h
      · cases h
        exact ⟨Keeps.of_onlyDescribes (endSpan_onlyDescribes _ _ _), hstarted⟩
  | proxyFixup r =>
    simp only [runHook, proxyFixupHandler] at h
    split at h
    · cases h
      exact ⟨Keeps.refl _, hstarted⟩
    · cases h
      exact ⟨Keeps.refl _, hstarted⟩
    · split at h
      · cases h
        refine ⟨?_, hstarted⟩
        rw [hrule]
        -- the scope of the outbound span is destroyed within the handler
        refine Keeps.trans ?_ (Keeps.detach_withActiveSpan _ _)
        refine Keeps.trans ?_ (Keeps.of_onlyDescribes (startSpan_onlyDescribes config _ _ _))
        exact Keeps.startSpanUnder _ _ _ _ _
      · cases h
  | proxyEnd status r =>
    simp only [runHook, proxyEndHandler] at h
    split at h
    · cases h
      exact ⟨Keeps.refl _, hstarted⟩
    · split at h
      · split at h
        · cases h
        · cases h
          refine ⟨?_, hstarted⟩
          -- the outbound span is described and ended; nothing of it was attached
          refine Keeps.trans ?_ (destruct_keeps _ _)
          refine Keeps.trans ?_ (Keeps.of_onlyDescribes (endSpan_onlyDescribes _ _ _))
          split
          · exact Keeps.of_onlyDescribes (Tracer.OnlyDescribes.setStatus _ _ _ _)
          · exact Keeps.refl _
      · cases h
  | destroySubPool pool =>
    cases h
    exact ⟨Keeps.refl _, hstarted⟩

/-! ### One request -/

variable (sdk config) in
def runHooks (s : Serving) (hooks : List Hook) : Option Serving :=
  hooks.foldlM (runHook sdk config) s

theorem runHooks_keeps (hrule : sdk.detachRule = ownEntry) {s s' : Serving} {hooks : List Hook}
    (hstarted : s.request.otel.isSome) (h : runHooks sdk config s hooks = some s') :
    Keeps s.tracer s'.tracer := by
  induction hooks generalizing s with
  | nil =>
    cases h
    exact Keeps.refl _
  | cons hook hooks ih =>
    rw [runHooks, List.foldlM_cons] at h
    obtain ⟨s₁, hhook, hhooks⟩ := Option.bind_eq_some_iff.mp h
    obtain ⟨hkeeps, hstarted₁⟩ := runHook_keeps hrule hstarted hhook
    exact hkeeps.trans (ih hstarted₁ hhooks)

theorem destroyPool_keeps {s : Serving} {t : Tracer} (h : destroyPool s = some t) :
    Keeps s.tracer t := by
  obtain ⟨t₁, hproxied, rfl⟩ := Option.map_eq_some_iff.mp h
  have hkeeps : Keeps s.tracer t₁ := by
    split at hproxied
    · cases hproxied
      exact Keeps.refl _
    · split at hproxied
      · cases hproxied
        exact destruct_keeps _ _
      · cases hproxied
  split
  · exact hkeeps
  · exact hkeeps.trans (destruct_keeps _ _)

/-- A main request: its record, and the hooks that follow its first one, which is
`opentel_handler`. -/
structure MainRequest where
  main : RequestRec
  later : List Hook

/-- The request is served, and its pool is destroyed. -/
def serve (sdk : Sdk) (config : OtelConfig) (t : Tracer) (q : MainRequest) :
    Option (Unit × Tracer) :=
  ((runHooks sdk config ⟨t, ⟨q.main, none, none, []⟩⟩ (.handler :: q.later)).bind destroyPool).map
    fun t => ((), t)

/-- The remote context of a request, if it brings one and it is accepted. -/
def MainRequest.inbound (sdk : Sdk) (config : OtelConfig) (q : MainRequest) :
    Option RemoteContext :=
  inboundContext sdk config q.main.headers_in

variable (sdk config) in
theorem attachInbound_spec (t : Tracer) (headers_in : AprTable) :
    (attachInbound sdk config t headers_in).2.spans = t.spans ∧
      (attachInbound sdk config t headers_in).2.contexts.current.span =
        ((inboundContext sdk config headers_in).map .remote).or t.contexts.current.span ∧
      ∃ added, (attachInbound sdk config t headers_in).2.contexts.entries =
          added ++ t.contexts.entries ∧ added.length = config.acceptsInbound.toNat := by
  rw [attachInbound]
  by_cases haccepts : config.acceptsInbound
  · obtain ⟨hspan, hentries, -⟩ := extractContext_spec [inboundContext sdk config headers_in]
      t.contexts.current t.contexts
    rw [if_pos haccepts]
    refine ⟨rfl, ?_, [_], congrArg (_ :: ·) hentries, by simp [haccepts]⟩
    refine hspan.trans ?_
    cases inboundContext sdk config headers_in with
    | none => rfl
    | some remote => rfl
  · rw [if_neg haccepts, inboundContext, if_neg haccepts]
    exact ⟨rfl, rfl, [], rfl, by simp [haccepts]⟩

/-- What serving a request does: its server span has the accepted remote context as
its parent, and else what an earlier request left; and one context stays attached if
contexts are accepted. -/
theorem serve_spec (hrule : sdk.detachRule = ownEntry) {t t' : Tracer} {q : MainRequest}
    (h : serve sdk config t q = some ((), t')) :
    t'.spans[t.spans.length]?.map Span.parent =
        some (((q.inbound sdk config).map .remote).or t.contexts.current.span) ∧
      t'.contexts.current.span =
        ((q.inbound sdk config).map .remote).or t.contexts.current.span ∧
      ∃ added, t'.contexts.entries = added ++ t.contexts.entries ∧
        added.length = config.acceptsInbound.toNat := by
  obtain ⟨t₁, hserved, hpair⟩ := Option.map_eq_some_iff.mp h
  cases hpair
  obtain ⟨s₂, hhooks, hdestroy⟩ := Option.bind_eq_some_iff.mp hserved
  rw [runHooks, List.foldlM_cons] at hhooks
  obtain ⟨s₁, hhandler, hlater⟩ := Option.bind_eq_some_iff.mp hhooks
  obtain ⟨hspans, hcurrent, added, hentries, hlength⟩ :=
    attachInbound_spec sdk config t q.main.headers_in
  simp only [runHook, opentelHandler, Option.isSome_none, Bool.false_eq_true, if_false] at hhandler
  rcases hmethod : q.main.method with _ | method
  · simp [hmethod] at hhandler
  · simp only [hmethod] at hhandler
    cases hhandler
    -- from the start of the server span on, no context is attached or detached
    have hkeeps := ((Keeps.of_onlyDescribes (startSpan_onlyDescribes config _ _ _)).trans
      (runHooks_keeps hrule rfl hlater)).trans (destroyPool_keeps hdestroy)
    have hstack : t'.contexts.entries = added ++ t.contexts.entries :=
      hkeeps.entries.trans hentries
    refine ⟨hkeeps.parent ?_, ?_, added, hstack, hlength⟩
    · rw [MainRequest.inbound, ← hcurrent, ← hspans]
      exact congrArg (Option.map Span.parent) List.getElem?_concat_length
    · rw [MainRequest.inbound, ← hcurrent, Stack.current, Stack.current, hstack, hentries]

/-- The hooks of a main request after the first: the handler any number of times again,
an exchange with a backend if there is one, and the log. -/
def mainHooks (again : ℕ) (proxied : Option (Option Int32)) : List Hook :=
  List.replicate again .handler ++
    (proxied.elim [] fun status => [.proxyFixup none, .proxyEnd status none]) ++ [.logTransaction]

/-- Such a request is served to its end. -/
theorem serve_mainHooks (t : Tracer) {q : MainRequest} (hmethod : q.main.method.isSome)
    {again : ℕ} {proxied : Option (Option Int32)} (hlater : q.later = mainHooks again proxied) :
    (serve sdk config t q).isSome := by
  obtain ⟨method, hmethod⟩ := Option.isSome_iff_exists.mp hmethod
  have hagain : ∀ (n : ℕ) (s : Serving), s.request.otel.isSome →
      (List.replicate n Hook.handler).foldlM (runHook sdk config) s = some s := by
    intro n s hstarted
    induction n with
    | zero => rfl
    | succ n ih =>
      rw [List.replicate_succ, List.foldlM_cons, runHook, opentelHandler, if_pos hstarted]
      exact ih
  cases proxied with
  | none =>
    simp [serve, runHooks, hlater, mainHooks, runHook, opentelHandler, hmethod, hagain,
      opentelLogTransaction, destroyPool]
  | some status =>
    simp [serve, runHooks, hlater, mainHooks, runHook, opentelHandler, hmethod, hagain,
      proxyFixupHandler, proxyEndHandler, Request.holds, destruct, opentelLogTransaction,
      destroyPool]

/-! ### One request after the other -/

abbrev RequestTransition := Transition Tracer MainRequest Unit

/-- The remote contexts that were brought and accepted, oldest first. -/
def inboundContexts (sdk : Sdk) (config : OtelConfig) (ts : List RequestTransition) :
    List RemoteContext :=
  ts.filterMap fun q => q.call.inbound sdk config

theorem getLast?_inboundContexts_snoc (ts : List RequestTransition) (q : RequestTransition) :
    (inboundContexts sdk config (ts ++ [q])).getLast? =
      (q.call.inbound sdk config).or (inboundContexts sdk config ts).getLast? := by
  rw [inboundContexts, List.filterMap_append, List.getLast?_append, inboundContexts]
  cases hinbound : q.call.inbound sdk config with
  | none => simp [hinbound]
  | some remote => simp [hinbound]

/-- What is on top when no request is being served: the latest accepted context. -/
theorem current_after (hrule : sdk.detachRule = ownEntry) {ts : List RequestTransition} {t : Tracer}
    (hrun : Run (serve sdk config) Tracer.init ts t) :
    t.contexts.current.span = ((inboundContexts sdk config ts).getLast?).map .remote := by
  refine hrun.invariant (fun ts t =>
    t.contexts.current.span = ((inboundContexts sdk config ts).getLast?).map .remote) rfl ?_
  intro ts t q _ t' hcurrent hserve
  obtain ⟨-, hafter, -⟩ := serve_spec hrule hserve
  rw [getLast?_inboundContexts_snoc, hafter, hcurrent, Option.map_or]

/-- The parent of the server span that a request started. -/
def serverParent (q : RequestTransition) : Option (Option SpanContext) :=
  q.after.spans[q.before.spans.length]?.map Span.parent

/-- The parent of a server span is the latest accepted context of all requests so far. -/
theorem server_parent (hrule : sdk.detachRule = ownEntry) {ts : List RequestTransition} {t : Tracer}
    (hrun : Run (serve sdk config) Tracer.init ts t) {before after : List RequestTransition}
    {q : RequestTransition} (hts : ts = before ++ q :: after) :
    serverParent q =
      some (((inboundContexts sdk config (before ++ [q])).getLast?).map .remote) := by
  obtain ⟨hbefore, hserve⟩ := hrun.reached hts
  obtain ⟨hparent, -⟩ := serve_spec hrule hserve
  rw [serverParent, hparent, current_after hrule hbefore, getLast?_inboundContexts_snoc,
    Option.map_or]

/-- A request that sees nothing of the others: its server span has the remote parent of
its own headers or none, and the stack of contexts is afterwards what it was. -/
def Isolated (sdk : Sdk) (config : OtelConfig) (q : RequestTransition) : Prop :=
  serverParent q = some ((q.call.inbound sdk config).map .remote) ∧
    q.after.contexts.entries = q.before.contexts.entries

/-- **Isolation of main requests.**  The requests of a worker thread are all isolated
exactly when there are none or the configuration accepts no inbound contexts. -/
theorem isolated_iff (hrule : sdk.detachRule = ownEntry) {ts : List RequestTransition} {t : Tracer}
    (hrun : Run (serve sdk config) Tracer.init ts t) :
    (∀ q ∈ ts, Isolated sdk config q) ↔ ts = [] ∨ config.acceptsInbound = false := by
  constructor
  · intro hisolated
    rcases ts with _ | ⟨q, ts⟩
    · exact .inl rfl
    · obtain ⟨-, hserve⟩ := hrun.reached (List.nil_append (q :: ts)).symm
      obtain ⟨-, -, added, hentries, hlength⟩ := serve_spec hrule hserve
      -- the first request is enough: what it attaches stays
      have hsame := (hisolated q List.mem_cons_self).2
      rw [hentries] at hsame
      have hnil : added = [] := by simpa using hsame
      cases haccepts : config.acceptsInbound with
      | false => exact .inr rfl
      | true => simp [haccepts, hnil] at hlength
  · rintro (rfl | hrejects) q hq
    · cases hq
    · have hinbound : ∀ q : MainRequest, q.inbound sdk config = none := by
        intro q
        rw [MainRequest.inbound, inboundContext, hrejects]
        rfl
      obtain ⟨before, after, hts⟩ := List.append_of_mem hq
      obtain ⟨hbefore, hserve⟩ := hrun.reached hts
      obtain ⟨hparent, -, added, hentries, hlength⟩ := serve_spec hrule hserve
      refine ⟨?_, ?_⟩
      · -- nothing was ever attached, so that nothing is on top
        have hnone : inboundContexts sdk config before = [] :=
          List.filterMap_eq_nil_iff.mpr fun q _ => hinbound q.call
        rw [serverParent, hparent, current_after hrule hbefore, hnone, hinbound]
        rfl
      · rw [hrejects] at hlength
        rw [hentries, List.eq_nil_of_length_eq_zero hlength, List.nil_append]

/-- An SDK in which a token stands for its own entry, with the trace context format for
one trace; the B3 formats find nothing. -/
def sampleSdk : Sdk where
  PropagatorTraceContext :=
    { extract := fun get => parseTraceparent (get (ascii "traceparent"))
      inject := fun
        | none => []
        | some (.started n) => [(ascii "traceparent", traceparent ⟨1, n + 1, true⟩)]
        | some (.remote c) => [(ascii "traceparent", traceparent c)] }
  PropagatorB3SingleHeader := ⟨fun _ => none, fun _ => []⟩
  PropagatorB3MultiHeader := ⟨fun _ => none, fun _ => []⟩
  detachRule := ownEntry
  isSampled _ := true
  spanId
    | .started n => toHex 16 (n + 1)
    | .remote c => toHex 16 c.spanId
  traceId
    | .started _ => toHex 32 1
    | .remote c => toHex 32 c.traceId
  traceState _ := []

/-- A plain request with the given headers. -/
def sampleRequest (headers_in : AprTable) : MainRequest where
  main :=
    { server_hostname := ascii "localhost", method := some (ascii "GET"),
      http_scheme := ascii "http"
      hostname := some (ascii "localhost"), unparsed_uri := some (ascii "/"), proto_num := 1001
      useragent_ip := ascii "127.0.0.1", client_ip := ascii "127.0.0.1", filename := ascii "/"
      headers_in := headers_in, subprocess_env := [], status := 200, bytes_sent := 45
      error_notes := none }
  later := mainHooks 0 none

def sampleConfig (ignore_inbound : Bool) : OtelConfig := ⟨ignore_inbound, .TRACE_CONTEXT, ∅⟩

/-- A request with a `traceparent` and then one without. -/
def sampleRequests : List MainRequest :=
  [sampleRequest [(ascii "traceparent",
      ascii "00-00112233445566778899aabbccddeeff-0101010101010101-01")],
    sampleRequest []]

theorem isolated_sample :
    ∃ ts t, Run (serve sampleSdk (sampleConfig true)) Tracer.init ts t ∧
      t.spans.map Span.parent = [none, none] ∧
      ∀ q ∈ ts, Isolated sampleSdk (sampleConfig true) q := by
  have hrun : ∃ r, Run.ofCalls (serve sampleSdk (sampleConfig true)) Tracer.init sampleRequests
      = some r ∧ r.2.spans.map Span.parent = [none, none] :=
    ⟨_, rfl, rfl⟩
  obtain ⟨r, hr, hparents⟩ := hrun
  exact ⟨r.1, r.2, Run.of_ofCalls hr, hparents,
    (isolated_iff rfl (Run.of_ofCalls hr)).mpr (.inr rfl)⟩

/-- With inbound contexts accepted, the second request ends up under the first one's
remote parent, and two contexts stay behind. -/
theorem header_leaks_into_next_request :
    ∃ ts t, Run (serve sampleSdk (sampleConfig false)) Tracer.init ts t ∧
      t.spans.map Span.parent =
        [some (.remote ⟨0x00112233445566778899aabbccddeeff, 0x0101010101010101, true⟩),
          some (.remote ⟨0x00112233445566778899aabbccddeeff, 0x0101010101010101, true⟩)] ∧
      t.contexts.entries.length = 2 ∧ ¬ ∀ q ∈ ts, Isolated sampleSdk (sampleConfig false) q := by
  have hrun : ∃ r, Run.ofCalls (serve sampleSdk (sampleConfig false)) Tracer.init sampleRequests
      = some r ∧ r.2.spans.map Span.parent =
        [some (.remote ⟨0x00112233445566778899aabbccddeeff, 0x0101010101010101, true⟩),
          some (.remote ⟨0x00112233445566778899aabbccddeeff, 0x0101010101010101, true⟩)] ∧
      r.2.contexts.entries.length = 2 ∧
      ¬ ∀ q ∈ r.1, Isolated sampleSdk (sampleConfig false) q := by
    refine ⟨_, rfl, rfl, rfl, fun hisolated => ?_⟩
    have hparent := (hisolated _ (List.mem_cons_of_mem _ List.mem_cons_self)).1
    have hwrong : some (some (SpanContext.remote
        ⟨0x00112233445566778899aabbccddeeff, 0x0101010101010101, true⟩)) = some none := hparent
    cases hwrong
  obtain ⟨r, hr, hparents, hlength, hnot⟩ := hrun
  exact ⟨r.1, r.2, Run.of_ofCalls hr, hparents, hlength, hnot⟩

end Httpd

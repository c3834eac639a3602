/-
What a downstream server reads from the headers that an httpd server forwards.

`proxy_fixup_handler` sets the headers of the configured format in the inbound headers,
which mod_proxy copies; headers of another format stay in them.  `opentel_handler` reads
both B3 formats with one extractor, for which the single header comes first.

* `get_set` — a table after `apr_table_set`, under every key;
* `forwarded_iff` — the forwarded headers carry the client span exactly when the
  configuration is not for the B3 multi-header format or there was no other span in a
  single B3 header.
-/
import OtelContrib.Httpd.Outbound

open ContextStack Otel

namespace Httpd

/-! ### Tables -/

theorem eqIgnoringCase_symm (a b : Bytes) : eqIgnoringCase a b = eqIgnoringCase b a :=
  decide_eq_decide.mpr ⟨Eq.symm, Eq.symm⟩

/-- Keys that are the same are the same as any other key. -/
theorem eqIgnoringCase_congr {a b : Bytes} (h : eqIgnoringCase a b = true) (c : Bytes) :
    eqIgnoringCase a c = eqIgnoringCase b c := by
  have hab := of_decide_eq_true h
  rw [eqIgnoringCase, eqIgnoringCase, hab]

theorem aprTableGet_cons (kv : Bytes × Bytes) (table : AprTable) (key : Bytes) :
    aprTableGet (kv :: table) key =
      if eqIgnoringCase kv.1 key then some kv.2 else aprTableGet table key := by
  rw [aprTableGet, List.find?_cons]
  split
  · rename_i h
    rw [if_pos h]
    rfl
  · rename_i h
    rw [if_neg (by simp [h])]
    rfl

/-- Without the entries of a key, the others are as they were. -/
theorem aprTableGet_filter {key key' : Bytes} (hne : eqIgnoringCase key key' = false)
    (table : AprTable) :
    aprTableGet (table.filter fun kv => !eqIgnoringCase kv.1 key) key' =
      aprTableGet table key' := by
  induction table with
  | nil => rfl
  | cons kv table ih =>
    rw [List.filter_cons, aprTableGet_cons]
    cases hkey : eqIgnoringCase kv.1 key with
    | true =>
      rw [eqIgnoringCase_congr hkey, hne]
      exact ih
    | false =>
      rw [Bool.not_false, if_pos rfl, aprTableGet_cons, ih]

theorem aprTableGet_aprTableSet (table : AprTable) (key value key' : Bytes) :
    aprTableGet (aprTableSet table key value) key' =
      if eqIgnoringCase key key' then some value else aprTableGet table key' := by
  induction table with
  | nil => exact aprTableGet_cons _ _ _
  | cons kv table ih =>
    rw [aprTableSet]
    by_cases hkey : eqIgnoringCase kv.1 key = true
    · rw [if_pos hkey, aprTableGet_cons, aprTableGet_cons, eqIgnoringCase_congr hkey]
      cases hkey' : eqIgnoringCase key key' with
      | true => rfl
      | false => exact aprTableGet_filter hkey' table
    · rw [if_neg hkey, aprTableGet_cons, aprTableGet_cons, ih]
      by_cases hkv : eqIgnoringCase kv.1 key' = true
      · have hne : eqIgnoringCase key key' = false := by
          rw [eqIgnoringCase_symm, ← eqIgnoringCase_congr hkv]
          exact Bool.eq_false_iff.mpr hkey
        rw [if_pos hkv, if_pos hkv, hne]
        rfl
      · rw [if_neg hkv, if_neg hkv]

theorem HttpdCarrier.get_set (table : AprTable) (key value key' : Bytes) :
    HttpdCarrier.get (HttpdCarrier.set table key value) key' =
      if eqIgnoringCase key key' then value else HttpdCarrier.get table key' := by
  rw [HttpdCarrier.get, HttpdCarrier.set, aprTableGet_aprTableSet]
  split <;> rfl

/-- Headers under other keys change nothing. -/
theorem HttpdCarrier.get_foldl_set {headers : AprTable} {kvs : List (Bytes × Bytes)} {key : Bytes}
    (hne : ∀ kv ∈ kvs, eqIgnoringCase kv.1 key = false) :
    HttpdCarrier.get (kvs.foldl (fun headers kv => HttpdCarrier.set headers kv.1 kv.2)
      headers) key =
      HttpdCarrier.get headers key := by
  induction kvs generalizing headers with
  | nil => rfl
  | cons kv kvs ih =>
    refine (ih fun kv' hkv' => hne kv' (List.mem_cons_of_mem _ hkv')).trans ?_
    rw [get_set, hne kv List.mem_cons_self]
    rfl

/-! ### The headers of the SDK -/

/-- What header values stand for, and the contexts of the spans that are started. -/
structure HeaderFormats where
  traceparent : Bytes → Option RemoteContext
  b3 : Bytes → Option RemoteContext
  b3Multi : Bytes → Bytes → Bytes → Option RemoteContext
  context : ℕ → RemoteContext

/-- The propagators as they are documented: which headers they read and set, and that a
value they set stands for the span's context.  The B3 extractor is the same for both
formats; the single header counts when it has a value. -/
structure Sdk.Documented (sdk : Sdk) (formats : HeaderFormats) : Prop where
  extractTraceContext : ∀ get, sdk.PropagatorTraceContext.extract get =
    formats.traceparent (get (ascii "traceparent"))
  extractB3 : ∀ get, sdk.PropagatorB3SingleHeader.extract get =
    if get (ascii "b3") ≠ [] then formats.b3 (get (ascii "b3"))
    else formats.b3Multi (get (ascii "X-B3-TraceId")) (get (ascii "X-B3-SpanId"))
      (get (ascii "X-B3-Sampled"))
  injectTraceContext : ∀ n, ∃ value rest, sdk.PropagatorTraceContext.inject (some (.started n)) =
      (ascii "traceparent", value) :: rest ∧
    (∀ kv ∈ rest, kv.1 = ascii "tracestate") ∧ formats.traceparent value = some (formats.context n)
  injectB3 : ∀ n, ∃ value, sdk.PropagatorB3SingleHeader.inject (some (.started n)) =
      [(ascii "b3", value)] ∧ value ≠ [] ∧ formats.b3 value = some (formats.context n)
  injectB3Multi : ∀ n, ∃ traceId spanId sampled,
    sdk.PropagatorB3MultiHeader.inject (some (.started n)) =
      [(ascii "X-B3-TraceId", traceId), (ascii "X-B3-SpanId", spanId),
        (ascii "X-B3-Sampled", sampled)] ∧
    formats.b3Multi traceId spanId sampled = some (formats.context n)

/-! ### Forwarding -/

/-- The headers stand for a context: the configured extractor reads it from them, and a
server with this configuration starts its span under it. -/
structure StandFor (sdk : Sdk) (config : OtelConfig) (headers : AprTable) (c : RemoteContext) :
    Prop where
  extracted : (inboundPropagator sdk config).extract (HttpdCarrier.get headers) = some c
  parent : config.ignore_inbound = false → ∀ d d' : Serving, d.request.otel = none →
    d.request.main.headers_in = headers → opentelHandler sdk config d = some d' →
    d'.tracer.spans[d.tracer.spans.length]?.map Span.parent = some (some (.remote c))

variable {sdk : Sdk} {config : OtelConfig} {formats : HeaderFormats}

/-- The parent of the server span that the handler starts. -/
theorem parent_of_opentelHandler {d d' : Serving} (hotel : d.request.otel = none)
    (h : opentelHandler sdk config d = some d') :
    d'.tracer.spans[d.tracer.spans.length]?.map Span.parent =
      some (((inboundContext sdk config d.request.main.headers_in).map .remote).or
        d.tracer.contexts.current.span) := by
  obtain ⟨hspans, hcurrent, -⟩ := attachInbound_spec sdk config d.tracer d.request.main.headers_in
  rw [opentelHandler, hotel] at h
  rcases hmethod : d.request.main.method with _ | method
  · simp [hmethod] at h
  · simp only [hmethod, Option.isSome_none, Bool.false_eq_true, if_false] at h
    cases h
    refine (Keeps.of_onlyDescribes (startSpan_onlyDescribes config _ _ _)).parent ?_
    rw [← hcurrent, ← hspans]
    exact congrArg (Option.map Span.parent) List.getElem?_concat_length

theorem standFor_iff (hprop : config.propagation ≠ .NONE) (headers : AprTable) (c : RemoteContext) :
    StandFor sdk config headers c ↔
      (inboundPropagator sdk config).extract (HttpdCarrier.get headers) = some c := by
  refine ⟨StandFor.extracted, fun hextracted => ⟨hextracted, ?_⟩⟩
  rintro hignore d d' hotel rfl hhandler
  have haccepts : config.acceptsInbound = true := by
    rw [OtelConfig.acceptsInbound, hignore]
    exact decide_eq_true hprop
  rw [parent_of_opentelHandler hotel hhandler, inboundContext, if_pos haccepts, hextracted]
  rfl

/-- What the start of an exchange forwards. -/
theorem headers_of_proxyFixupHandler {r : Option SubRequest} {s s' : Serving} {client : ℕ}
    (h : proxyFixupHandler sdk config r s = some s') (hproxy : s.request.otelProxy = none)
    (hclient : s'.request.otelProxy.bind ExtraRequestData.span = some client) :
    s'.request.main.headers_in =
      (outboundPropagator sdk config).elim s.request.main.headers_in fun propagator =>
        injectHeaders propagator (some (.started client)) s.request.main.headers_in := by
  rw [proxyFixupHandler, hproxy] at h
  split at h
  · cases h
    rw [hproxy] at hclient
    cases hclient
  · rename_i heq
    cases heq
  · split at h
    · cases h
      obtain rfl := Option.some.inj hclient
      exact injectOutbound_eq sdk config rfl _
    · cases h

/-- What is read from the headers after each injection. -/
theorem extract_injected (hsdk : sdk.Documented formats) (hprop : config.propagation ≠ .NONE)
    (n : ℕ)
    (headers : AprTable) :
    (inboundPropagator sdk config).extract (HttpdCarrier.get
        ((outboundPropagator sdk config).elim headers fun propagator =>
          injectHeaders propagator (some (.started n)) headers)) =
      if config.propagation = .B3_MULTI_HEADER ∧ HttpdCarrier.get headers (ascii "b3") ≠ [] then
        formats.b3 (HttpdCarrier.get headers (ascii "b3"))
      else some (formats.context n) := by
  cases hconfigured : config.propagation with
  | NONE => exact absurd hconfigured hprop
  | TRACE_CONTEXT =>
    obtain ⟨value, rest, hinject, hrest, hvalue⟩ := hsdk.injectTraceContext n
    simp only [inboundPropagator, outboundPropagator, hconfigured, Option.elim, injectHeaders,
      hinject]
    rw [hsdk.extractTraceContext, List.foldl_cons, HttpdCarrier.get_foldl_set, HttpdCarrier.get_set]
    · exact hvalue
    · intro kv hkv
      rw [hrest kv hkv]
      rfl
  | B3_SINGLE_HEADER =>
    obtain ⟨value, hinject, hvalue, hstands⟩ := hsdk.injectB3 n
    simp only [inboundPropagator, outboundPropagator, hconfigured, Option.elim, injectHeaders,
      hinject]
    have hget : HttpdCarrier.get (HttpdCarrier.set headers (ascii "b3") value) (ascii "b3") =
        value :=
      HttpdCarrier.get_set _ _ _ _
    rw [hsdk.extractB3, List.foldl_cons, List.foldl_nil, hget, if_pos hvalue]
    exact hstands
  | B3_MULTI_HEADER =>
    obtain ⟨traceId, spanId, sampled, hinject, hstands⟩ := hsdk.injectB3Multi n
    simp only [inboundPropagator, outboundPropagator, hconfigured, Option.elim, injectHeaders,
      hinject]
    rw [hsdk.extractB3]
    -- the single header is not set, so that an inbound one stays
    simp only [List.foldl_cons, List.foldl_nil, HttpdCarrier.get_set]
    refine if_congr ?_ rfl hstands
    exact (iff_of_eq (true_and _)).symm

/-- The client span is what the forwarded headers stand for, unless the configuration is
for the B3 multi-header format and a single B3 header came in that does not name the
client span itself. -/
theorem forwarded_iff (hsdk : sdk.Documented formats) (hprop : config.propagation ≠ .NONE)
    {r : Option SubRequest} {s s' : Serving} {client : ℕ} (hproxy : s.request.otelProxy = none)
    (hfixup : proxyFixupHandler sdk config r s = some s')
    (hclient : s'.request.otelProxy.bind ExtraRequestData.span = some client) :
    StandFor sdk config s'.request.main.headers_in (formats.context client) ↔
      (config.propagation = .B3_MULTI_HEADER →
        HttpdCarrier.get s.request.main.headers_in (ascii "b3") = [] ∨
        formats.b3 (HttpdCarrier.get s.request.main.headers_in (ascii "b3")) =
          some (formats.context client)) := by
  rw [standFor_iff hprop, headers_of_proxyFixupHandler hfixup hproxy hclient,
    extract_injected hsdk hprop]
  by_cases hmulti : config.propagation = .B3_MULTI_HEADER
  · by_cases hb3 : HttpdCarrier.get s.request.main.headers_in (ascii "b3") = []
    · simp [hb3]
    · simp [hmulti, hb3]
  · simp [hmulti]

/-- The fields of the B3 formats: ids in hexadecimal digits, neither of them zero. -/
def parseB3 (traceId spanId sampled : Bytes) : Option RemoteContext := do
  let trace ← ofHex traceId
  let span ← ofHex spanId
  if trace ≠ 0 ∧ span ≠ 0 then some ⟨trace, span, sampled = ascii "1"⟩ else none

/-- The formats, with one trace: the first span has the id 1, others the id 2. -/
def sampleFormats : HeaderFormats where
  traceparent := parseTraceparent
  b3 value := parseB3 (value.take 32) ((value.drop 33).take 16) (value.drop 50)
  b3Multi := parseB3
  context
    | 0 => ⟨1, 1, true⟩
    | _ + 1 => ⟨1, 2, true⟩

/-- The fields of a context in the B3 formats. -/
def b3Fields (c : RemoteContext) : Bytes × Bytes × Bytes :=
  (toHex 32 c.traceId, toHex 16 c.spanId, if c.sampled then ascii "1" else ascii "0")

/-- A context in the single header. -/
def b3Text (c : RemoteContext) : Bytes :=
  (b3Fields c).1 ++ ascii "-" ++ (b3Fields c).2.1 ++ ascii "-" ++ (b3Fields c).2.2

/-- What is injected for a span, given what is for its context. -/
def injectContext (headers : RemoteContext → List (Bytes × Bytes)) :
    Option SpanContext → List (Bytes × Bytes)
  | none => []
  | some (.started n) => headers (sampleFormats.context n)
  | some (.remote c) => headers c

/-- An SDK with the three formats. -/
def sampleB3Sdk : Sdk :=
  { sampleSdk with
    PropagatorTraceContext :=
      { extract := fun get => parseTraceparent (get (ascii "traceparent"))
        inject := injectContext fun c =>
          [(ascii "traceparent", traceparent c), (ascii "tracestate", [])] }
    PropagatorB3SingleHeader :=
      { extract := fun get =>
          if get (ascii "b3") ≠ [] then sampleFormats.b3 (get (ascii "b3"))
          else parseB3 (get (ascii "X-B3-TraceId")) (get (ascii "X-B3-SpanId"))
            (get (ascii "X-B3-Sampled"))
        inject := injectContext fun c => [(ascii "b3", b3Text c)] }
    PropagatorB3MultiHeader :=
      { extract := fun get =>
          parseB3 (get (ascii "X-B3-TraceId")) (get (ascii "X-B3-SpanId"))
            (get (ascii "X-B3-Sampled"))
        inject := injectContext fun c =>
          [(ascii "X-B3-TraceId", (b3Fields c).1), (ascii "X-B3-SpanId", (b3Fields c).2.1),
            (ascii "X-B3-Sampled", (b3Fields c).2.2)] } }

/-- The two contexts are read as they were written, in each format. -/
theorem sampleFormats_read (n : ℕ) :
    sampleFormats.traceparent (traceparent (sampleFormats.context n)) =
      some (sampleFormats.context n) ∧
      sampleFormats.b3 (b3Text (sampleFormats.context n)) = some (sampleFormats.context n) ∧
      sampleFormats.b3Multi (b3Fields (sampleFormats.context n)).1
        (b3Fields (sampleFormats.context n)).2.1
        (b3Fields (sampleFormats.context n)).2.2 = some (sampleFormats.context n) := by
  have hread : ∀ i : Fin 2, sampleFormats.traceparent (traceparent (sampleFormats.context i)) =
        some (sampleFormats.context i) ∧
      sampleFormats.b3 (b3Text (sampleFormats.context i)) = some (sampleFormats.context i) ∧
      sampleFormats.b3Multi (b3Fields (sampleFormats.context i)).1
        (b3Fields (sampleFormats.context i)).2.1
        (b3Fields (sampleFormats.context i)).2.2 = some (sampleFormats.context i) := by
    decide +kernel
  cases n with
  | zero => exact hread 0
  | succ n => exact hread 1

theorem sampleB3Sdk_documented : sampleB3Sdk.Documented sampleFormats where
  extractTraceContext _ := rfl
  extractB3 _ := rfl
  injectTraceContext n := by
    refine ⟨_, [(ascii "tracestate", [])], rfl, ?_, (sampleFormats_read n).1⟩
    intro kv hkv
    rw [List.mem_singleton.mp hkv]
  injectB3 n := ⟨_, rfl, by simp [b3Text, ascii], (sampleFormats_read n).2.1⟩
  injectB3Multi n := ⟨_, _, _, rfl, (sampleFormats_read n).2.2⟩

/-- A request with these headers, under its server span. -/
def sampleServed (propagation : OtelPropagation) (headers : AprTable) : Option Serving :=
  opentelHandler sampleB3Sdk ⟨false, propagation, ∅⟩
    ⟨Tracer.init, ⟨(sampleRequest headers).main, none, none, []⟩⟩

/-- A single B3 header of a client, of span 7 in trace 1. -/
def foreignB3 : AprTable :=
  [(ascii "b3", toHex 32 1 ++ ascii "-" ++ toHex 16 7 ++ ascii "-1")]

theorem forwarded_sample :
    ∃ s s', sampleServed .B3_SINGLE_HEADER foreignB3 = some s ∧
      proxyFixupHandler sampleB3Sdk ⟨false, .B3_SINGLE_HEADER, ∅⟩ none s = some s' ∧
      StandFor sampleB3Sdk ⟨false, .B3_SINGLE_HEADER, ∅⟩ s'.request.main.headers_in
        (sampleFormats.context 1) := by
  have hserved : ∃ s s', sampleServed .B3_SINGLE_HEADER foreignB3 = some s ∧
      proxyFixupHandler sampleB3Sdk ⟨false, .B3_SINGLE_HEADER, ∅⟩ none s = some s' ∧
      s.request.otelProxy = none ∧ s'.request.otelProxy.bind ExtraRequestData.span = some 1 :=
    ⟨_, _, rfl, rfl, rfl, rfl⟩
  obtain ⟨s, s', hs, hs', hproxy, hclient⟩ := hserved
  exact ⟨s, s', hs, hs',
    (forwarded_iff sampleB3Sdk_documented (by simp) hproxy hs' hclient).mpr (by simp)⟩

/-- With the B3 multi-header format, the header of the client is what the downstream
server reads: its span is a sibling of the server span here, not a child of the client
span. -/
theorem single_header_wins :
    ∃ s s', sampleServed .B3_MULTI_HEADER foreignB3 = some s ∧
      proxyFixupHandler sampleB3Sdk ⟨false, .B3_MULTI_HEADER, ∅⟩ none s = some s' ∧
      s'.request.otelProxy.bind ExtraRequestData.span = some 1 ∧
      sampleB3Sdk.Documented sampleFormats ∧
      (inboundPropagator sampleB3Sdk ⟨false, .B3_MULTI_HEADER, ∅⟩).extract
        (HttpdCarrier.get s'.request.main.headers_in) = some ⟨1, 7, true⟩ ∧
      ¬ StandFor sampleB3Sdk ⟨false, .B3_MULTI_HEADER, ∅⟩ s'.request.main.headers_in
        (sampleFormats.context 1) := by
  have hextract : ∃ s s', sampleServed .B3_MULTI_HEADER foreignB3 = some s ∧
      proxyFixupHandler sampleB3Sdk ⟨false, .B3_MULTI_HEADER, ∅⟩ none s = some s' ∧
      s'.request.otelProxy.bind ExtraRequestData.span = some 1 ∧
      (inboundPropagator sampleB3Sdk ⟨false, .B3_MULTI_HEADER, ∅⟩).extract
        (HttpdCarrier.get s'.request.main.headers_in) = some ⟨1, 7, true⟩ :=
    ⟨_, _, rfl, rfl, rfl, rfl⟩
  obtain ⟨s, s', hs, hs', hclient, hseven⟩ := hextract
  refine ⟨s, s', hs, hs', hclient, sampleB3Sdk_documented, hseven, fun hstands => ?_⟩
  have htwo : some (RemoteContext.mk 1 7 true) = some ⟨1, 2, true⟩ :=
    hseven.symm.trans hstands.extracted
  cases htwo

end Httpd

/-
The attributes that a request's span gets in the nginx module.

`StartNgxSpan` and `FinishNgxSpan` set them one after the other, and the last one set under
a key stays.

* `attributeOf_startNgxSpan` — what a new span has after its start;
* `attributeOf_finishNgxSpan` — and what it has at its end.
-/
import OtelContrib.Lib.LastWins
import OtelContrib.Nginx.SpanPerRequest

open Otel
open LastWins (lastValue lastValue_append lastValue_singleton find?_foldl_insert)

namespace Nginx

/-- Attributes as they are set, the first one first. -/
abbrev Writes := List (Bytes × AttributeValue)

def setAttributes (t : Tracer) (n : ℕ) (writes : Writes) : Tracer :=
  writes.foldl (fun t write => t.setAttribute n write.1 write.2) t

/-! ### What is set -/

def textWrite (key : Bytes) (value : Option Bytes) : Writes :=
  value.toList.map fun value => (key, .string value)

section

variable (ngx : NgxCore)

def scriptWrites (attributes : List CompiledScriptAttribute) (req : NgxHttpRequest) : Writes :=
  attributes.filterMap fun attrib => attrib.eval ngx req

/-- The headers that `OtelCaptureHeaders` does not leave out. -/
def keptHeaders (headers : Headers) (excludedHeaders : List (Option ℕ)) : Headers :=
  (headers.zipIdx.filter fun entry => some entry.2 ∉ excludedHeaders).map Prod.fst

def captureWrites (keyPrefix : Bytes) (headers : Headers)
    (sensitiveHeaderNames sensitiveHeaderValues : Option Bytes)
    (excludedHeaders : List (Option ℕ)) :
    Writes :=
  (keptHeaders headers excludedHeaders).map fun header =>
    (keyPrefix ++ ngxNormalize header.1,
      .stringArray [capturedValue ngx sensitiveHeaderNames sensitiveHeaderValues header])

/-- What the start of a span sets that no header decides. -/
def requestWrites (req : NgxHttpRequest) : Writes :=
  [(ascii "http.method", .string req.method_name),
    (ascii "http.flavor", .string (ngxHttpFlavor req)),
    (ascii "http.target", .string req.unparsed_uri)] ++
  textWrite (ascii "http.server_name") (if req.server_name = [] then none else some req.server_name)

/-- `http.host` and `http.user_agent`. -/
def dedicatedWrites (req : NgxHttpRequest) : Writes :=
  textWrite (ascii "http.host") (req.headers_in.value req.headers_in.host) ++
    textWrite (ascii "http.user_agent") (req.headers_in.value req.headers_in.user_agent)

def capturedRequest (req : NgxHttpRequest) : Writes :=
  if req.locConf.captureHeaders then
    captureWrites ngx (ascii "http.request.header.") req.headers_in.headers
      req.locConf.sensitiveHeaderNames req.locConf.sensitiveHeaderValues
      [req.headers_in.host, req.headers_in.user_agent]
  else []

def capturedResponse (req : NgxHttpRequest) : Writes :=
  if req.locConf.captureHeaders then
    captureWrites ngx (ascii "http.response.header.") req.headers_out.headers
      req.locConf.sensitiveHeaderNames req.locConf.sensitiveHeaderValues []
  else []

/-- What `FinishNgxSpan` sets on the span of a request. -/
def finishWrites (scriptAttributes : List CompiledScriptAttribute) (req : NgxHttpRequest) :
    Writes :=
  [(ascii "http.status_code", .uint64 req.headers_out.status)] ++ capturedResponse ngx req ++
    scriptWrites ngx scriptAttributes req ++ scriptWrites ngx req.locConf.customAttributes req

end

/-! ### The span has it -/

section

variable {ngx : NgxCore} {sdk : Sdk} {t : Tracer} {n : ℕ}

theorem setAttributes_append (writes writes' : Writes) :
    setAttributes t n (writes ++ writes') = setAttributes (setAttributes t n writes) n writes' :=
  List.foldl_append

theorem decorates_setAttributes (writes : Writes) : Decorates t (setAttributes t n writes) :=
  Decorates.foldl (f := fun t (write : Bytes × AttributeValue) => t.setAttribute n write.1 write.2)
    (fun t _ => .setAttribute t n _ _) writes t

theorem attributeOf_setAttributes (hn : n < t.spans.length) (writes : Writes) (key : Bytes) :
    attributeOf (setAttributes t n writes) n key =
      (lastValue writes key).or (attributeOf t n key) := by
  induction writes using List.reverseRecOn with
  | nil => rfl
  | append_singleton writes write ih =>
    rw [setAttributes_append, lastValue_append, lastValue_singleton]
    refine (attributeOf_setAttribute ((decorates_setAttributes writes).lt hn) _ _ _).trans ?_
    split
    · rfl
    · rw [Option.none_or]
      exact ih

theorem setIfPresent_eq (key : Bytes) (value : Option Bytes) :
    setIfPresent t n key value = setAttributes t n (textWrite key value) := by
  cases value <;> rfl

theorem addScriptAttributes_eq (attributes : List CompiledScriptAttribute) (req : NgxHttpRequest) :
    addScriptAttributes ngx t n attributes req =
      setAttributes t n (scriptWrites ngx attributes req) := by
  rw [addScriptAttributes, setAttributes, scriptWrites, List.foldl_filterMap]
  congr 1
  funext t attrib
  cases attrib.eval ngx req <;> rfl

theorem otelCaptureHeaders_eq (keyPrefix : Bytes) (headers : Headers)
    (names values : Option Bytes) (excluded : List (Option ℕ)) :
    otelCaptureHeaders ngx t n keyPrefix headers names values excluded =
      setAttributes t n (captureWrites ngx keyPrefix headers names values excluded) := by
  rw [otelCaptureHeaders, setAttributes, captureWrites, keptHeaders, List.map_map, List.foldl_map,
    List.foldl_filter]
  congr 1
  funext t entry
  by_cases h : some entry.2 ∈ excluded <;> simp [h]

theorem captured_eq {p : Prop} [Decidable p] (keyPrefix : Bytes) (headers : Headers)
    (names values : Option Bytes) (excluded : List (Option ℕ)) :
    (if p then otelCaptureHeaders ngx t n keyPrefix headers names values excluded else t) =
      setAttributes t n
        (if p then captureWrites ngx keyPrefix headers names values excluded else []) := by
  split
  · exact otelCaptureHeaders_eq keyPrefix headers names values excluded
  · rfl

theorem length_startSpanUnder (parent : Option SpanContext) (name : Bytes) (kind : SpanKind)
    (attributes : Attributes) :
    (t.startSpanUnder parent name kind attributes).2.spans.length = t.spans.length + 1 :=
  List.length_append

theorem attributeOf_startSpanUnder (parent : Option SpanContext) (name : Bytes) (kind : SpanKind)
    (writes : Writes) (key : Bytes) :
    attributeOf (t.startSpanUnder parent name kind
        (writes.foldl (fun attributes write => attributes.insert write.1 write.2) ∅)).2
      t.spans.length key = lastValue writes key := by
  have hspan : (t.startSpanUnder parent name kind
      (writes.foldl (fun attributes write => attributes.insert write.1 write.2) ∅)).2.spans[
        t.spans.length]? = some ⟨name, kind, parent,
          writes.foldl (fun attributes write => attributes.insert write.1 write.2) ∅,
            (.Unset, [])⟩ :=
    List.getElem?_concat_length
  rw [attributeOf, hspan, Option.bind_some]
  exact (find?_foldl_insert ∅ writes key).trans (Option.or_none ..)

/-- The attributes of a new span. -/
theorem attributeOf_startNgxSpan {req : NgxHttpRequest} (h : startsSpan ngx req = true) (s : State)
    (key : Bytes) :
    attributeOf (startNgxSpan ngx sdk s req).tracer s.tracer.spans.length key =
      lastValue (requestWrites req ++ dedicatedWrites req ++ capturedRequest ngx req) key := by
  obtain ⟨henabled, hinternal⟩ := Bool.and_eq_true_iff.mp h
  rw [Bool.not_eq_true'] at hinternal
  rw [startNgxSpan, if_neg (not_not_intro henabled),
    if_neg (by rw [hinternal]; exact Bool.false_ne_true)]
  dsimp only
  rw [captured_eq, setIfPresent_eq, setIfPresent_eq, setIfPresent_eq, ← setAttributes_append,
    ← setAttributes_append, ← setAttributes_append]
  have hall : requestWrites req ++ dedicatedWrites req ++ capturedRequest ngx req =
      [(ascii "http.method", .string req.method_name),
        (ascii "http.flavor", .string (ngxHttpFlavor req)),
        (ascii "http.target", .string req.unparsed_uri)] ++
      (textWrite (ascii "http.server_name")
          (if req.server_name = [] then none else some req.server_name) ++
        (textWrite (ascii "http.host") (req.headers_in.value req.headers_in.host) ++
          (textWrite (ascii "http.user_agent") (req.headers_in.value req.headers_in.user_agent) ++
            capturedRequest ngx req))) := by
    rw [requestWrites, dedicatedWrites, List.append_assoc, List.append_assoc, List.append_assoc]
  have htracer : (createTraceContext s req).2.tracer = s.tracer := rfl
  rw [hall, lastValue_append, htracer]
  refine (attributeOf_setAttributes (n := s.tracer.spans.length) ?_ _ key).trans ?_
  · exact Nat.lt_of_lt_of_eq (Nat.lt_succ_self _) (length_startSpanUnder _ _ _ _).symm
  · exact congrArg (Option.or _) (attributeOf_startSpanUnder _ _ _
      [(ascii "http.method", .string req.method_name),
        (ascii "http.flavor", .string (ngxHttpFlavor req)),
        (ascii "http.target", .string req.unparsed_uri)] key)

/-- The attributes of a span that is finished. -/
theorem attributeOf_finishNgxSpan {s : State} {req : NgxHttpRequest} {context : ℕ}
    (henabled : isOtelEnabled ngx req = true) (hcontext : getTraceContext s req = some context)
    (hspan : s.contexts[context]?.bind TraceContext.request_span = some n)
    (hn : n < s.tracer.spans.length) (scriptAttributes : List CompiledScriptAttribute) :
    ∃ s', finishNgxSpan ngx scriptAttributes s req = some s' ∧ ∀ key,
      attributeOf s'.tracer n key =
        (lastValue (finishWrites ngx scriptAttributes req) key).or
          (attributeOf s.tracer n key) := by
  rw [finishNgxSpan, if_neg (not_not_intro henabled), hcontext]
  dsimp only
  rw [hspan]
  refine ⟨_, rfl, fun key => ?_⟩
  dsimp only
  refine (attributeOf_updateName _ n _ key).trans ?_
  have hstatus : ∀ code : StatusCode, n < ((s.tracer.setAttribute n (ascii "http.status_code")
      (.uint64 req.headers_out.status)).setStatus n code []).spans.length := by
    intro code
    rwa [(Tracer.OnlyDescribes.setStatus _ n _ _).length, (Decorates.setAttribute _ n _ _).length]
  rw [captured_eq, addScriptAttributes_eq, addScriptAttributes_eq, ← setAttributes_append,
    ← setAttributes_append, attributeOf_setAttributes (hstatus _), attributeOf_setStatus,
    attributeOf_setAttribute hn, finishWrites, List.append_assoc, List.append_assoc,
    lastValue_append [_], lastValue_singleton, Option.or_assoc]
  refine congrArg (Option.or (lastValue (capturedResponse ngx req ++ _) key)) ?_
  split <;> rfl

end

end Nginx

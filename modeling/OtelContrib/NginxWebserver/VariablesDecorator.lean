/-
The tracing variables of the webserver module for nginx (`otel_variables_decorator`).

The context of a request gets a trace id, the id of the root span and a tracing context, each
once.  They are taken from the first part of the request headers and from the propagation
headers.

* `setFor_eq` — a loop over headers leaves what the last one gives;
* `w3cContext_eq`, `b3Context_eq_none` — a `traceparent` is copied with the span id replaced; a
  B3 context is never made without a write outside of its allocation;
* `variables_decorated_iff` — the tracing context is what it should be exactly when it is there
  already, a `traceparent` is in the first part, or there is nothing to make a B3 context of.
-/
import OtelContrib.Lib.Allocation
import OtelContrib.NginxWebserver.Headers
import Mathlib.Data.List.Induction

open Allocation
open Otel.Common (cString)

namespace NginxWebserver

/-! ### The context -/

/-- `ngx_str_t`, with the memory from `data` on. -/
structure NgxStr where
  data : Bytes
  len : ℕ
  deriving DecidableEq

/-- What the function uses of `ngx_http_otel_handles_t`. -/
structure TracingHandles where
  propagationHeaders : List PropagationHeader
  trace_id : NgxStr
  root_span_id : NgxStr
  tracing_context : NgxStr

/-- What it reads of a request and of its configuration. -/
structure VariablesRequest where
  headers : PartList NgxTableElt
  propagatorType : Bytes

def TRACE_ID_LEN : ℕ := 32

def SPAN_ID_LEN : ℕ := 16

/-- The value of a header as an `ngx_str_t`. -/
def NgxTableElt.valueStr (h : NgxTableElt) : NgxStr :=
  match h.value with
  | none => ⟨[], 0⟩
  | some value => ⟨value ++ [0], value.length⟩

def NgxTableElt.named (name : String) (h : NgxTableElt) : Bool := strcasecmp (ascii name) h.key

def PropagationHeader.isParentSpanId (record : PropagationHeader) : Bool :=
  strcasecmp record.name (ascii "Parent_Span_Id")

namespace VariablesRequest

/-- Whether `strcmp` gives zero for the type of the propagator. -/
def propagates (r : VariablesRequest) (type : String) : Bool :=
  cString r.propagatorType = ascii type

end VariablesRequest

/-! ### The function -/

/-- `ngx_memcpy(buffer + i, src + j, n)`. -/
def ngxMemcpy (buffer : Bytes) (i : ℕ) (src : Bytes) (j n : ℕ) : Option Bytes := do
  let bytes ← readAt src j n
  writeAt buffer i bytes

/-- `p = ngx_copy(p, src, n)`, for a buffer and the index that `p` has in it. -/
def ngxCopy (cursor : Bytes × ℕ) (src : Bytes) (n : ℕ) : Option (Bytes × ℕ) := do
  let buffer ← ngxMemcpy cursor.1 cursor.2 src 0 n
  some (buffer, cursor.2 + n)

def ngxPcalloc (n : ℕ) : Bytes := List.replicate n 0

/-- A loop that sets a variable at each item it is for. -/
def setFor {α β : Type} (p : α → Bool) (value : α → Option β) (s : β) (xs : List α) : Option β :=
  xs.foldlM (fun s x => if p x then value x else some s) s

/-- The trace id of a `traceparent`. -/
def w3cTraceId (h : NgxTableElt) : Option NgxStr := do
  let temp_trace_id := ngxPcalloc (TRACE_ID_LEN + 1)
  let temp_trace_id ← ngxMemcpy temp_trace_id 0 h.valueStr.data 3 TRACE_ID_LEN
  let temp_trace_id ← writeAt temp_trace_id TRACE_ID_LEN [0]
  some ⟨temp_trace_id, TRACE_ID_LEN⟩

def setTraceId (r : VariablesRequest) (trace_id : NgxStr) : Option NgxStr :=
  if trace_id.len ≠ 0 then some trace_id
  else if r.propagates "b3" then
    setFor (·.named "x-b3-traceid") (fun h => some h.valueStr) trace_id r.headers.first
  else setFor (·.named "traceparent") w3cTraceId trace_id r.headers.first

/-- The copy of a value, as long as `strlen` says. -/
def PropagationHeader.spanId (record : PropagationHeader) : Option NgxStr := do
  let len := (cString record.value).length
  let data ← ngxMemcpy (ngxPcalloc len) 0 record.value 0 len
  some ⟨data, len⟩

def setRootSpanId (propagationHeaders : List PropagationHeader) (root_span_id : NgxStr) :
    Option NgxStr :=
  if root_span_id.len ≠ 0 then some root_span_id
  else setFor (·.isParentSpanId) (·.spanId) root_span_id propagationHeaders

/-- A `traceparent` with the id of the root span. -/
def w3cContext (root_span_id : NgxStr) (h : NgxTableElt) : Option NgxStr := do
  let data := ngxPcalloc (h.valueStr.len + 1)
  let data ← ngxMemcpy data 0 h.valueStr.data 0 (h.valueStr.len + 1)
  let data ← ngxMemcpy data (TRACE_ID_LEN + 4) root_span_id.data 0 SPAN_ID_LEN
  some ⟨data, h.valueStr.len⟩

/-- The `sampled` of a B3 context, where there is one. -/
def copySampled (p : Bytes × ℕ) : Option NgxStr → Option (Bytes × ℕ)
  | none => some p
  | some sampled => do
    let p ← ngxCopy p (ascii "-") 1
    ngxCopy p sampled.data sampled.len

/-- The context for B3.  The NUL goes behind where `p` has moved to. -/
def b3Context (trace_id root_span_id : NgxStr) (sampled : Option NgxStr) : Option NgxStr := do
  let total_length := TRACE_ID_LEN + SPAN_ID_LEN + 1 + if sampled.isSome then 2 else 0
  let p ← ngxCopy (ngxPcalloc (total_length + 1), 0) trace_id.data trace_id.len
  let p ← ngxCopy p (ascii "-") 1
  let p ← ngxCopy p root_span_id.data root_span_id.len
  let p ← copySampled p sampled
  let data ← writeAt p.1 (p.2 + total_length) [0]
  some ⟨data, total_length⟩

def setTracingContext (r : VariablesRequest) (trace_id root_span_id tracing_context : NgxStr) :
    Option NgxStr :=
  if tracing_context.len ≠ 0 then some tracing_context
  else if r.propagates "w3c" then
    setFor (·.named "traceparent") (w3cContext root_span_id) tracing_context r.headers.first
  else if r.propagates "b3" then do
    let sampled ←
      setFor (·.named "x-b3-sampled") (fun h => some (some h.valueStr)) none r.headers.first
    if trace_id.len ≠ 0 ∧ root_span_id.len ≠ 0 then b3Context trace_id root_span_id sampled
    else some tracing_context
  else some tracing_context

/-- `otel_variables_decorator`, `none` where it reads or writes outside of an allocation. -/
def otelVariablesDecorator (r : VariablesRequest) (ctx : TracingHandles) :
    Option TracingHandles := do
  let trace_id ← setTraceId r ctx.trace_id
  let root_span_id ← setRootSpanId ctx.propagationHeaders ctx.root_span_id
  let tracing_context ← setTracingContext r trace_id root_span_id ctx.tracing_context
  some ⟨ctx.propagationHeaders, trace_id, root_span_id, tracing_context⟩

/-! ### What the tracing context should be -/

/-- A well-formed `traceparent`; `rest` are the flags. -/
structure Traceparent where
  version : Bytes
  traceId : Bytes
  spanId : Bytes
  rest : Bytes
  length_version : version.length = 2
  length_traceId : traceId.length = TRACE_ID_LEN
  length_spanId : spanId.length = SPAN_ID_LEN

/-- Its text, with a span id. -/
def Traceparent.textWith (t : Traceparent) (spanId : Bytes) : Bytes :=
  t.version ++ ascii "-" ++ t.traceId ++ ascii "-" ++ spanId ++ t.rest

def Traceparent.text (t : Traceparent) : Bytes := t.textWith t.spanId

/-- `trace_id '-' span_id`, and `'-' sampled` if that is there. -/
def b3Text (traceId spanId : Bytes) (sampled : Option Bytes) : Bytes :=
  traceId ++ ascii "-" ++ spanId ++ sampled.elim [] fun sampled => ascii "-" ++ sampled

/-- A text with a NUL behind it. -/
def NgxStr.terminated (text : Bytes) : NgxStr := ⟨text ++ [0], text.length⟩

namespace VariablesRequest

/-- A header of this name has the value. -/
def has (r : VariablesRequest) (name : String) (value : Bytes) : Prop :=
  ∃ h ∈ r.headers.toList, h.named name = true ∧ h.value = some value

/-- A header of this name is among some headers. -/
def carries (hs : List NgxTableElt) (name : String) : Bool := hs.any (·.named name)

/-- The headers that the propagator is for are well-formed. -/
structure WellFormed (r : VariablesRequest) : Prop where
  traceparent : r.propagates "b3" = false → ∀ h ∈ r.headers.toList, h.named "traceparent" = true →
    ∃ t : Traceparent, h.value = some t.text
  traceId : r.propagates "b3" = true → ∀ h ∈ r.headers.toList, h.named "x-b3-traceid" = true →
    ∃ id, h.value = some id ∧ id ≠ []

end VariablesRequest

/-- The id of the root span, from a call before or from the last propagation header for it. -/
structure RootSpanId (ctx : TracingHandles) (spanId : Bytes) : Prop where
  length : spanId.length = SPAN_ID_LEN
  known : ctx.root_span_id = ⟨spanId, SPAN_ID_LEN⟩ ∨ ctx.root_span_id.len = 0 ∧
    (ctx.propagationHeaders.filter (·.isParentSpanId)).getLast?.map
      (fun record => cString record.value) =
      some spanId

/-- A tracing context that `ctx` gets is what it should be. -/
structure Published (r : VariablesRequest) (ctx : TracingHandles) (spanId : Bytes)
    (tracing_context : NgxStr) : Prop where
  kept : ctx.tracing_context.len ≠ 0 → tracing_context = ctx.tracing_context
  w3c : ctx.tracing_context.len = 0 → r.propagates "w3c" = true →
    VariablesRequest.carries r.headers.toList "traceparent" = true →
    ∃ t : Traceparent, r.has "traceparent" t.text ∧
      tracing_context = .terminated (t.textWith spanId)
  b3 : ctx.tracing_context.len = 0 → r.propagates "b3" = true →
    (ctx.trace_id.len ≠ 0 ∨ VariablesRequest.carries r.headers.toList "x-b3-traceid" = true) →
    ∃ traceId sampled,
      (if ctx.trace_id.len = 0 then r.has "x-b3-traceid" traceId
        else traceId = ctx.trace_id.data.take ctx.trace_id.len) ∧
      (∀ value, sampled = some value → r.has "x-b3-sampled" value) ∧
      sampled.isSome = VariablesRequest.carries r.headers.toList "x-b3-sampled" ∧
      tracing_context = .terminated (b3Text traceId spanId sampled)

/-! ### Copies -/

theorem ngxMemcpy_append {pre old post before bytes after : Bytes} {i j n : ℕ} (hi : i = pre.length)
    (hj : j = before.length) (hn : n = bytes.length) (hlength : bytes.length = old.length) :
    ngxMemcpy (pre ++ (old ++ post)) i (before ++ (bytes ++ after)) j n =
      some (pre ++ (bytes ++ post)) := by
  rw [ngxMemcpy, readAt_append hj hn]
  exact writeAt_append hi hlength

/-- A copy in an allocation of its length. -/
theorem ngxMemcpy_text (bytes after : Bytes) {n : ℕ} (hn : n = bytes.length) :
    ngxMemcpy (ngxPcalloc n) 0 (bytes ++ after) 0 n = some bytes := by
  have hlength : bytes.length = (ngxPcalloc n).length := by
    rw [ngxPcalloc, List.length_replicate, hn]
  have hcopy := @ngxMemcpy_append [] (ngxPcalloc n) [] [] bytes after 0 0 n rfl rfl hn hlength
  simpa using hcopy

/-- A copy stays in the buffer, and moves the cursor. -/
theorem ngxCopy_some {cursor cursor' : Bytes × ℕ} {src : Bytes} {n : ℕ}
    (h : ngxCopy cursor src n = some cursor') :
    cursor'.1.length = cursor.1.length ∧ cursor'.2 = cursor.2 + n := by
  simp only [ngxCopy, ngxMemcpy, Option.bind_eq_bind, Option.bind_eq_some_iff] at h
  obtain ⟨buffer, ⟨_, -, hwrite⟩, h⟩ := h
  cases h
  exact ⟨length_writeAt hwrite, rfl⟩

theorem copySampled_some {cursor cursor' : Bytes × ℕ} {sampled : Option NgxStr}
    (h : copySampled cursor sampled = some cursor') :
    cursor'.1.length = cursor.1.length ∧ cursor.2 ≤ cursor'.2 := by
  cases sampled with
  | none =>
    obtain rfl := Option.some.inj h
    exact ⟨rfl, Nat.le_refl _⟩
  | some sampled =>
    obtain ⟨p, hp, h⟩ := Option.bind_eq_some_iff.mp h
    obtain ⟨hlength, hmoved⟩ := ngxCopy_some hp
    obtain ⟨hlength', hmoved'⟩ := ngxCopy_some h
    exact ⟨hlength'.trans hlength, by omega⟩

/-! ### Loops over headers -/

section

variable {α β : Type} {p : α → Bool} {value : α → Option β} {s : β} {xs : List α}

/-- A loop leaves what the last item that it is for gives. -/
theorem setFor_eq (h : ∀ x ∈ xs, p x = true → (value x).isSome) :
    setFor p value s xs = (xs.filter p).getLast?.elim (some s) value := by
  induction xs using List.reverseRecOn with
  | nil => rfl
  | append_singleton xs x ih =>
    obtain ⟨hxs, hx⟩ := List.forall_mem_append.mp h
    have hloop : setFor p value s (xs ++ [x]) =
        (setFor p value s xs).bind fun s => if p x then value x else some s := by
      rw [setFor, List.foldlM_append]
      refine congrArg (Option.bind _) (funext fun s => ?_)
      rw [List.foldlM_cons]
      exact bind_pure _
    rw [hloop, ih hxs, List.filter_append]
    cases hp : p x with
    | true =>
      have hdefined : ((xs.filter p).getLast?.elim (some s) value).isSome := by
        cases hlast : (xs.filter p).getLast? with
        | none => rfl
        | some y =>
          obtain ⟨hmem, hy⟩ := List.mem_filter.mp (List.mem_of_getLast? hlast)
          exact hxs y hmem hy
      obtain ⟨s', hs'⟩ := Option.isSome_iff_exists.mp hdefined
      rw [hs', List.filter_cons_of_pos hp, List.getLast?_append]
      rfl
    | false =>
      rw [List.filter_cons_of_neg (by simp [hp]), List.filter_nil, List.append_nil]
      exact Option.bind_fun_some _

theorem setFor_of_any (s : β) (h : ∀ x ∈ xs, p x = true → (value x).isSome)
    (hany : xs.any p = true) :
    ∃ x ∈ xs, p x = true ∧ setFor p value s xs = value x := by
  rw [setFor_eq h]
  cases hlast : (xs.filter p).getLast? with
  | none =>
    obtain ⟨x, hx, hp⟩ := List.any_eq_true.mp hany
    have hnil := List.getLast?_eq_none_iff.mp hlast
    exact absurd hp (List.filter_eq_nil_iff.mp hnil x hx)
  | some x =>
    obtain ⟨hmem, hp⟩ := List.mem_filter.mp (List.mem_of_getLast? hlast)
    exact ⟨x, hmem, hp, rfl⟩

theorem setFor_of_not_any (hany : xs.any p = false) : setFor p value s xs = some s := by
  have hnone := List.any_eq_false.mp hany
  rw [setFor_eq fun x hx hp => absurd hp (hnone x hx), List.filter_eq_nil_iff.mpr hnone]
  rfl

theorem setFor_isSome (h : ∀ x ∈ xs, p x = true → (value x).isSome) :
    (setFor p value s xs).isSome := by
  cases hany : xs.any p with
  | false => rw [setFor_of_not_any hany]; rfl
  | true =>
    obtain ⟨x, hx, hp, hset⟩ := setFor_of_any s h hany
    rw [hset]
    exact h x hx hp

end

/-! ### The values -/

variable {r : VariablesRequest} {ctx : TracingHandles} {spanId : Bytes} {h : NgxTableElt}

theorem length_textWith (t : Traceparent) (hlength : spanId.length = SPAN_ID_LEN) :
    (t.textWith spanId).length = t.text.length := by
  simp only [Traceparent.text, Traceparent.textWith, List.length_append, hlength, t.length_spanId]

theorem valueStr_of_value {value : Bytes} (hvalue : h.value = some value) :
    h.valueStr = .terminated value := by
  rw [NgxTableElt.valueStr, hvalue]
  rfl

theorem w3cTraceId_eq {t : Traceparent} (hvalue : h.value = some t.text) :
    w3cTraceId h = some (.terminated t.traceId) := by
  have htext : (t.version ++ ascii "-") ++ (t.traceId ++ (ascii "-" ++ t.spanId ++ t.rest ++ [0])) =
      t.text ++ [0] := by
    simp only [Traceparent.text, Traceparent.textWith, List.append_assoc]
  have hversion : 3 = (t.version ++ ascii "-").length := by
    rw [List.length_append, t.length_version]
    rfl
  have hnew : t.traceId.length = (ngxPcalloc TRACE_ID_LEN).length := by
    rw [ngxPcalloc, List.length_replicate, t.length_traceId]
  have hcopy := @ngxMemcpy_append [] (ngxPcalloc TRACE_ID_LEN) [0] _ _
    (ascii "-" ++ t.spanId ++ t.rest ++ [0]) 0 3 TRACE_ID_LEN rfl hversion
      t.length_traceId.symm hnew
  have hwrite := @writeAt_append _ t.traceId [0] [] [0] TRACE_ID_LEN t.length_traceId.symm rfl
  have hcalloc : ngxPcalloc (TRACE_ID_LEN + 1) = [] ++ (ngxPcalloc TRACE_ID_LEN ++ [0]) := rfl
  rw [htext] at hcopy
  rw [w3cTraceId, valueStr_of_value hvalue, hcalloc]
  show ((ngxMemcpy _ 0 (t.text ++ [0]) 3 TRACE_ID_LEN).bind fun _ => _) = _
  rw [hcopy]
  show ((writeAt (t.traceId ++ [0]) TRACE_ID_LEN [0]).bind fun _ => _) = _
  rw [show t.traceId ++ [0] = t.traceId ++ ([0] ++ []) from rfl, hwrite]
  exact congrArg (fun len => some (NgxStr.mk (t.traceId ++ [0]) len)) t.length_traceId.symm

theorem spanId_eq (record : PropagationHeader) :
    record.spanId = some ⟨cString record.value, (cString record.value).length⟩ := by
  have hvalue :
      record.value = cString record.value ++ record.value.drop (cString record.value).length := by
    refine (List.prefix_iff_eq_append.mp ?_).symm
    exact List.takeWhile_prefix _
  have hcopy := ngxMemcpy_text (cString record.value)
    (record.value.drop (cString record.value).length) rfl
  rw [← hvalue] at hcopy
  rw [PropagationHeader.spanId]
  show ((ngxMemcpy _ 0 record.value 0 _).bind fun _ => _) = _
  rw [hcopy]
  rfl

/-- Only the span id is replaced. -/
theorem w3cContext_eq {t : Traceparent} (hvalue : h.value = some t.text)
    (hlength : spanId.length = SPAN_ID_LEN) :
    w3cContext ⟨spanId, SPAN_ID_LEN⟩ h = some (.terminated (t.textWith spanId)) := by
  have hsplit : ∀ id, (t.version ++ ascii "-" ++ t.traceId ++ ascii "-") ++
      (id ++ (t.rest ++ [0])) =
      t.textWith id ++ [0] := by
    intro id
    simp only [Traceparent.textWith, List.append_assoc]
  have hbefore : TRACE_ID_LEN + 4 = (t.version ++ ascii "-" ++ t.traceId ++ ascii "-").length := by
    simp only [List.length_append, t.length_version, t.length_traceId]
    rfl
  have htext : t.text.length + 1 = (t.text ++ [0]).length := (@List.length_append _ t.text [0]).symm
  have hcopy := ngxMemcpy_text (t.text ++ [0]) [] htext
  have hreplace := @ngxMemcpy_append _ t.spanId (t.rest ++ [0]) [] spanId [] (TRACE_ID_LEN + 4) 0
    SPAN_ID_LEN hbefore rfl hlength.symm (hlength.trans t.length_spanId.symm)
  rw [hsplit, hsplit, List.nil_append, List.append_nil] at hreplace
  rw [List.append_nil] at hcopy
  rw [w3cContext, valueStr_of_value hvalue]
  show ((ngxMemcpy (ngxPcalloc (t.text.length + 1)) 0 (t.text ++ [0]) 0 (t.text.length + 1)).bind
    fun _ => _) = _
  rw [hcopy]
  show ((ngxMemcpy (t.textWith t.spanId ++ [0]) (TRACE_ID_LEN + 4) spanId 0 SPAN_ID_LEN).bind
    fun _ => _) = _
  rw [hreplace]
  exact congrArg (fun len => some (NgxStr.mk (t.textWith spanId ++ [0]) len))
    (length_textWith t hlength).symm

/-- When the NUL is written, the cursor has moved, so that it goes outside of the allocation. -/
theorem b3Context_eq_none (trace_id root_span_id : NgxStr) (sampled : Option NgxStr) :
    b3Context trace_id root_span_id sampled = none := by
  rw [Option.eq_none_iff_forall_ne_some]
  intro context hcontext
  simp only [b3Context, Option.bind_eq_bind, Option.bind_eq_some_iff] at hcontext
  obtain ⟨p₁, h₁, p₂, h₂, p₃, h₃, p₄, h₄, data, hwrite, -⟩ := hcontext
  obtain ⟨hlength₁, -⟩ := ngxCopy_some h₁
  obtain ⟨hlength₂, hp₂⟩ := ngxCopy_some h₂
  obtain ⟨hlength₃, hp₃⟩ := ngxCopy_some h₃
  obtain ⟨hlength₄, hp₄⟩ := copySampled_some h₄
  rw [ngxPcalloc, List.length_replicate] at hlength₁
  rw [writeAt_eq_none] at hwrite
  · cases hwrite
  · simp only [List.length_singleton]
    omega

/-! ### The fields of the context -/

/-- There is one propagator. -/
theorem not_propagates_b3 (hw3c : r.propagates "w3c" = true) : ¬r.propagates "b3" = true := by
  intro hb3
  have heq := (of_decide_eq_true hw3c).symm.trans (of_decide_eq_true hb3)
  exact absurd heq (by decide)

theorem setTraceId_isSome (hwf : r.WellFormed) (trace_id : NgxStr) :
    (setTraceId r trace_id).isSome := by
  rw [setTraceId]
  split
  · rfl
  · cases hb3 : r.propagates "b3" with
    | true => exact setFor_isSome fun _ _ _ => rfl
    | false =>
      refine setFor_isSome fun h hmem hnamed => ?_
      obtain ⟨t, hvalue⟩ := hwf.traceparent hb3 h (PartList.mem_toList_of_mem_first hmem) hnamed
      rw [w3cTraceId_eq hvalue]
      rfl

/-- For B3, there is no trace id exactly when there was none before and the first part has none. -/
theorem setTraceId_b3 (hwf : r.WellFormed) (hb3 : r.propagates "b3" = true)
    {trace_id trace_id' : NgxStr}
    (hset : setTraceId r trace_id = some trace_id') :
    trace_id'.len = 0 ↔
      trace_id.len = 0 ∧ VariablesRequest.carries r.headers.first "x-b3-traceid" = false := by
  rw [setTraceId, if_pos hb3] at hset
  split at hset
  case isTrue hlen =>
    obtain rfl := Option.some.inj hset
    exact iff_of_false hlen fun h => hlen h.1
  case isFalse hlen =>
    cases hany : VariablesRequest.carries r.headers.first "x-b3-traceid" with
    | false =>
      rw [setFor_of_not_any hany] at hset
      obtain rfl := Option.some.inj hset
      exact iff_of_true (not_not.mp hlen) ⟨not_not.mp hlen, rfl⟩
    | true =>
      have hdefined : ∀ h ∈ r.headers.first, h.named "x-b3-traceid" = true →
          (some h.valueStr).isSome := fun _ _ _ => rfl
      obtain ⟨h, hmem, hnamed, hvalue⟩ := setFor_of_any trace_id hdefined hany
      obtain ⟨id, hid, hne⟩ := hwf.traceId hb3 h (PartList.mem_toList_of_mem_first hmem) hnamed
      rw [hvalue, valueStr_of_value hid] at hset
      obtain rfl := Option.some.inj hset
      exact iff_of_false (fun hlen => hne (List.length_eq_zero_iff.mp hlen)) (by simp)

theorem setRootSpanId_eq (hspan : RootSpanId ctx spanId) :
    setRootSpanId ctx.propagationHeaders ctx.root_span_id = some ⟨spanId, SPAN_ID_LEN⟩ := by
  rw [setRootSpanId]
  obtain ⟨hlength, hknown | ⟨hlen, hlast⟩⟩ := hspan
  · rw [hknown]
    rfl
  · obtain ⟨record, hrecord, rfl⟩ := Option.map_eq_some_iff.mp hlast
    rw [if_neg (not_not.mpr hlen), setFor_eq fun record _ _ => by rw [spanId_eq]; rfl, hrecord]
    exact (spanId_eq record).trans (congrArg (fun len => some (NgxStr.mk _ len)) hlength)

/-- A trace id is always found, so that the tracing context decides. -/
theorem otelVariablesDecorator_eq (hwf : r.WellFormed) (hspan : RootSpanId ctx spanId) :
    ∃ trace_id, setTraceId r ctx.trace_id = some trace_id ∧
      otelVariablesDecorator r ctx =
        (setTracingContext r trace_id ⟨spanId, SPAN_ID_LEN⟩ ctx.tracing_context).map fun context =>
          ⟨ctx.propagationHeaders, trace_id, ⟨spanId, SPAN_ID_LEN⟩, context⟩ := by
  obtain ⟨trace_id, htrace⟩ := Option.isSome_iff_exists.mp (setTraceId_isSome hwf ctx.trace_id)
  refine ⟨trace_id, htrace, ?_⟩
  rw [otelVariablesDecorator, htrace, setRootSpanId_eq hspan]
  rw [Option.map_eq_bind]
  rfl

theorem setTracingContext_w3c (hwf : r.WellFormed) (hlength : spanId.length = SPAN_ID_LEN)
    (hw3c : r.propagates "w3c" = true) (trace_id : NgxStr) {tracing_context : NgxStr}
    (hlen : tracing_context.len = 0)
    (hfirst : VariablesRequest.carries r.headers.first "traceparent" = true) :
    ∃ t : Traceparent, r.has "traceparent" t.text ∧
      setTracingContext r trace_id ⟨spanId, SPAN_ID_LEN⟩ tracing_context =
        some (.terminated (t.textWith spanId)) := by
  have hb3 : r.propagates "b3" = false := Bool.eq_false_iff.mpr (not_propagates_b3 hw3c)
  have hvalue := fun h (hmem : h ∈ r.headers.first) =>
    hwf.traceparent hb3 h (PartList.mem_toList_of_mem_first hmem)
  rw [setTracingContext, if_neg (not_not.mpr hlen), if_pos hw3c]
  have hdefined : ∀ h ∈ r.headers.first, h.named "traceparent" = true →
      (w3cContext ⟨spanId, SPAN_ID_LEN⟩ h).isSome := by
    intro h hmem hnamed
    obtain ⟨t, ht⟩ := hvalue h hmem hnamed
    rw [w3cContext_eq ht hlength]
    rfl
  obtain ⟨h, hmem, hnamed, hset⟩ := setFor_of_any tracing_context hdefined hfirst
  obtain ⟨t, ht⟩ := hvalue h hmem hnamed
  refine ⟨t, ⟨h, PartList.mem_toList_of_mem_first hmem, hnamed, ht⟩, ?_⟩
  rw [hset, w3cContext_eq ht hlength]

theorem setTracingContext_w3c_none (hw3c : r.propagates "w3c" = true)
    (trace_id root_span_id : NgxStr)
    {tracing_context : NgxStr} (hlen : tracing_context.len = 0)
    (hfirst : VariablesRequest.carries r.headers.first "traceparent" = false) :
    setTracingContext r trace_id root_span_id tracing_context = some tracing_context := by
  rw [setTracingContext, if_neg (not_not.mpr hlen), if_pos hw3c]
  exact setFor_of_not_any hfirst

theorem setTracingContext_b3 (hb3 : r.propagates "b3" = true) (trace_id : NgxStr)
    {tracing_context : NgxStr} (hlen : tracing_context.len = 0) :
    setTracingContext r trace_id ⟨spanId, SPAN_ID_LEN⟩ tracing_context =
      if trace_id.len = 0 then some tracing_context else none := by
  have hw3c : ¬r.propagates "w3c" = true := fun hw3c => not_propagates_b3 hw3c hb3
  have hsampled : (setFor (·.named "x-b3-sampled") (fun h => some (some h.valueStr)) none
      r.headers.first).isSome := setFor_isSome fun _ _ _ => rfl
  obtain ⟨sampled, hsampled⟩ := Option.isSome_iff_exists.mp hsampled
  rw [setTracingContext, if_neg (not_not.mpr hlen), if_neg hw3c, if_pos hb3, hsampled]
  show (if trace_id.len ≠ 0 ∧ SPAN_ID_LEN ≠ 0 then b3Context trace_id _ sampled else _) = _
  rw [b3Context_eq_none]
  by_cases htrace : trace_id.len = 0
  · rw [if_neg (fun h => h.1 htrace), if_pos htrace]
  · rw [if_pos ⟨htrace, by decide⟩, if_neg htrace]

/-! ### The tracing context -/

theorem carries_toList_of_first {name : String}
    (h : VariablesRequest.carries r.headers.first name = true) :
    VariablesRequest.carries r.headers.toList name = true := by
  obtain ⟨x, hmem, hnamed⟩ := List.any_eq_true.mp h
  exact List.any_eq_true.mpr ⟨x, PartList.mem_toList_of_mem_first hmem, hnamed⟩

/-- A tracing context is never empty when there is something to make one of. -/
theorem unchanged_iff (hlen : ctx.tracing_context.len = 0) :
    Published r ctx spanId ctx.tracing_context ↔
      (r.propagates "w3c" = true →
        VariablesRequest.carries r.headers.toList "traceparent" = false) ∧
        (r.propagates "b3" = true → ctx.trace_id.len = 0 ∧
          VariablesRequest.carries r.headers.toList "x-b3-traceid" = false) := by
  constructor
  · intro hpublished
    refine ⟨fun hw3c => Bool.eq_false_iff.mpr fun hcarries => ?_, fun hb3 => ?_⟩
    · obtain ⟨t, -, heq⟩ := hpublished.w3c hlen hw3c hcarries
      have hnil : t.textWith spanId = [] := 
        List.length_eq_zero_iff.mp ((congrArg NgxStr.len heq).symm.trans hlen)
      simp [Traceparent.textWith, ascii] at hnil
    · by_contra hsome
      rw [not_and_or, Bool.not_eq_false] at hsome
      obtain ⟨traceId, sampled, -, -, -, heq⟩ := hpublished.b3 hlen hb3 hsome
      have hnil : b3Text traceId spanId sampled = [] := 
        List.length_eq_zero_iff.mp ((congrArg NgxStr.len heq).symm.trans hlen)
      simp [b3Text, ascii] at hnil
  · rintro ⟨hw3c, hb3⟩
    refine ⟨fun _ => rfl, fun _ htype hcarries => ?_, fun _ htype hcarries => ?_⟩
    · rw [hw3c htype] at hcarries
      cases hcarries
    · obtain ⟨hid, hnone⟩ := hb3 htype
      rw [hnone] at hcarries
      exact absurd hid (hcarries.resolve_right Bool.false_ne_true)

/-- For W3C, what counts is that a `traceparent` is in the first part if there is one. -/
theorem published_w3c_iff (hwf : r.WellFormed) (hlength : spanId.length = SPAN_ID_LEN)
    (hw3c : r.propagates "w3c" = true) (hlen : ctx.tracing_context.len = 0) (trace_id : NgxStr) :
    (∃ context, setTracingContext r trace_id ⟨spanId, SPAN_ID_LEN⟩ ctx.tracing_context =
      some context ∧
        Published r ctx spanId context) ↔
      (VariablesRequest.carries r.headers.toList "traceparent" = true →
        VariablesRequest.carries r.headers.first "traceparent" = true) := by
  have hb3 := not_propagates_b3 hw3c
  cases hfirst : VariablesRequest.carries r.headers.first "traceparent" with
  | true =>
    obtain ⟨t, ht, hset⟩ := setTracingContext_w3c hwf hlength hw3c trace_id hlen hfirst
    refine iff_of_true ⟨_, hset, ?_, ?_, ?_⟩ fun _ => rfl
    · exact fun h => absurd hlen h
    · exact fun _ _ _ => ⟨t, ht, rfl⟩
    · exact fun _ h => absurd h hb3
  | false =>
    have hset := setTracingContext_w3c_none hw3c trace_id ⟨spanId, SPAN_ID_LEN⟩ hlen hfirst
    rw [hset]
    simp only [Option.some.injEq, exists_eq_left', unchanged_iff hlen]
    refine ⟨fun h hcarries => ?_, fun h => ⟨fun _ => ?_, fun h => absurd h hb3⟩⟩
    · rw [h.1 hw3c] at hcarries
      cases hcarries
    · exact Bool.eq_false_iff.mpr fun hcarries => absurd (h hcarries) Bool.false_ne_true

/-- For B3, nothing is right with a trace id. -/
theorem published_b3_iff (hwf : r.WellFormed) (hb3 : r.propagates "b3" = true)
    (hlen : ctx.tracing_context.len = 0) {trace_id : NgxStr}
    (htrace : setTraceId r ctx.trace_id = some trace_id) :
    (∃ context, setTracingContext r trace_id ⟨spanId, SPAN_ID_LEN⟩ ctx.tracing_context =
      some context ∧
        Published r ctx spanId context) ↔
      ctx.trace_id.len = 0 ∧ VariablesRequest.carries r.headers.toList "x-b3-traceid" = false := by
  have hw3c : ¬r.propagates "w3c" = true := fun hw3c => not_propagates_b3 hw3c hb3
  have hid := setTraceId_b3 hwf hb3 htrace
  rw [setTracingContext_b3 hb3 trace_id hlen]
  by_cases hzero : trace_id.len = 0
  · rw [if_pos hzero]
    simp only [Option.some.injEq, exists_eq_left', unchanged_iff hlen]
    exact ⟨fun h => h.2 hb3, fun h => ⟨fun h => absurd h hw3c, fun _ => h⟩⟩
  · rw [if_neg hzero]
    refine iff_of_false (fun ⟨_, h, _⟩ => nomatch h) fun ⟨hctx, hnone⟩ => hzero (hid.mpr ⟨hctx, ?_⟩)
    refine Bool.eq_false_iff.mpr fun hfirst => ?_
    rw [carries_toList_of_first hfirst] at hnone
    cases hnone

/-- **The tracing variables of a request are right**, without a read or a write outside of an
allocation, exactly when the tracing context is there already, or a `traceparent` of the request
is in the first part of its headers for W3C, and for B3 there is no trace id. -/
theorem variables_decorated_iff (hwf : r.WellFormed) (hspan : RootSpanId ctx spanId) :
    (∃ ctx', otelVariablesDecorator r ctx = some ctx' ∧
        Published r ctx spanId ctx'.tracing_context) ↔
      ctx.tracing_context.len ≠ 0 ∨
        (r.propagates "w3c" = true →
          VariablesRequest.carries r.headers.toList "traceparent" = true →
          VariablesRequest.carries r.headers.first "traceparent" = true) ∧
        (r.propagates "b3" = true → ctx.trace_id.len = 0 ∧
          VariablesRequest.carries r.headers.toList "x-b3-traceid" = false) := by
  obtain ⟨trace_id, htrace, heq⟩ := otelVariablesDecorator_eq hwf hspan
  rw [heq]
  simp only [Option.map_eq_some_iff, exists_exists_and_eq_and]
  by_cases hlen : ctx.tracing_context.len = 0
  · rw [or_iff_right (not_not.mpr hlen)]
    by_cases hw3c : r.propagates "w3c" = true
    · have hb3 := not_propagates_b3 hw3c
      rw [published_w3c_iff hwf hspan.length hw3c hlen]
      exact ⟨fun h => ⟨fun _ => h, fun h => absurd h hb3⟩, fun h => h.1 hw3c⟩
    · by_cases hb3 : r.propagates "b3" = true
      · rw [published_b3_iff hwf hb3 hlen htrace]
        exact ⟨fun h => ⟨fun h => absurd h hw3c, fun _ => h⟩, fun h => h.2 hb3⟩
      · -- another propagator has no tracing context
        have hset : setTracingContext r trace_id ⟨spanId, SPAN_ID_LEN⟩ ctx.tracing_context =
            some ctx.tracing_context := by
          rw [setTracingContext, if_neg (not_not.mpr hlen), if_neg hw3c, if_neg hb3]
        refine iff_of_true ⟨_, hset, (unchanged_iff hlen).mpr ⟨?_, ?_⟩⟩ ⟨?_, ?_⟩
        · exact fun h => absurd h hw3c
        · exact fun h => absurd h hb3
        · exact fun h => absurd h hw3c
        · exact fun h => absurd h hb3
  · have hset : setTracingContext r trace_id ⟨spanId, SPAN_ID_LEN⟩ ctx.tracing_context =
        some ctx.tracing_context := if_pos hlen
    refine iff_of_true ⟨_, hset, fun _ => rfl, ?_, ?_⟩ (.inl hlen)
    · exact fun h => absurd h hlen
    · exact fun h => absurd h hlen

/-- A request with its headers in one part. -/
def sampleVariablesRequest (headers : List NgxTableElt) (propagatorType : String) :
    VariablesRequest where
  headers := ⟨20, [headers], List.cons_ne_nil _ _, nofun⟩
  propagatorType := ascii propagatorType

/-- A new context, after the first interaction was started. -/
def sampleHandles : TracingHandles where
  propagationHeaders := [⟨ascii "Parent_Span_Id", ascii "00f067aa0ba902b7"⟩]
  trace_id := ⟨[], 0⟩
  root_span_id := ⟨[], 0⟩
  tracing_context := ⟨[], 0⟩

def sampleTraceparent : Traceparent where
  version := ascii "00"
  traceId := ascii "4bf92f3577b34da6a3ce929d0e0e4736"
  spanId := ascii "b7ad6b7169203331"
  rest := ascii "-01"
  length_version := rfl
  length_traceId := rfl
  length_spanId := rfl

theorem rootSpanId_sampleHandles : RootSpanId sampleHandles (ascii "00f067aa0ba902b7") :=
  ⟨rfl, .inr ⟨rfl, by decide⟩⟩

theorem variables_decorated_sample :
    let r := sampleVariablesRequest [⟨ascii "Traceparent", some sampleTraceparent.text⟩] "w3c"
    ∃ ctx', otelVariablesDecorator r sampleHandles = some ctx' ∧
      Published r sampleHandles (ascii "00f067aa0ba902b7") ctx'.tracing_context := by
  intro r
  have hwf : r.WellFormed := by
    refine ⟨fun _ h hmem _ => ⟨sampleTraceparent, ?_⟩, fun hb3 => absurd hb3 (by decide)⟩
    rw [List.mem_singleton.mp hmem]
  exact (variables_decorated_iff hwf rootSpanId_sampleHandles).mpr
    (.inr ⟨fun _ _ => by decide, fun hb3 => absurd hb3 (by decide)⟩)

/-- The NUL behind the B3 context is written outside of its allocation. -/
theorem b3_not_published :
    let r := sampleVariablesRequest
      [⟨ascii "X-B3-TraceId", some sampleTraceparent.traceId⟩,
        ⟨ascii "X-B3-SpanId", some sampleTraceparent.spanId⟩,
        ⟨ascii "X-B3-Sampled", some (ascii "1")⟩] "b3"
    r.WellFormed ∧ RootSpanId sampleHandles (ascii "00f067aa0ba902b7") ∧
      otelVariablesDecorator r sampleHandles = none ∧
      ¬∃ ctx', otelVariablesDecorator r sampleHandles = some ctx' ∧
        Published r sampleHandles (ascii "00f067aa0ba902b7") ctx'.tracing_context := by
  intro r
  have hvalues : r.headers.toList.all (fun h => h.value.any (· ≠ [])) = true := by decide
  have hwf : r.WellFormed := by
    refine ⟨fun hb3 => absurd hb3 (by decide), fun _ h hmem _ => ?_⟩
    have hany := List.all_eq_true.mp hvalues h hmem
    obtain ⟨id, hid, hne⟩ := (Option.any_eq_true ..).mp hany
    exact ⟨id, hid, of_decide_eq_true hne⟩
  have hnone : otelVariablesDecorator r sampleHandles = none :=
    Option.isNone_iff_eq_none.mp (by decide +kernel)
  refine ⟨hwf, rootSpanId_sampleHandles, hnone, ?_⟩
  rintro ⟨ctx', h, -⟩
  rw [hnone] at h
  cases h

end NginxWebserver

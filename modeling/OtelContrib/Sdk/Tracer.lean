/-
What the instrumentations use of the SDK.

The SDK is not part of the repository.  A `Tracer` is what can be seen of it: the
spans that were started, the calls of `End` in their order, and the contexts of the
thread.  Ids are left to the SDK; here a span is known by its number.

* `Tracer.OnlyDescribes` — setting attributes and statuses starts nothing, ends
  nothing and leaves the contexts alone.
-/
import OtelContrib.Lib.ContextStack
import OtelContrib.Lib.OrderedMap
import OtelContrib.Lib.Text

open ContextStack

namespace Otel

/-- A span context that came in with the headers of a request. -/
structure RemoteContext where
  traceId : ℕ
  spanId : ℕ
  sampled : Bool
  deriving DecidableEq

/-- A span context: of the n-th span that was started here, or a remote one. -/
inductive SpanContext
  | started (n : ℕ)
  | remote (c : RemoteContext)
  deriving DecidableEq

inductive SpanKind
  | INTERNAL | SERVER | CLIENT
  deriving DecidableEq

inductive StatusCode
  | Ok | Error | Unset
  deriving DecidableEq

inductive AttributeValue
  | string (v : Bytes)
  | int32 (v : Int32)
  | int64 (v : Int64)
  | uint32 (v : UInt32)
  | uint64 (v : UInt64)
  | stringArray (v : List Bytes)

abbrev Attributes := OrderedMap Bytes AttributeValue

structure Span where
  name : Bytes
  kind : SpanKind
  parent : Option SpanContext
  attributes : Attributes
  status : StatusCode × Bytes

/-- The spans started so far, the spans `End` was called on, and the thread's contexts. -/
structure Tracer where
  spans : List Span
  ended : List ℕ
  contexts : Stack SpanContext

namespace Tracer

/-- Nothing was started yet and nothing is attached. -/
def init : Tracer := ⟨[], [], Stack.empty⟩

def updateSpan (t : Tracer) (n : ℕ) (f : Span → Span) : Tracer :=
  { t with spans := t.spans.modify n f }

/-- `StartSpan` with an explicit parent. -/
def startSpanUnder (t : Tracer) (parent : Option SpanContext) (name : Bytes) (kind : SpanKind)
    (attributes : Attributes) : ℕ × Tracer :=
  (t.spans.length,
    { t with spans := t.spans ++ [⟨name, kind, parent, attributes, (.Unset, [])⟩] })

/-- `StartSpan` without one: the parent is the span on top of the stack. -/
def startSpan (t : Tracer) (name : Bytes) (kind : SpanKind) (attributes : Attributes) :
    ℕ × Tracer :=
  t.startSpanUnder t.contexts.current.span name kind attributes

def endSpan (t : Tracer) (n : ℕ) : Tracer := { t with ended := t.ended ++ [n] }

def setStatus (t : Tracer) (n : ℕ) (code : StatusCode) (desc : Bytes) : Tracer :=
  t.updateSpan n fun span => { span with status := (code, desc) }

def setAttribute (t : Tracer) (n : ℕ) (key : Bytes) (value : AttributeValue) : Tracer :=
  t.updateSpan n fun span => { span with attributes := span.attributes.insert key value }

def updateName (t : Tracer) (n : ℕ) (name : Bytes) : Tracer :=
  t.updateSpan n fun span => { span with name := name }

/-- `WithActiveSpan`: attaches the current context with the span in it. -/
def withActiveSpan (t : Tracer) (n : ℕ) : Entry SpanContext × Tracer :=
  let (context, contexts) := t.contexts.setSpan t.contexts.current (.started n)
  let (scope, contexts) := contexts.attach context
  (scope, { t with contexts := contexts })

def detach (rule : DetachRule SpanContext) (token : Entry SpanContext) (t : Tracer) : Tracer :=
  { t with contexts := t.contexts.detach rule token }

/-- A loop that adds texts as attributes, their keys behind a common start. -/
def addAttributes (t : Tracer) (n : ℕ) (start : Bytes) (texts : OrderedMap Bytes Bytes) : Tracer :=
  texts.entries.foldl (fun t kv => t.setAttribute n (start ++ kv.1) (.string kv.2)) t

/-- A scope that goes leaves the stack as it was. -/
theorem detach_withActiveSpan (t : Tracer) (n : ℕ) :
    ((t.withActiveSpan n).2.detach ownEntry (t.withActiveSpan n).1).contexts.entries =
      t.contexts.entries := by
  refine (Stack.popThrough_cons _ _ _ _).trans (if_pos ?_)
  exact decide_eq_true rfl

/-- An update that leaves something of every span alone. -/
theorem map_updateSpan {α : Type} {g : Span → α} (t : Tracer) (n : ℕ) {f : Span → Span}
    (hf : ∀ span, g (f span) = g span) : (t.updateSpan n f).spans.map g = t.spans.map g := by
  refine List.ext_getElem? fun i => ?_
  rw [updateSpan, List.getElem?_map, List.getElem?_map, List.getElem?_modify]
  split
  · cases t.spans[i]? <;> simp [hf]
  · simp

/-- Two tracers that differ in names, attributes and statuses only. -/
structure OnlyDescribes (t t' : Tracer) : Prop where
  ended : t'.ended = t.ended
  length : t'.spans.length = t.spans.length
  parents : t'.spans.map Span.parent = t.spans.map Span.parent
  contexts : t'.contexts = t.contexts

namespace OnlyDescribes

theorem refl (t : Tracer) : t.OnlyDescribes t := ⟨rfl, rfl, rfl, rfl⟩

theorem trans {t t' t'' : Tracer} (h : t.OnlyDescribes t') (h' : t'.OnlyDescribes t'') :
    t.OnlyDescribes t'' :=
  ⟨h'.ended.trans h.ended, h'.length.trans h.length, h'.parents.trans h.parents,
    h'.contexts.trans h.contexts⟩

theorem ite {t u v : Tracer} {p : Prop} [Decidable p] (hu : t.OnlyDescribes u)
    (hv : t.OnlyDescribes v) : t.OnlyDescribes (if p then u else v) := by
  split
  · exact hu
  · exact hv

theorem updateSpan (t : Tracer) (n : ℕ) {f : Span → Span}
    (hf : ∀ span, (f span).parent = span.parent) :
    t.OnlyDescribes (t.updateSpan n f) :=
  ⟨rfl, List.length_modify .., t.map_updateSpan n hf, rfl⟩

theorem setStatus (t : Tracer) (n : ℕ) (code : StatusCode) (desc : Bytes) :
    t.OnlyDescribes (t.setStatus n code desc) :=
  updateSpan t n fun _ => rfl

theorem setAttribute (t : Tracer) (n : ℕ) (key : Bytes) (value : AttributeValue) :
    t.OnlyDescribes (t.setAttribute n key value) :=
  updateSpan t n fun _ => rfl

theorem updateName (t : Tracer) (n : ℕ) (name : Bytes) : t.OnlyDescribes (t.updateName n name) :=
  updateSpan t n fun _ => rfl

theorem addAttributes (t : Tracer) (n : ℕ) (start : Bytes) (texts : OrderedMap Bytes Bytes) :
    t.OnlyDescribes (t.addAttributes n start texts) := by
  rw [Tracer.addAttributes]
  induction texts.entries generalizing t with
  | nil => exact refl t
  | cons kv entries ih => exact (setAttribute t n _ _).trans (ih _)

end OnlyDescribes

end Tracer

/-- The loop over propagators that each put what they extract into the context. -/
def extractContext (extracted : List (Option RemoteContext)) (context : Context SpanContext)
    (contexts : Stack SpanContext) : Context SpanContext × Stack SpanContext :=
  extracted.foldl
    (fun acc found =>
      match found with
      | some remote => acc.2.setSpan acc.1 (.remote remote)
      | none => acc)
    (context, contexts)

/-- The last propagator that finds something decides, and the context is as it was
when none does. -/
theorem extractContext_spec (extracted : List (Option RemoteContext)) (c : Context SpanContext)
    (s : Stack SpanContext) :
    (extractContext extracted c s).1.span =
        (((extracted.filterMap id).getLast?).map SpanContext.remote).or c.span ∧
      (extractContext extracted c s).2.entries = s.entries ∧
      (extractContext extracted c s).2.nextId = s.nextId := by
  induction extracted generalizing c s with
  | nil => exact ⟨rfl, rfl, rfl⟩
  | cons found extracted ih =>
    rcases found with _ | remote
    · exact ih c s
    · obtain ⟨hspan, hentries, hnextId⟩ := ih (s.setSpan c (.remote remote)).1
        (s.setSpan c (.remote remote)).2
      have hcons : (some remote :: extracted).filterMap id = remote :: extracted.filterMap id := rfl
      refine ⟨?_, hentries, hnextId⟩
      refine hspan.trans ?_
      rw [hcons, List.getLast?_cons]
      cases (extracted.filterMap id).getLast? with
      | none => rfl
      | some last => rfl

/-! ### The `traceparent` header -/

/-- A number in lower-case hexadecimal digits, as many as given. -/
def toHex : ℕ → ℕ → Bytes
  | 0, _ => []
  | width + 1, n =>
    let d := n % 16
    toHex width (n / 16) ++ [if d < 10 then UInt8.ofNat (48 + d) else UInt8.ofNat (87 + d)]

def ofHex (s : Bytes) : Option ℕ :=
  s.foldlM (fun n b =>
    if 48 ≤ b ∧ b ≤ 57 then some (16 * n + (b.toNat - 48))
    else if 97 ≤ b ∧ b ≤ 102 then some (16 * n + (b.toNat - 87))
    else none) 0

def traceparent (c : RemoteContext) : Bytes :=
  ascii "00-" ++ toHex 32 c.traceId ++ ascii "-" ++ toHex 16 c.spanId ++ ascii "-"
    ++ toHex 2 (if c.sampled then 1 else 0)

/-- A header is valid when no id in it is zero. -/
def parseTraceparent (header : Bytes) : Option RemoteContext := do
  let traceId ← ofHex ((header.drop 3).take 32)
  let spanId ← ofHex ((header.drop 36).take 16)
  let flags ← ofHex (header.drop 53)
  if header.length = 55 ∧ traceId ≠ 0 ∧ spanId ≠ 0 then some ⟨traceId, spanId, flags % 2 = 1⟩
  else none

end Otel

/-
Whose spans become parents in the webserver engine.

A span is started under whatever context is on top of the thread's stack, and the
requests of a thread share that stack.  `Attached` is the invariant of runs: every
attached context was attached by a request that is still live, and the scopes of a
request's spans carry these spans.

* `ownParents_iff` — all parents and all propagation headers of a run stay within
  their requests exactly when every interaction starts with a context of its own
  request on top, and every request that brings no valid header starts on a bare
  stack;
* `interleaved_requests_share_parents` — two requests at once are enough to break it.
-/
import OtelContrib.Webserver.Lifecycle

open ContextStack Otel

namespace Webserver

/-! ### The tokens of a request -/

namespace IScopedSpan

/-- The tokens a span holds: for a server span that of the extracted context too. -/
def tokens : IScopedSpan → List (Entry SpanContext)
  | .serverSpan s token => [token, s.mScope]
  | .scopedSpan s => [s.mScope]

/-- The entry that was attached with the span in it. -/
def scope : IScopedSpan → Entry SpanContext
  | .serverSpan s _ => s.mScope
  | .scopedSpan s => s.mScope

end IScopedSpan

/-- The numbers of the tokens that spans hold. -/
def heldIds (ss : List IScopedSpan) : List ℕ := (ss.flatMap IScopedSpan.tokens).map Entry.id

namespace RequestContext

/-- The spans of a request that are not over yet, the most recent one first. -/
def openSpans (c : RequestContext) : List IScopedSpan := c.interactions ++ [c.rootSpan]

def held (c : RequestContext) : List ℕ := heldIds c.openSpans

theorem root_mem_openSpans (c : RequestContext) : c.rootSpan ∈ c.openSpans :=
  List.mem_append_right _ List.mem_cons_self

theorem held_cons {c : RequestContext} {s : IScopedSpan} {rest : List IScopedSpan}
    (h : c.interactions = s :: rest) :
    c.held = heldIds [s] ++ { c with interactions := rest }.held := by
  simp [held, heldIds, openSpans, h]

end RequestContext

variable {sdk : Sdk}

/-- Ending spans detaches their tokens, for a server span that of the extracted
context twice. -/
theorem mem_entries_endInteractions (hrule : sdk.detachRule = ownEntry) (ss : List IScopedSpan)
    (t : Tracer) (e : Entry SpanContext) :
    e ∈ (endInteractions sdk t ss).contexts.entries ↔
      e ∈ t.contexts.entries ∧ ∀ i ∈ heldIds ss, i ∈ t.contexts.ids → e.id < i := by
  have hdetached : ∃ tokens, (∀ token, token ∈ tokens ↔ token ∈ ss.flatMap IScopedSpan.tokens) ∧
      (endInteractions sdk t ss).contexts = t.contexts.detachAll ownEntry tokens := by
    induction ss generalizing t with
    | nil => exact ⟨[], by simp, rfl⟩
    | cons s rest ih =>
      obtain ⟨tokens, hmem, heq⟩ := ih (s.destroy sdk (s.finish sdk t))
      cases s with
      | serverSpan s token =>
        refine ⟨[token, token, s.mScope] ++ tokens, ?_, ?_⟩
        · simp [hmem, IScopedSpan.tokens]
        · rw [Stack.detachAll_append, endInteractions, heq, ← hrule]
          rfl
      | scopedSpan s =>
        refine ⟨[s.mScope] ++ tokens, ?_, ?_⟩
        · simp [hmem, IScopedSpan.tokens]
        · rw [Stack.detachAll_append, endInteractions, heq, ← hrule]
          rfl
  obtain ⟨tokens, hmem, heq⟩ := hdetached
  rw [heq, Stack.mem_detachAll_ownEntry]
  simp only [hmem, heldIds, List.forall_mem_map]

variable (sdk) in
theorem nextId_endInteractions (ss : List IScopedSpan) (t : Tracer) :
    (endInteractions sdk t ss).contexts.nextId = t.contexts.nextId := by
  induction ss generalizing t with
  | nil => rfl
  | cons s rest ih =>
    rw [endInteractions, ih]
    cases s with
    | serverSpan s token => rfl
    | scopedSpan s => rfl

theorem endInteractions_append (ss ss' : List IScopedSpan) (t : Tracer) :
    endInteractions sdk t (ss ++ ss') = endInteractions sdk (endInteractions sdk t ss) ss' := by
  induction ss generalizing t with
  | nil => rfl
  | cons s rest ih => exact ih _

/-! ### What a new span is put under -/

/-- The remote parent that comes with the headers: the last propagator that finds one
decides. -/
def remoteParent (sdk : Sdk) (carrier : Carrier) : Option RemoteContext :=
  ((sdk.propagators.map fun propagator => propagator.extract carrier).filterMap id).getLast?

/-- What a request's root span is and attaches. -/
theorem createSpan_server {t : Tracer} {name : Bytes} {attributes : OtelKeyValueMap}
    {carrier : Carrier} {created : IScopedSpan × Tracer}
    (h : createSpan sdk t name .SERVER attributes carrier = created) :
    ∃ scope token,
      created.1 = .serverSpan ⟨t.spans.length, scope, .SERVER⟩ token ∧
      token.id = t.contexts.nextId ∧ scope.id = t.contexts.nextId + 1 ∧
      scope.context.span = some (.started t.spans.length) ∧
      created.2.contexts.entries = scope :: token :: t.contexts.entries ∧
      created.2.contexts.nextId = t.contexts.nextId + 2 ∧
      created.2.spans[t.spans.length]?.map Span.parent =
        some (((remoteParent sdk carrier).map .remote).or t.contexts.current.span) := by
  subst h
  obtain ⟨hspan, hentries, hnextId⟩ := extractContext_spec
    (sdk.propagators.map fun propagator => propagator.extract carrier) t.contexts.current t.contexts
  have hcreate : createSpan sdk t name .SERVER attributes carrier =
    newServerSpan sdk t name attributes carrier := if_pos rfl
  rw [hcreate]
  refine ⟨_, _, rfl, hnextId, congrArg (· + 1) hnextId, rfl, ?_, congrArg (· + 2) hnextId, ?_⟩
  · exact congrArg (fun entries => _ :: _ :: entries) hentries
  · rw [remoteParent, ← hspan]
    exact congrArg (Option.map Span.parent) List.getElem?_concat_length

/-- What the span of an interaction is and attaches. -/
theorem createSpan_client {t : Tracer} {name : Bytes} {attributes : OtelKeyValueMap}
    {carrier : Carrier} {created : IScopedSpan × Tracer}
    (h : createSpan sdk t name .CLIENT attributes carrier = created) :
    ∃ scope,
      created.1 = .scopedSpan ⟨t.spans.length, scope, .CLIENT⟩ ∧
      scope.id = t.contexts.nextId ∧ scope.context.span = some (.started t.spans.length) ∧
      created.2.contexts.entries = scope :: t.contexts.entries ∧
      created.2.contexts.nextId = t.contexts.nextId + 1 ∧
      created.2.spans[t.spans.length]?.map Span.parent = some t.contexts.current.span := by
  subst h
  have hcreate : createSpan sdk t name .CLIENT attributes carrier =
    (.scopedSpan (newScopedSpan t name .CLIENT attributes).1,
      (newScopedSpan t name .CLIENT attributes).2) := if_neg (by decide)
  rw [hcreate]
  exact ⟨_, rfl, rfl, rfl, rfl, rfl,
    congrArg (Option.map Span.parent) List.getElem?_concat_length⟩

/-! ### The invariant of runs -/

section
open RequestProcessingEngine

/-- Whose contexts are attached. -/
structure Attached (e : RequestProcessingEngine) : Prop where
  root : ∀ handle c, e.requests handle = some c →
    ∃ s token, c.rootSpan = .serverSpan s token ∧ s.mScope.id = token.id + 1 ∧
      (token.id ∈ e.tracer.contexts.ids → s.mScope.id ∈ e.tracer.contexts.ids)
  interactions : ∀ handle c, e.requests handle = some c → ∀ s ∈ c.interactions,
    s.tokens = [s.scope]
  held_lt : ∀ handle c, e.requests handle = some c → ∀ i ∈ c.held, i < e.tracer.contexts.nextId
  held_nodup : ∀ handle c, e.requests handle = some c → c.held.Nodup
  separate : ∀ handle handle' c c', handle ≠ handle' → e.requests handle = some c →
    e.requests handle' = some c' → c.held.Disjoint c'.held
  owned : ∀ i ∈ e.tracer.contexts.ids, ∃ handle c, e.requests handle = some c ∧ i ∈ c.held
  scopes : ∀ handle c, e.requests handle = some c → ∀ s ∈ c.openSpans,
    ∀ entry ∈ e.tracer.contexts.entries, entry.id = s.scope.id →
      entry.context.span = some (.started s.span)

variable {e e' : RequestProcessingEngine} {handle : ℕ} {c : RequestContext}

theorem scope_mem_held {s : IScopedSpan} (hs : s ∈ c.openSpans) : s.scope.id ∈ c.held := by
  refine List.mem_map_of_mem (List.mem_flatMap.mpr ⟨s, hs, ?_⟩)
  cases s <;> simp [IScopedSpan.tokens, IScopedSpan.scope]

/-- Detaching tokens that one request gives up leaves the others' contexts as they are,
or takes them away from the top. -/
theorem Attached.ending {r : Option RequestContext} {ended : List ℕ} (I : Attached e)
    (hlive : e.requests handle = some c)
    (hentries : ∀ entry, entry ∈ e'.tracer.contexts.entries ↔
      entry ∈ e.tracer.contexts.entries ∧
        ∀ i ∈ ended, i ∈ e.tracer.contexts.ids → entry.id < i)
    (hnextId : e'.tracer.contexts.nextId = e.tracer.contexts.nextId)
    (hrequests : e'.requests = Function.update e.requests handle r)
    (hheld : c.held = ended ++ r.elim [] RequestContext.held)
    (hr : ∀ c', r = some c' → c'.rootSpan = c.rootSpan ∧ c'.interactions ⊆ c.interactions) :
    Attached e' := by
  have hids : ∀ i, i ∈ e'.tracer.contexts.ids ↔ i ∈ e.tracer.contexts.ids ∧
      ∀ j ∈ ended, j ∈ e.tracer.contexts.ids → i < j := by
    intro i
    constructor
    · intro hi
      obtain ⟨entry, hentry, rfl⟩ := List.mem_map.mp hi
      obtain ⟨hmem, hlt⟩ := (hentries entry).mp hentry
      exact ⟨List.mem_map_of_mem hmem, hlt⟩
    · rintro ⟨hi, hlt⟩
      obtain ⟨entry, hentry, rfl⟩ := List.mem_map.mp hi
      exact List.mem_map_of_mem ((hentries entry).mpr ⟨hentry, hlt⟩)
  -- what is live afterwards was live before and gave up nothing that it still holds
  have hbefore : ∀ k c', e'.requests k = some c' → ∃ c₀, e.requests k = some c₀ ∧
      c'.rootSpan = c₀.rootSpan ∧ c'.interactions ⊆ c₀.interactions ∧ c'.held.Sublist c₀.held ∧
      ∀ i ∈ c'.held, i ∉ ended := by
    intro k c' hk
    rw [hrequests, update_eq_some_iff] at hk
    rcases hk with ⟨rfl, rfl⟩ | ⟨hkh, hk⟩
    · obtain ⟨hroot, hsubset⟩ := hr c' rfl
      have hnodup := I.held_nodup k c hlive
      rw [hheld] at hnodup
      refine ⟨c, hlive, hroot, hsubset, ?_, fun i hi hi' => ?_⟩
      · rw [hheld]
        exact List.sublist_append_right _ _
      · exact (List.nodup_append.mp hnodup).2.2 i hi' i hi rfl
    · refine ⟨c', hk, rfl, List.Subset.refl _, List.Sublist.refl _, fun i hi hi' => ?_⟩
      refine I.separate k handle c' c hkh hk hlive hi ?_
      rw [hheld]
      exact List.mem_append_left _ hi'
  constructor
  · intro k c' hk
    obtain ⟨c₀, hk₀, hroot, -, -, hkept⟩ := hbefore k c' hk
    obtain ⟨s, token, hserver, hid, hup⟩ := I.root k c₀ hk₀
    refine ⟨s, token, hroot.trans hserver, hid, fun htoken => ?_⟩
    obtain ⟨hmem, hlt⟩ := (hids _).mp htoken
    refine (hids _).mpr ⟨hup hmem, fun j hj hj' => ?_⟩
    have hle := hlt j hj hj'
    have hne : s.mScope.id ≠ j := by
      rintro rfl
      have hscope := scope_mem_held c'.root_mem_openSpans
      rw [hroot, hserver] at hscope
      exact hkept s.mScope.id hscope hj
    omega
  · intro k c' hk s hs
    obtain ⟨c₀, hk₀, -, hsubset, -, -⟩ := hbefore k c' hk
    exact I.interactions k c₀ hk₀ s (hsubset hs)
  · intro k c' hk i hi
    obtain ⟨c₀, hk₀, -, -, hsublist, -⟩ := hbefore k c' hk
    rw [hnextId]
    exact I.held_lt k c₀ hk₀ i (hsublist.subset hi)
  · intro k c' hk
    obtain ⟨c₀, hk₀, -, -, hsublist, -⟩ := hbefore k c' hk
    exact (I.held_nodup k c₀ hk₀).sublist hsublist
  · intro k k' c' c'' hkk' hk hk' i hi hi'
    obtain ⟨c₀, hk₀, -, -, hsublist, -⟩ := hbefore k c' hk
    obtain ⟨c₁, hk₁, -, -, hsublist', -⟩ := hbefore k' c'' hk'
    exact I.separate k k' c₀ c₁ hkk' hk₀ hk₁ (hsublist.subset hi) (hsublist'.subset hi')
  · intro i hi
    obtain ⟨hmem, hlt⟩ := (hids i).mp hi
    obtain ⟨k, c₀, hk₀, hi₀⟩ := I.owned i hmem
    by_cases hkh : k = handle
    · subst hkh
      rw [hlive] at hk₀
      obtain rfl := Option.some.inj hk₀
      rw [hheld] at hi₀
      rcases List.mem_append.mp hi₀ with hended | hkept
      · exact absurd (hlt i hended hmem) (Nat.lt_irrefl i)
      · cases r with
        | none => exact absurd hkept List.not_mem_nil
        | some c' =>
          refine ⟨k, c', ?_, hkept⟩
          rw [hrequests, Function.update_self]
    · refine ⟨k, c₀, ?_, hi₀⟩
      rw [hrequests, Function.update_of_ne hkh]
      exact hk₀
  · intro k c' hk s hs entry hentry hid
    obtain ⟨c₀, hk₀, hroot, hsubset, -, -⟩ := hbefore k c' hk
    refine I.scopes k c₀ hk₀ s ?_ entry ((hentries entry).mp hentry).1 hid
    rcases List.mem_append.mp hs with hs | hs
    · exact List.mem_append_left _ (hsubset hs)
    · exact List.mem_append_right _ (hroot ▸ hs)

/-- The numbers that a request holds stay distinct when it gets new ones. -/
theorem Attached.held_nodup_creating (I : Attached e) {added : List (Entry SpanContext)}
    (hentries : e'.tracer.contexts.entries = added ++ e.tracer.contexts.entries)
    (hadded : ∀ i ∈ added.map Entry.id, e.tracer.contexts.nextId ≤ i)
    (hheld : c.held.Perm
      (added.map Entry.id ++ (e.requests handle).elim [] RequestContext.held)) :
    c.held.Nodup := by
  refine hheld.nodup_iff.mpr (List.nodup_append.mpr ⟨?_, ?_, ?_⟩)
  · have hordered := e'.tracer.contexts.ordered
    rw [hentries] at hordered
    exact (List.pairwise_map.mpr ((List.pairwise_append.mp hordered).1.imp
      fun hlt => Nat.ne_of_gt hlt))
  · rcases hlive : e.requests handle with _ | c₀
    · exact List.nodup_nil
    · exact I.held_nodup handle c₀ hlive
  · rintro i hi j hj rfl
    rcases hlive : e.requests handle with _ | c₀
    · rw [hlive] at hj
      exact absurd hj List.not_mem_nil
    · rw [hlive] at hj
      exact absurd (hadded i hi) (Nat.not_le_of_lt (I.held_lt handle c₀ hlive i hj))

/-- Attaching contexts for one request, with numbers that are new. -/
theorem Attached.creating (I : Attached e) (added : List (Entry SpanContext))
    (hentries : e'.tracer.contexts.entries = added ++ e.tracer.contexts.entries)
    (hadded : ∀ entry ∈ added, e.tracer.contexts.nextId ≤ entry.id)
    (hnextId : e.tracer.contexts.nextId ≤ e'.tracer.contexts.nextId)
    (hrequests : e'.requests = Function.update e.requests handle (some c))
    (hheld : c.held.Perm (added.map Entry.id ++ (e.requests handle).elim [] RequestContext.held))
    (hroot : ∃ s token, c.rootSpan = .serverSpan s token ∧ s.mScope.id = token.id + 1 ∧
      (token.id ∈ e'.tracer.contexts.ids → s.mScope.id ∈ e'.tracer.contexts.ids))
    (hinteractions : ∀ s ∈ c.interactions, s.tokens = [s.scope])
    (hscopes : ∀ s ∈ c.openSpans, ∀ entry ∈ e'.tracer.contexts.entries,
      entry.id = s.scope.id → entry.context.span = some (.started s.span)) :
    Attached e' := by
  have hids : e'.tracer.contexts.ids = added.map Entry.id ++ e.tracer.contexts.ids := by
    rw [Stack.ids, hentries, List.map_append, Stack.ids]
  -- an entry with an old number is an old one
  have hold : ∀ entry ∈ e'.tracer.contexts.entries, entry.id < e.tracer.contexts.nextId →
      entry ∈ e.tracer.contexts.entries := by
    intro entry hentry hlt
    rw [hentries] at hentry
    rcases List.mem_append.mp hentry with hnew | hmem
    · exact absurd (hadded entry hnew) (Nat.not_le_of_lt hlt)
    · exact hmem
  have hlt' : ∀ i ∈ added.map Entry.id, i < e'.tracer.contexts.nextId := by
    intro i hi
    refine Stack.lt_of_mem_ids ?_
    rw [hids]
    exact List.mem_append_left _ hi
  have hsplit : ∀ i ∈ c.held, i ∈ added.map Entry.id ∨
      ∃ c₀, e.requests handle = some c₀ ∧ i ∈ c₀.held := by
    intro i hi
    rcases List.mem_append.mp (hheld.mem_iff.mp hi) with hi | hi
    · exact .inl hi
    · rcases hlive : e.requests handle with _ | c₀
      · rw [hlive] at hi
        exact absurd hi List.not_mem_nil
      · rw [hlive] at hi
        exact .inr ⟨c₀, rfl, hi⟩
  have hadded' : ∀ i ∈ added.map Entry.id, e.tracer.contexts.nextId ≤ i :=
    List.forall_mem_map.mpr hadded
  have hseparate : ∀ k c', k ≠ handle → e.requests k = some c' → c.held.Disjoint c'.held := by
    intro k c' hk hlive i hi hi'
    rcases hsplit i hi with hi | ⟨c₀, hc₀, hi⟩
    · exact absurd (hadded' i hi) (Nat.not_le_of_lt (I.held_lt k c' hlive i hi'))
    · exact I.separate handle k c₀ c' (Ne.symm hk) hc₀ hlive hi hi'
  -- what is live afterwards is the request itself, or was live before
  have hcases : ∀ k c', e'.requests k = some c' →
      (k = handle ∧ c' = c) ∨ (k ≠ handle ∧ e.requests k = some c') := by
    intro k c' hk
    rw [hrequests, update_eq_some_iff, Option.some.injEq] at hk
    exact hk.imp (And.imp_right Eq.symm) id
  constructor
  · intro k c' hk
    rcases hcases k c' hk with ⟨rfl, rfl⟩ | ⟨-, hk⟩
    · exact hroot
    · obtain ⟨s, token, hserver, hid, hup⟩ := I.root k c' hk
      refine ⟨s, token, hserver, hid, fun htoken => ?_⟩
      have htoken_lt : token.id < e.tracer.contexts.nextId := by
        refine I.held_lt k c' hk token.id ?_
        simp [RequestContext.held, heldIds, RequestContext.openSpans, hserver, IScopedSpan.tokens]
      rw [hids] at htoken ⊢
      rcases List.mem_append.mp htoken with hnew | hmem
      · exact absurd (hadded' _ hnew) (Nat.not_le_of_lt htoken_lt)
      · exact List.mem_append_right _ (hup hmem)
  · intro k c' hk
    rcases hcases k c' hk with ⟨rfl, rfl⟩ | ⟨-, hk⟩
    · exact hinteractions
    · exact I.interactions k c' hk
  · intro k c' hk i hi
    rcases hcases k c' hk with ⟨rfl, rfl⟩ | ⟨-, hk⟩
    · rcases hsplit i hi with hi | ⟨c₀, hc₀, hi⟩
      · exact hlt' i hi
      · exact Nat.lt_of_lt_of_le (I.held_lt k c₀ hc₀ i hi) hnextId
    · exact Nat.lt_of_lt_of_le (I.held_lt k c' hk i hi) hnextId
  · intro k c' hk
    rcases hcases k c' hk with ⟨rfl, rfl⟩ | ⟨-, hk⟩
    · exact I.held_nodup_creating hentries hadded' hheld
    · exact I.held_nodup k c' hk
  · intro k k' c' c'' hkk' hk hk'
    rcases hcases k c' hk with ⟨rfl, rfl⟩ | ⟨hne, hk⟩
    · obtain ⟨rfl, -⟩ | ⟨hne', hk'⟩ := hcases k' c'' hk'
      · exact absurd rfl hkk'
      · exact hseparate k' c'' hne' hk'
    · obtain ⟨rfl, rfl⟩ | ⟨-, hk'⟩ := hcases k' c'' hk'
      · exact fun i hi hi' => hseparate k c' hkk' hk hi' hi
      · exact I.separate k k' c' c'' hkk' hk hk'
  · intro i hi
    rw [hids] at hi
    have hown : i ∈ added.map Entry.id ++ (e.requests handle).elim [] RequestContext.held →
        ∃ k c', e'.requests k = some c' ∧ i ∈ c'.held := by
      intro hi
      refine ⟨handle, c, ?_, hheld.mem_iff.mpr hi⟩
      rw [hrequests, Function.update_self]
    rcases List.mem_append.mp hi with hi | hi
    · exact hown (List.mem_append_left _ hi)
    · obtain ⟨k, c', hk, hi⟩ := I.owned i hi
      by_cases hkh : k = handle
      · subst hkh
        refine hown (List.mem_append_right _ ?_)
        rwa [hk]
      · refine ⟨k, c', ?_, hi⟩
        rw [hrequests, Function.update_of_ne hkh]
        exact hk
  · intro k c' hk s hs entry hentry hid
    rcases hcases k c' hk with ⟨rfl, rfl⟩ | ⟨-, hk⟩
    · exact hscopes s hs entry hentry hid
    · refine I.scopes k c' hk s hs entry (hold entry hentry ?_) hid
      rw [hid]
      exact I.held_lt k c' hk _ (scope_mem_held hs)

theorem attached_init : Attached RequestProcessingEngine.init := by
  constructor <;> simp [RequestProcessingEngine.init, Tracer.init, Stack.ids, Stack.empty]

/-- Every call keeps the contexts attached where they belong. -/
theorem Attached.step (hrule : sdk.detachRule = ownEntry) (getSpanName : Bytes → Bytes)
    {ts : List CallTransition} {call : Call} {outcome : Outcome} (I : Attached e)
    (A : Accounted ts e) (hstep : e.step sdk getSpanName call = some (outcome, e')) :
    Attached e' := by
  cases stepped sdk getSpanName hstep with
  | failed _ => exact I
  | @startedRequest wscontext payload name created hcreated =>
    obtain ⟨scope, token, hspan, htoken, hscope, hcontext, hentries, hnextId, -⟩ :=
      createSpan_server hcreated
    have hfresh := (A.fresh e.nextHandle (Nat.le_refl _)).1
    refine I.creating [scope, token] hentries ?_
      ((Nat.le_add_right _ 2).trans_eq hnextId.symm) rfl ?_ ?_ ?_ ?_
    · simp only [List.forall_mem_cons]
      exact ⟨by omega, by omega, by simp⟩
    · rw [hfresh]
      simp only [RequestContext.held, heldIds, RequestContext.openSpans, hspan]
      exact List.Perm.swap _ _ _
    · refine ⟨_, _, hspan, by simp only [hscope, htoken], fun _ => ?_⟩
      simp [Stack.ids, hentries]
    · simp
    · intro s hs entry hentry hid
      obtain rfl := List.mem_singleton.mp hs
      rw [hspan] at hid ⊢
      -- only one entry has the number of the new scope
      rcases List.mem_cons.mp (hentries ▸ hentry) with rfl | hentry
      · exact hcontext
      · rcases List.mem_cons.mp hentry with rfl | hentry
        · exact absurd (htoken.symm.trans (hid.trans hscope)) (by omega)
        · have hlt := e.tracer.contexts.bounded entry hentry
          exact absurd (hid.trans hscope) (by omega)
  | @startedInteraction handle payload headers name attributes c created hlive hcreated =>
    obtain ⟨scope, hspan, hscope, hcontext, hentries, hnextId, -⟩ := createSpan_client hcreated
    obtain ⟨s, token, hserver, hid, hup⟩ := I.root handle c hlive
    have htoken_lt : token.id < e.tracer.contexts.nextId := by
      refine I.held_lt handle c hlive token.id ?_
      simp [RequestContext.held, heldIds, RequestContext.openSpans, hserver, IScopedSpan.tokens]
    refine I.creating [scope] hentries ?_
      ((Nat.le_add_right _ 1).trans_eq hnextId.symm) rfl ?_ ?_ ?_ ?_
    · simp [hscope]
    · rw [hlive, RequestContext.held_cons rfl, hspan]
      exact List.Perm.refl _
    · refine ⟨s, token, hserver, hid, fun htoken => ?_⟩
      rw [Stack.ids, hentries, List.map_cons, List.mem_cons] at htoken ⊢
      rcases htoken with heq | hmem
      · exact absurd (heq.trans hscope) (by omega)
      · exact .inr (hup hmem)
    · intro s hs
      rcases List.mem_cons.mp hs with rfl | hs
      · rw [hspan]
        rfl
      · exact I.interactions handle c hlive s hs
    · intro s hs entry hentry hid
      rcases List.mem_cons.mp hs with rfl | hs
      · rw [hspan] at hid ⊢
        rcases List.mem_cons.mp (hentries ▸ hentry) with rfl | hentry
        · exact hcontext
        · have hlt := e.tracer.contexts.bounded entry hentry
          exact absurd (hid.trans hscope) (by omega)
      · rcases List.mem_cons.mp (hentries ▸ hentry) with rfl | hentry
        · have hlt := I.held_lt handle c hlive _ (scope_mem_held hs)
          exact absurd (hid.symm.trans hscope) (by omega)
        · exact I.scopes handle c hlive s hs entry hentry hid
  | @endedInteraction handle ignoreBackend payload c s rest hlive hopen =>
    have hentries := mem_entries_endInteractions hrule [s] (describeInteraction e.tracer s payload)
    have hnextId := nextId_endInteractions sdk [s] (describeInteraction e.tracer s payload)
    rw [(describeInteraction_onlyDescribes e.tracer s payload).contexts] at hentries hnextId
    refine I.ending hlive hentries hnextId rfl (c.held_cons hopen) ?_
    rintro c' ⟨⟩
    refine ⟨rfl, ?_⟩
    rw [hopen]
    exact List.subset_cons_self s rest
  | @endedRequest handle error payload c tracer hlive htracer =>
    have hdescribed := (describeRequest_onlyDescribes sdk (endInteractions sdk e.tracer
      c.interactions) c.rootSpan error payload).contexts
    rw [htracer] at hdescribed
    have hcontexts : (c.rootSpan.destroy sdk (c.rootSpan.finish sdk tracer)).contexts =
        (endInteractions sdk e.tracer c.openSpans).contexts := by
      rw [RequestContext.openSpans, endInteractions_append]
      cases hroot : c.rootSpan with
      | serverSpan s token =>
        exact congrArg (fun contexts => ((contexts.detach sdk.detachRule token).detach
          sdk.detachRule token).detach sdk.detachRule s.mScope) hdescribed
      | scopedSpan s =>
        exact congrArg (fun contexts => contexts.detach sdk.detachRule s.mScope) hdescribed
    have hentries := mem_entries_endInteractions hrule c.openSpans e.tracer
    have hnextId := nextId_endInteractions sdk c.openSpans e.tracer
    rw [← hcontexts] at hentries hnextId
    exact I.ending hlive hentries hnextId rfl (List.append_nil _).symm (by simp)

/-- What is on top of the stack is the scope of an open span, with that span in it. -/
theorem Attached.top (I : Attached e) {top : Entry SpanContext}
    (htop : e.tracer.contexts.entries.head? = some top) (hlive : e.requests handle = some c)
    (hheld : top.id ∈ c.held) :
    ∃ s ∈ c.openSpans, top.context.span = some (.started s.span) := by
  have hmem : top ∈ e.tracer.contexts.entries := List.mem_of_head? htop
  obtain ⟨entry, hentry, hid⟩ := List.mem_map.mp hheld
  obtain ⟨s, hs, hentry⟩ := List.mem_flatMap.mp hentry
  have hscope : top.id = s.scope.id := by
    rcases List.mem_append.mp hs with hinteraction | hroot
    · rw [I.interactions handle c hlive s hinteraction, List.mem_singleton] at hentry
      rw [← hid, hentry]
    · obtain ⟨server, token, hserver, hnext, hup⟩ := I.root handle c hlive
      rw [List.mem_singleton.mp hroot, hserver] at hentry ⊢
      rcases List.mem_cons.mp hentry with rfl | hentry
      · -- above the extracted context the scope is attached, so it is not on top
        have hle := Stack.le_of_head htop (hup (hid ▸ List.mem_map_of_mem hmem))
        omega
      · rw [← hid, List.mem_singleton.mp hentry]
        rfl
  exact ⟨s, hs, I.scopes handle c hlive s hs top hmem hscope⟩

/-! ### The parents of a run -/

/-- The parent of the span that a transition started. -/
def newParent (t : CallTransition) : Option (Option SpanContext) :=
  t.after.tracer.spans[t.before.tracer.spans.length]?.map Span.parent

/-- A start stays within its request: a root span is put under the remote parent in the
request's own headers, an interaction's span under an open span of its request, and
the headers it hands back name spans of the request. -/
def OwnParents (sdk : Sdk) (t : CallTransition) : Prop :=
  match t.call with
  | .startRequest _ (some payload) true =>
    newParent t = some ((remoteParent sdk payload.httpHeaders).map .remote)
  | .startInteraction (some handle) (some _) headers =>
    ∃ c c', t.before.requests handle = some c ∧ t.after.requests handle = some c' ∧
      (∃ s ∈ c.openSpans, newParent t = some (some (.started s.span))) ∧
      ∃ s ∈ c'.openSpans, ∃ p ∈ c.openSpans, t.outcome.propagationHeaders =
        (propagationHeaders sdk (some (.started s.span)) headers).insert (ascii "Parent_Span_Id")
          (sdk.toLowerBase16 (some (.started p.span)))
  | _ => True

/-- Before a start, what is on top of the thread's stack comes from the same request:
for a request without a valid header, nothing is there. -/
def OwnOnTop (sdk : Sdk) (t : CallTransition) : Prop :=
  match t.call with
  | .startRequest _ (some payload) true =>
    (remoteParent sdk payload.httpHeaders).isSome ∨ t.before.tracer.contexts.entries = []
  | .startInteraction (some handle) (some _) _ =>
    ∃ c top, t.before.requests handle = some c ∧
      t.before.tracer.contexts.entries.head? = some top ∧ top.id ∈ c.held
  | _ => True

theorem Accounted.mem_requestSpans {ts : List CallTransition} (A : Accounted ts e)
    (hlive : e.requests handle = some c) {s : IScopedSpan} (hs : s ∈ c.openSpans) :
    s.span ∈ requestSpans handle ts := by
  have hdescribes := A.live handle c hlive
  rcases List.mem_append.mp hs with hs | hs
  · exact List.mem_append_right _ (hdescribes.mem_interactions.mp (List.mem_map_of_mem hs)).1
  · refine List.mem_append_left _ ?_
    rw [hdescribes.root, List.mem_singleton.mp hs]
    exact List.mem_cons_self

theorem current_span (s : Stack SpanContext) {top : Entry SpanContext}
    (htop : s.entries.head? = some top) : s.current.span = top.context.span := by
  rw [Stack.current, htop]
  rfl

/-- A request's root gets the right parent exactly when nothing of the stack can show
through. -/
theorem startRequest_parents (I : Attached e) {payload : RequestPayload} {name : Bytes}
    {created : IScopedSpan × Tracer}
    (hcreated : createSpan sdk e.tracer name .SERVER (rootAttributes payload) payload.httpHeaders
      = created) :
    created.2.spans[e.tracer.spans.length]?.map Span.parent =
        some ((remoteParent sdk payload.httpHeaders).map .remote) ↔
      (remoteParent sdk payload.httpHeaders).isSome ∨ e.tracer.contexts.entries = [] := by
  obtain ⟨-, -, -, -, -, -, -, -, hparent⟩ := createSpan_server hcreated
  rw [hparent, Option.some.injEq]
  rcases hremote : remoteParent sdk payload.httpHeaders with _ | remote
  · rcases htop : e.tracer.contexts.entries.head? with _ | top
    · have hempty := List.head?_eq_none_iff.mp htop
      simp [hempty, Stack.current, Context.empty]
    · obtain ⟨k, c, hlive, hheld⟩ :=
        I.owned top.id (List.mem_map_of_mem (List.mem_of_head? htop))
      obtain ⟨s, -, hspan⟩ := I.top htop hlive hheld
      -- there is something, and it is not a remote context
      have hne : e.tracer.contexts.entries ≠ [] := by
        rintro hempty
        rw [hempty] at htop
        cases htop
      simp [current_span _ htop, hspan, hne]
  · simp

/-- An interaction's span and headers stay within the request exactly when what is on
top is a context of it. -/
theorem startInteraction_parents {ts : List CallTransition} (I : Attached e) (A : Accounted ts e)
    (hlive : e.requests handle = some c) :
    (∃ s ∈ c.openSpans, e.tracer.contexts.current.span = some (.started s.span)) ↔
      ∃ top, e.tracer.contexts.entries.head? = some top ∧ top.id ∈ c.held := by
  constructor
  · rintro ⟨s, hs, hspan⟩
    rcases htop : e.tracer.contexts.entries.head? with _ | top
    · rw [Stack.current, htop] at hspan
      cases hspan
    · refine ⟨top, rfl, ?_⟩
      obtain ⟨k, c', hlive', hheld⟩ :=
        I.owned top.id (List.mem_map_of_mem (List.mem_of_head? htop))
      by_cases hk : k = handle
      · subst hk
        rw [hlive] at hlive'
        exact Option.some.inj hlive' ▸ hheld
      · -- the top belongs to another request, and so does the span in it
        obtain ⟨s', hs', hspan'⟩ := I.top htop hlive' hheld
        rw [current_span _ htop, hspan'] at hspan
        obtain heq := SpanContext.started.inj (Option.some.inj hspan)
        exact absurd (heq ▸ A.mem_requestSpans hlive' hs')
          fun hmem => A.separate k handle hk hmem (A.mem_requestSpans hlive hs)
  · rintro ⟨top, htop, hheld⟩
    obtain ⟨s, hs, hspan⟩ := I.top htop hlive hheld
    exact ⟨s, hs, (current_span _ htop).trans hspan⟩

/-- A start with a live handle, a place for the handle and a payload succeeds. -/
theorem starts_succeed (getSpanName : Bytes → Bytes) {call : Call} {outcome : Outcome}
    (hstep : e.step sdk getSpanName call = some (outcome, e')) :
    (∀ wscontext payload, call = .startRequest wscontext (some payload) true →
      outcome.status = .success) ∧
    ∀ handle payload headers, call = .startInteraction (some handle) (some payload) headers →
      outcome.status = .success := by
  refine ⟨?_, ?_⟩
  · rintro wscontext payload rfl
    cases Option.some.inj hstep
    rfl
  · rintro handle payload headers rfl
    rw [RequestProcessingEngine.step] at hstep
    unfold RequestProcessingEngine.startInteraction at hstep
    rcases hlive : e.requests handle with _ | c
    · simp [hlive] at hstep
    · simp only [hlive] at hstep
      cases hstep
      rfl

/-- One call: the parents it gives are right exactly when the right context is on top. -/
theorem ownParents_step_iff (getSpanName : Bytes → Bytes) {ts : List CallTransition}
    {t : CallTransition} (I : Attached t.before) (A : Accounted ts t.before)
    (hstep : t.before.step sdk getSpanName t.call = some (t.outcome, t.after)) :
    OwnParents sdk t ↔ OwnOnTop sdk t := by
  obtain ⟨e, call, outcome, e'⟩ := t
  replace hstep : e.step sdk getSpanName call = some (outcome, e') := hstep
  replace I : Attached e := I
  replace A : Accounted ts e := A
  cases stepped sdk getSpanName hstep with
  | failed hfailed =>
    obtain ⟨hrequest, hinteraction⟩ := starts_succeed getSpanName hstep
    rcases call with ⟨wscontext, _ | payload, _ | _⟩ | ⟨_ | handle, _ | payload, headers⟩ | _ | _
    case startRequest.some.true => exact absurd (hrequest wscontext payload rfl) hfailed
    case startInteraction.some.some =>
      exact absurd (hinteraction handle payload headers rfl) hfailed
    all_goals exact Iff.rfl
  | startedRequest _ _ hcreated => exact startRequest_parents I hcreated
  | @startedInteraction handle payload headers name attributes c created hlive hcreated =>
    obtain ⟨scope, hspan, -, hcontext, hentries, -, hparent⟩ := createSpan_client hcreated
    have htop := startInteraction_parents I A hlive
    constructor
    · rintro ⟨c₀, -, hlive₀, -, ⟨s, hs, hnew⟩, -⟩
      obtain rfl := Option.some.inj (hlive.symm.trans hlive₀)
      have hcurrent := Option.some.inj (hparent.symm.trans hnew)
      obtain ⟨top, htop, hheld⟩ := htop.mp ⟨s, hs, hcurrent⟩
      exact ⟨c, top, hlive, htop, hheld⟩
    · rintro ⟨c₀, top, hlive₀, hhead, hheld⟩
      obtain rfl := Option.some.inj (hlive.symm.trans hlive₀)
      obtain ⟨s, hs, hcurrent⟩ := htop.mpr ⟨top, hhead, hheld⟩
      -- the headers are populated when the new scope is on top already
      have hnew : created.2.contexts.entries.head? = some scope := by
        rw [hentries]
        rfl
      have hafter : created.2.contexts.current.span = some (.started created.1.span) := by
        rw [current_span _ hnew, hcontext, hspan]
        rfl
      refine ⟨c, _, hlive, Function.update_self .., ⟨s, hs, ?_⟩, created.1, ?_, s, hs, ?_⟩
      · exact hparent.trans (congrArg some hcurrent)
      · exact List.mem_cons_self
      · rw [populatePropagationHeaders, returnCurrentSpanId, hafter, hcurrent]
  | endedInteraction _ _ _ _ _ => exact Iff.rfl
  | endedRequest _ _ _ _ _ => exact Iff.rfl

/-- **Whose spans become parents.**  With an SDK whose tokens detach their own entries,
all calls of a run stay within their requests exactly when each of them finds on top
of the thread's stack what its own request attached. -/
theorem ownParents_iff (hrule : sdk.detachRule = ownEntry) (getSpanName : Bytes → Bytes)
    {ts : List CallTransition} (hrun : Run (RequestProcessingEngine.step sdk getSpanName) init
      ts e) :
    (∀ t ∈ ts, OwnParents sdk t) ↔ ∀ t ∈ ts, OwnOnTop sdk t := by
  refine hrun.forall_iff (I := fun ts e => Accounted ts e ∧ Attached e)
    ⟨accounted_init, attached_init⟩ ?_ ?_
  · rintro ts e call outcome e' ⟨A, I⟩ hstep
    exact ⟨A.snoc sdk getSpanName hstep, I.step hrule getSpanName A hstep⟩
  · rintro ts t ⟨A, I⟩ hstep
    exact ownParents_step_iff getSpanName I A hstep

/-- One request after the other, each with its interactions in nested order. -/
def sequentialCalls : List Call :=
  [.startRequest (ascii "ws") (some (sampleRequest ∅)) true,
    .startInteraction (some 0) (some ⟨ascii "mod_proxy", ascii "fixup"⟩) ∅,
    .endInteraction (some 0) false (some ⟨[], [], 0, []⟩),
    .endRequest (some 0) none none,
    .startRequest (ascii "ws") (some (sampleRequest ∅)) true]

theorem ownParents_sequential :
    ∃ ts e, Run (RequestProcessingEngine.step sampleSdk id) init ts e ∧
      e.tracer.spans.map Span.parent = [none, some (.started 0), none] ∧
      ∀ t ∈ ts, OwnParents sampleSdk t := by
  have hrun : ∃ r, Run.ofCalls (RequestProcessingEngine.step sampleSdk id) init sequentialCalls
      = some r ∧ r.2.tracer.spans.map Span.parent = [none, some (.started 0), none] ∧
      ∀ t ∈ r.1, OwnOnTop sampleSdk t := by
    refine ⟨_, rfl, rfl, ?_⟩
    refine List.forall_mem_cons.mpr ⟨Or.inr rfl, List.forall_mem_cons.mpr ⟨?_, ?_⟩⟩
    · exact Exists.intro _ (Exists.intro _ ⟨rfl, rfl, List.mem_of_elem_eq_true rfl⟩)
    · exact List.forall_mem_cons.mpr ⟨trivial, List.forall_mem_cons.mpr ⟨trivial,
        List.forall_mem_cons.mpr ⟨Or.inr rfl, fun _ h => absurd h List.not_mem_nil⟩⟩⟩
  obtain ⟨r, hr, hparents, htop⟩ := hrun
  exact ⟨r.1, r.2, Run.of_ofCalls hr, hparents,
    (ownParents_iff rfl id (Run.of_ofCalls hr)).mpr htop⟩

/-- A request without a header that is served while another one is open, and an
interaction of the first one after that. -/
def interleavedCalls : List Call :=
  [.startRequest (ascii "ws") (some (sampleRequest ∅)) true,
    .startRequest (ascii "ws") (some (sampleRequest ∅)) true,
    .startInteraction (some 0) (some ⟨ascii "mod_proxy", ascii "fixup"⟩) ∅]

theorem interleaved_requests_share_parents :
    ∃ ts e, Run (RequestProcessingEngine.step sampleSdk id) init ts e ∧
      e.tracer.spans.map Span.parent = [none, some (.started 0), some (.started 1)] ∧
      ¬ ∀ t ∈ ts, OwnParents sampleSdk t := by
  have hrun : ∃ r, Run.ofCalls (RequestProcessingEngine.step sampleSdk id) init interleavedCalls
      = some r ∧ r.2.tracer.spans.map Span.parent = [none, some (.started 0), some (.started 1)] ∧
      ¬ ∀ t ∈ r.1, OwnParents sampleSdk t := by
    refine ⟨_, rfl, rfl, ?_⟩
    intro h
    have hparent : some (some (SpanContext.started 0)) = some none :=
      h _ (List.mem_cons_of_mem _ List.mem_cons_self)
    cases hparent
  obtain ⟨r, hr, hparents, hnot⟩ := hrun
  exact ⟨r.1, r.2, Run.of_ofCalls hr, hparents, hnot⟩

end

end Webserver

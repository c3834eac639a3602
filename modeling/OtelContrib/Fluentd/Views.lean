/-
The string views that the fluentd recordables are given.

A view is either copied as it is, or handed on as the C string that starts where it does.  The
name of an event and the description of a status are copied.

* `populateAttribute_eq_set` — an attribute is one assignment, whatever it is assigned to;
* `copiesViews_iff`, `Logs.copiesViews_iff` — a call stores what its views view exactly when
  those it hands on are C strings;
* `copied_exactly_iff` — and then two runs with the same views end with the same JSON.
-/
import OtelContrib.Fluentd.LogRecordable
import OtelContrib.Lib.Runs
import Mathlib.Data.List.TakeWhile

open Otel.Common

/-- No NUL is in the view, and one is right behind it. -/
def Otel.Common.StringView.IsCString (v : StringView) : Prop :=
  (∀ b ∈ v.viewed, b ≠ 0) ∧ cString v.beyond = []

namespace Fluentd

/-! ### Attributes -/

theorem set_eq_map (j : Json) (k : Bytes) (v : Json) :
    j.set k v = j.members?.map fun members => .object
      (OrderedMap.alterEntries k (fun _ => v) members) := by
  rw [Json.set, Json.update]
  cases j.members? <;> rfl

/-- Pushing values assigns the array of them. -/
theorem pushAll_eq_set (attrs : Json) (key : Bytes) (vals : List Json) :
    pushAll attrs key vals = attrs.set key (spanValue vals) := by
  cases hmembers : attrs.members? with
  | none =>
    rw [pushAll, set_eq_map, set_eq_map, hmembers]
    rfl
  | some members =>
    have hset : ∀ v, attrs.set key v =
        some (.object (OrderedMap.alterEntries key (fun _ => v) members)) := by
      intro v
      rw [set_eq_map, hmembers, Option.map_some]
    -- what was pushed so far is under the key
    have hpush : ∀ done vals : List Json,
        vals.foldlM (fun attrs val => attrs.update key (·.pushBack val))
            (Json.object (OrderedMap.alterEntries key (fun _ => spanValue done) members))
          = attrs.set key (spanValue (done ++ vals)) := by
      intro done vals
      induction vals generalizing done with
      | nil => rw [List.append_nil, hset]; rfl
      | cons val vals ih =>
        rw [List.foldlM_cons, Json.update_of_set (hset _), pushBack_spanValue,
          Option.bind_some, hset, List.append_cons done val vals]
        exact ih (done ++ [val])
    rw [pushAll, hset]
    exact hpush [] vals

theorem populateAttribute_eq_set (attrs : Json) (key : StringView) (value : AttributeValue) :
    populateAttribute attrs key value = attrs.set key.data (attributeJson value) := by
  cases value <;> first | rfl | exact pushAll_eq_set ..

/-- The JSON of an attribute, with what its views view. -/
def viewedJson : AttributeValue → Json
  | .string v => .string v.viewed
  | value => attributeJson value

/-- An attribute is assigned as it is viewed. -/
def setViewed (attrs : Json) (kv : StringView × AttributeValue) : Option Json :=
  attrs.set kv.1.viewed (viewedJson kv.2)

/-- The views of an attribute that are handed on as C strings. -/
def attributeViews (kv : StringView × AttributeValue) : List StringView :=
  match kv.2 with
  | .string v => [kv.1, v]
  | _ => [kv.1]

theorem attributeJson_eq_iff (value : AttributeValue) :
    attributeJson value = viewedJson value ↔ ∀ v, value = .string v → v.IsCString := by
  cases value with
  | string v =>
    constructor
    · rintro h _ ⟨⟩
      exact v.data_eq_viewed_iff.mp (Json.string.inj h)
    · intro h
      exact congrArg Json.string (v.data_eq_viewed_iff.mpr (h v rfl))
  | _ => exact ⟨fun _ _ h => (by cases h), fun _ => rfl⟩

theorem forall_attributeViews_iff (kv : StringView × AttributeValue) :
    (∀ v ∈ attributeViews kv, v.IsCString) ↔
      kv.1.IsCString ∧ ∀ v, kv.2 = .string v → v.IsCString := by
  obtain ⟨key, value⟩ := kv
  cases value with
  | string v => simp [attributeViews]
  | _ => simp [attributeViews]

/-- An attribute is stored as it is viewed. -/
def CopiesAttribute (kv : StringView × AttributeValue) : Prop :=
  ∀ attrs : Json, populateAttribute attrs kv.1 kv.2 = setViewed attrs kv

theorem copiesAttribute_iff (kv : StringView × AttributeValue) :
    CopiesAttribute kv ↔ ∀ v ∈ attributeViews kv, v.IsCString := by
  rw [forall_attributeViews_iff, ← attributeJson_eq_iff]
  constructor
  · intro h
    have hnull := h .null
    rw [populateAttribute_eq_set] at hnull
    have hmember := List.cons.inj (Json.object.inj (Option.some.inj hnull))
    obtain ⟨hkey, hvalue⟩ := Prod.mk.inj hmember.1
    exact ⟨kv.1.data_eq_viewed_iff.mp hkey, hvalue⟩
  · rintro ⟨hkey, hvalue⟩ attrs
    rw [populateAttribute_eq_set, hvalue, kv.1.data_eq_viewed_iff.mpr hkey, setViewed]

/-- A value with nothing known of the memory behind its views. -/
def viewsOnly (v : StringView) : StringView := ⟨v.viewed, []⟩

def valueViewsOnly : AttributeValue → AttributeValue
  | .string v => .string (viewsOnly v)
  | .spanString vs => .spanString (vs.map viewsOnly)
  | value => value

def attributeViewsOnly (kv : StringView × AttributeValue) : StringView × AttributeValue :=
  (viewsOnly kv.1, valueViewsOnly kv.2)

theorem viewedJson_valueViewsOnly (value : AttributeValue) :
    viewedJson (valueViewsOnly value) = viewedJson value := by
  cases value with
  | spanString vs =>
    show spanValue ((vs.map viewsOnly).map fun v => .string v.viewed) =
      spanValue (vs.map fun v => .string v.viewed)
    rw [List.map_map]
    rfl
  | _ => rfl

theorem setViewed_attributeViewsOnly (attrs : Json) (kv : StringView × AttributeValue) :
    setViewed attrs (attributeViewsOnly kv) = setViewed attrs kv := by
  rw [setViewed, setViewed, attributeViewsOnly, viewedJson_valueViewsOnly]
  rfl

/-! ### Spans -/

/-- What a call is to do, with what its views view. -/
def Call.exact (r : Recordable) : Call → Option Recordable
  | .setAttribute key value =>
    r.assign <|
      (if r.options_.contains FLUENT_FIELD_PROPERTIES then []
        else [(FLUENT_FIELD_PROPERTIES, becomes (.object []))]) ++
      [(FLUENT_FIELD_PROPERTIES, fun properties => setViewed properties (key, value))]
  | .addEvent name attributes now => do
    let attrs ← attributes.foldlM setViewed (.object [])
    let attrs ← attrs.set FLUENT_FIELD_NAME (.string name)
    let ts := get_msgpack_eventtimeext now 0 0
    some { r with events_ := ← r.events_.pushBack (.array [ts, attrs]) }
  | .setName name => r.assign [(FLUENT_FIELD_NAME, becomes (.string name.viewed))]
  | call => call.apply r

def Call.attributes : Call → List (StringView × AttributeValue)
  | .setAttribute key value => [(key, value)]
  | .addEvent _ attributes _ => attributes
  | _ => []

/-- A call stores what its views view, in every span. -/
structure Call.CopiesViews (call : Call) : Prop where
  stored : ∀ r, call.apply r = call.exact r
  attributes : ∀ kv ∈ call.attributes, CopiesAttribute kv

/-- The views that a call hands on as C strings. -/
def Call.readViews : Call → List StringView
  | .setAttribute key value => attributeViews (key, value)
  | .addEvent _ attributes _ => attributes.flatMap attributeViews
  | .setName name => [name]
  | _ => []

/-- A call with nothing known of the memory behind its views. -/
def Call.viewsOnly : Call → Call
  | .setAttribute key value => .setAttribute (Fluentd.viewsOnly key) (valueViewsOnly value)
  | .addEvent name attributes now => .addEvent name (attributes.map attributeViewsOnly) now
  | .setName name => .setName (Fluentd.viewsOnly name)
  | call => call

theorem exact_viewsOnly (call : Call) (r : Recordable) : call.viewsOnly.exact r = call.exact r := by
  cases call with
  | setAttribute key value =>
    have hset := fun properties => setViewed_attributeViewsOnly properties (key, value)
    simp only [attributeViewsOnly] at hset
    simp only [Call.viewsOnly, Call.exact, hset]
  | addEvent name attributes now =>
    simp only [Call.viewsOnly, Call.exact, List.foldlM_map, setViewed_attributeViewsOnly]
  | _ => rfl

theorem foldlM_setViewed {attributes : List (StringView × AttributeValue)}
    (h : ∀ kv ∈ attributes, CopiesAttribute kv) (attrs : Json) :
    attributes.foldlM (fun attrs kv => populateAttribute attrs kv.1 kv.2) attrs =
      attributes.foldlM setViewed attrs := by
  exact Run.foldlM_congr (fun kv hkv attrs => h kv hkv attrs) attrs

/-- A call that hands on nothing but C strings stores what its views view. -/
theorem apply_eq_exact {call : Call} (h : ∀ v ∈ call.readViews, v.IsCString) (r : Recordable) :
    call.apply r = call.exact r := by
  cases call with
  | setAttribute key value =>
    have hcopies := (copiesAttribute_iff (key, value)).mpr h
    simp only [CopiesAttribute] at hcopies
    simp only [Call.apply, Recordable.setAttribute, Call.exact, hcopies]
  | addEvent name attributes now =>
    have hcopies : ∀ kv ∈ attributes, CopiesAttribute kv := fun kv hkv =>
      (copiesAttribute_iff kv).mpr fun v hv => h v (List.mem_flatMap.mpr ⟨kv, hkv, hv⟩)
    simp only [Call.apply, Recordable.addEvent, Call.exact, foldlM_setViewed hcopies]
  | setName name =>
    have hname : name.data = name.viewed :=
      name.data_eq_viewed_iff.mpr (h name List.mem_cons_self)
    simp only [Call.apply, Recordable.setName, Call.exact, hname]
  | _ => rfl

theorem copiesViews_iff (call : Call) :
    call.CopiesViews ↔ ∀ v ∈ call.readViews, v.IsCString := by
  constructor
  · rintro ⟨hstored, hattributes⟩
    cases call with
    | setAttribute key value => exact (copiesAttribute_iff _).mp (hattributes _ List.mem_cons_self)
    | addEvent name attributes now =>
      intro v hv
      obtain ⟨kv, hkv, hv⟩ := List.mem_flatMap.mp hv
      exact (copiesAttribute_iff kv).mp (hattributes kv hkv) v hv
    | setName name =>
      intro v hv
      obtain rfl := List.mem_singleton.mp hv
      have hinit := congrArg (Option.map Recordable.options_) (hstored (.init false))
      have hmember := List.cons.inj (Json.object.inj (Option.some.inj hinit))
      exact v.data_eq_viewed_iff.mp (Json.string.inj (Prod.mk.inj hmember.1).2)
    | _ => exact fun v hv => (List.not_mem_nil hv).elim
  · intro h
    refine ⟨apply_eq_exact h, fun kv hkv => (copiesAttribute_iff kv).mpr fun v hv => ?_⟩
    cases call with
    | setAttribute key value =>
      obtain rfl := List.mem_singleton.mp hkv
      exact h v hv
    | addEvent name attributes now => exact h v (List.mem_flatMap.mpr ⟨kv, hkv, hv⟩)
    | _ => exact (List.not_mem_nil hkv).elim

/-! ### Logs -/

theorem cString_data (v : StringView) : cString v.data = v.data := by
  rw [StringView.data, cString, cString, List.takeWhile_idem]

namespace Logs

/-- The text of a body, with what its view views. -/
def viewedText : AttributeValue → Bytes
  | .string v => v.viewed
  | value => cString (attributeValueToString value)

/-- What a call is to do, with what its views view. -/
def Call.exact (r : Recordable) : Call → Option Recordable
  | .setName name => r.assign [(ascii "name", becomes (.string name.viewed))]
  | .setBody message => r.assign [(ascii "body", becomes (.string (viewedText message)))]
  | .setEventId id name =>
    r.assign <|
      [(ascii "EventId", becomes (.int id))] ++
      if name.viewed ≠ [] then [(ascii "name", becomes (.string name.viewed))] else []
  | .setAttribute key value =>
    r.assign <|
      (if r.json_.contains FLUENT_FIELD_PROPERTIES then []
        else [(FLUENT_FIELD_PROPERTIES, becomes (.object []))]) ++
      [(FLUENT_FIELD_PROPERTIES, fun properties => setViewed properties (key, value))]
  | call => call.apply r

def Call.attributes : Call → List (StringView × AttributeValue)
  | .setAttribute key value => [(key, value)]
  | _ => []

/-- A call stores what its views view, in every log. -/
structure Call.CopiesViews (call : Call) : Prop where
  stored : ∀ r, call.apply r = call.exact r
  attributes : ∀ kv ∈ call.attributes, CopiesAttribute kv

/-- The views that a call hands on as C strings. -/
def Call.readViews : Call → List StringView
  | .setName name => [name]
  | .setBody (.string v) => [v]
  | .setEventId _ name => if name.viewed ≠ [] then [name] else []
  | .setAttribute key value => attributeViews (key, value)
  | _ => []

/-- A call with nothing known of the memory behind its views. -/
def Call.viewsOnly : Call → Call
  | .setName name => .setName (Fluentd.viewsOnly name)
  | .setBody message => .setBody (valueViewsOnly message)
  | .setEventId id name => .setEventId id (Fluentd.viewsOnly name)
  | .setAttribute key value => .setAttribute (Fluentd.viewsOnly key) (valueViewsOnly value)
  | call => call

theorem exact_viewsOnly (call : Call) (r : Recordable) : call.viewsOnly.exact r = call.exact r := by
  cases call with
  | setBody message => cases message <;> rfl
  | setAttribute key value =>
    have hset := fun properties => setViewed_attributeViewsOnly properties (key, value)
    simp only [attributeViewsOnly] at hset
    simp only [Call.viewsOnly, Call.exact, hset]
  | _ => rfl

/-- A call that hands on nothing but C strings stores what its views view. -/
theorem apply_eq_exact {call : Call} (h : ∀ v ∈ call.readViews, v.IsCString) (r : Recordable) :
    call.apply r = call.exact r := by
  cases call with
  | setName name =>
    have hname : name.data = name.viewed :=
      name.data_eq_viewed_iff.mpr (h name List.mem_cons_self)
    simp only [Call.apply, Recordable.setName, Call.exact, hname]
  | setBody message =>
    cases message with
    | string v =>
      have hbody : cString v.data = v.viewed :=
        (cString_data v).trans (v.data_eq_viewed_iff.mpr (h v List.mem_cons_self))
      simp only [Call.apply, Recordable.setBody, Call.exact, attributeValueToString, hbody,
        viewedText]
    | _ => rfl
  | setEventId id name =>
    by_cases hempty : name.viewed = []
    · simp only [Call.apply, Recordable.setEventId, Call.exact, hempty]
      rfl
    · have hname : name.data = name.viewed := name.data_eq_viewed_iff.mpr (h name (by
        rw [Call.readViews, if_pos hempty]
        exact List.mem_cons_self))
      simp only [Call.apply, Recordable.setEventId, Call.exact, hname]
  | setAttribute key value =>
    have hcopies := (copiesAttribute_iff (key, value)).mpr h
    simp only [CopiesAttribute] at hcopies
    simp only [Call.apply, Recordable.setAttribute, Call.exact, hcopies]
  | _ => rfl

theorem copiesViews_iff (call : Call) :
    call.CopiesViews ↔ ∀ v ∈ call.readViews, v.IsCString := by
  constructor
  · rintro ⟨hstored, hattributes⟩
    have hinit := congrArg (Option.map Recordable.json_) (hstored .init)
    cases call with
    | setName name =>
      intro v hv
      obtain rfl := List.mem_singleton.mp hv
      have hmember := List.cons.inj (Json.object.inj (Option.some.inj hinit))
      exact v.data_eq_viewed_iff.mp (Json.string.inj (Prod.mk.inj hmember.1).2)
    | setBody message =>
      cases message with
      | string v' =>
        intro v hv
        obtain rfl := List.mem_singleton.mp hv
        have hmember := List.cons.inj (Json.object.inj (Option.some.inj hinit))
        have hbody : cString v.data = v.viewed := Json.string.inj (Prod.mk.inj hmember.1).2
        rw [cString_data] at hbody
        exact v.data_eq_viewed_iff.mp hbody
      | _ => exact fun v hv => (List.not_mem_nil hv).elim
    | setEventId id name =>
      intro v hv
      rw [Call.readViews] at hv
      split at hv
      case isTrue hname =>
        obtain rfl := List.mem_singleton.mp hv
        simp only [Call.apply, Recordable.setEventId, Call.exact, if_pos hname] at hinit
        have hmember := List.cons.inj (List.cons.inj (Json.object.inj (Option.some.inj hinit))).2
        exact v.data_eq_viewed_iff.mp (Json.string.inj (Prod.mk.inj hmember.1).2)
      case isFalse => exact (List.not_mem_nil hv).elim
    | setAttribute key value => exact (copiesAttribute_iff _).mp (hattributes _ List.mem_cons_self)
    | _ => exact fun v hv => (List.not_mem_nil hv).elim
  · intro h
    refine ⟨apply_eq_exact h, fun kv hkv => (copiesAttribute_iff kv).mpr fun v hv => ?_⟩
    cases call with
    | setAttribute key value =>
      obtain rfl := List.mem_singleton.mp hkv
      exact h v hv
    | _ => exact (List.not_mem_nil hkv).elim

end Logs

/-! ### Two runs -/

/-- Calls that store what their views view make what they are to make. -/
theorem run_eq_exact {calls : List Call} (h : ∀ call ∈ calls, call.CopiesViews) (r : Recordable) :
    r.run calls = calls.foldlM Call.exact r :=
  Run.foldlM_congr (fun call hcall r => (h call hcall).stored r) r

theorem Logs.run_eq_exact {calls : List Logs.Call} (h : ∀ call ∈ calls, call.CopiesViews)
    (r : Logs.Recordable) : r.run calls = calls.foldlM Logs.Call.exact r :=
  Run.foldlM_congr (fun call hcall r => (h call hcall).stored r) r

/-- Every call of two runs stores what its views view, and the runs end with the same span. -/
structure CopiedExactly (calls calls' : List Call) : Prop where
  copies : ∀ call ∈ calls ++ calls', call.CopiesViews
  same : ∀ include_trace_state, (Recordable.init include_trace_state).run calls' =
    (Recordable.init include_trace_state).run calls

structure Logs.CopiedExactly (calls calls' : List Logs.Call) : Prop where
  copies : ∀ call ∈ calls ++ calls', call.CopiesViews
  same : Logs.Recordable.init.run calls' = Logs.Recordable.init.run calls

theorem copiedExactly_of_copies {calls calls' : List Call}
    (hviews : calls'.map Call.viewsOnly = calls.map Call.viewsOnly)
    (h : ∀ call ∈ calls ++ calls', call.CopiesViews) : CopiedExactly calls calls' where
  copies := h
  same := by
    intro include_trace_state
    have hexact := fun r : Recordable =>
      congrArg (fun calls => List.foldlM Call.exact r calls) hviews
    simp only [List.foldlM_map, exact_viewsOnly] at hexact
    rw [run_eq_exact fun call hcall => h call (List.mem_append_right _ hcall),
      run_eq_exact fun call hcall => h call (List.mem_append_left _ hcall)]
    exact hexact _

theorem Logs.copiedExactly_of_copies {calls calls' : List Logs.Call}
    (hviews : calls'.map Logs.Call.viewsOnly = calls.map Logs.Call.viewsOnly)
    (h : ∀ call ∈ calls ++ calls', call.CopiesViews) : Logs.CopiedExactly calls calls' where
  copies := h
  same := by
    have hexact := fun r : Logs.Recordable =>
      congrArg (fun calls => List.foldlM Logs.Call.exact r calls) hviews
    simp only [List.foldlM_map, Logs.exact_viewsOnly] at hexact
    rw [Logs.run_eq_exact fun call hcall => h call (List.mem_append_right _ hcall),
      Logs.run_eq_exact fun call hcall => h call (List.mem_append_left _ hcall)]
    exact hexact _

/-- Two runs on a span and two on a log that differ in what is behind their views only store what
is viewed, and end alike, exactly when every view that is handed on is a C string in both. -/
theorem copied_exactly_iff {calls calls' : List Call} {logs logs' : List Logs.Call}
    (hcalls : calls'.map Call.viewsOnly = calls.map Call.viewsOnly)
    (hlogs : logs'.map Logs.Call.viewsOnly = logs.map Logs.Call.viewsOnly) :
    CopiedExactly calls calls' ∧ Logs.CopiedExactly logs logs' ↔
      (∀ call ∈ calls ++ calls', ∀ v ∈ call.readViews, v.IsCString) ∧
        ∀ call ∈ logs ++ logs', ∀ v ∈ call.readViews, v.IsCString := by
  constructor
  · rintro ⟨hspan, hlog⟩
    exact ⟨fun call hcall => (copiesViews_iff call).mp (hspan.copies call hcall),
      fun call hcall => (Logs.copiesViews_iff call).mp (hlog.copies call hcall)⟩
  · rintro ⟨hspan, hlog⟩
    refine ⟨copiedExactly_of_copies hcalls fun call hcall => ?_,
      Logs.copiedExactly_of_copies hlogs fun call hcall => ?_⟩
    · exact (copiesViews_iff call).mpr (hspan call hcall)
    · exact (Logs.copiesViews_iff call).mpr (hlog call hcall)

/-- Two views of a literal, with other memory behind its NUL. -/
theorem literals_copied :
    CopiedExactly [.setName ⟨ascii "GET", [0]⟩] [.setName ⟨ascii "GET", [0, 65]⟩] ∧
      Logs.CopiedExactly [.setBody (.string ⟨ascii "up", [0]⟩)]
        [.setBody (.string ⟨ascii "up", [0, 66]⟩)] := by
  have hcalls : [Call.setName ⟨ascii "GET", [0, 65]⟩].map Call.viewsOnly =
      [Call.setName ⟨ascii "GET", [0]⟩].map Call.viewsOnly := rfl
  have hlogs : [Logs.Call.setBody (.string ⟨ascii "up", [0, 66]⟩)].map Logs.Call.viewsOnly =
      [Logs.Call.setBody (.string ⟨ascii "up", [0]⟩)].map Logs.Call.viewsOnly := rfl
  have hname : ∀ b ∈ ascii "GET", b ≠ 0 := List.forall_mem_ne'.mpr (by decide)
  have hbody : ∀ b ∈ ascii "up", b ≠ 0 := List.forall_mem_ne'.mpr (by decide)
  refine (copied_exactly_iff hcalls hlogs).mpr ⟨?_, ?_⟩
  · simp only [List.cons_append, List.nil_append, List.forall_mem_cons, Call.readViews,
      StringView.IsCString]
    exact ⟨⟨⟨hname, rfl⟩, nofun⟩, ⟨⟨hname, rfl⟩, nofun⟩, nofun⟩
  · simp only [List.cons_append, List.nil_append, List.forall_mem_cons, Logs.Call.readViews,
      StringView.IsCString]
    exact ⟨⟨⟨hbody, rfl⟩, nofun⟩, ⟨⟨hbody, rfl⟩, nofun⟩, nofun⟩

/-- A name that is viewed in a longer text becomes the whole text. -/
theorem name_overread :
    ¬ (CopiedExactly [.setName ⟨ascii "GET", ascii " /"⟩] [.setName ⟨ascii "GET", [0]⟩] ∧
      Logs.CopiedExactly [] []) ∧
    (Recordable.init false).setName ⟨ascii "GET", ascii " /"⟩ =
      (Recordable.init false).assign [(FLUENT_FIELD_NAME, becomes (.string (ascii "GET /")))] := by
  refine ⟨fun h => ?_, rfl⟩
  have hname := (copiesViews_iff _).mp (h.1.copies _ List.mem_cons_self) _ List.mem_cons_self
  exact absurd hname.2 (by decide)

end Fluentd

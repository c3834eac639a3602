/-
What is in the event of a user_events log record.

The setters of a recordable may be called in any order and any number of times.  `content`
is what the event should hold then: the last values given, and all attributes.

* `content_iff` — the event holds that exactly when the last `SetBody` comes before all
  attributes and after the last change of the severity and of the event id, there are at
  most 127 attributes, and nothing is read behind a view.
-/
import OtelContrib.UserEvents.Recordable
import Mathlib.Data.List.Forall2
import Mathlib.Data.List.Induction

open Backpatch Otel.Common

namespace UserEvents

/-! ### What was called -/

def Call.severity? : Call → Option UInt8
  | .setSeverity severity => some severity
  | _ => none

def Call.eventId? : Call → Option Int64
  | .setEventId id _ => some id
  | _ => none

def Call.attribute? : Call → Option (StringView × AttributeValue)
  | .setAttribute key value => some (key, value)
  | _ => none

def Call.body? : Call → Option AttributeValue
  | .setBody message => some message
  | _ => none

/-- What the last of some calls gave, of those that give something. -/
def lastOf {β : Type} (given : Call → Option β) (calls : List Call) : Option β :=
  (calls.filterMap given).getLast?

/-- The attributes that were set, in their order. -/
def attributesOf (calls : List Call) : List (StringView × AttributeValue) :=
  calls.filterMap Call.attribute?

/-- The severities are those of the API other than the invalid one. -/
def ValidSeverities (calls : List Call) : Prop :=
  ∀ severity, .setSeverity severity ∈ calls → 1 ≤ severity ∧ severity ≤ 24

/-! ### What should be written -/

section

variable (SeverityNumToText : UInt8 → Bytes)

/-- `PartB` for a severity, an event id and a body field. -/
def partB (severity : UInt8) (eventId : Option Int64) (body : Field) : List Field :=
  [Recordable.typeName, Recordable.severityNumber severity,
      Recordable.severityText (SeverityNumToText severity)] ++
    (eventId.map fun id => givenField (ascii "eventId") (.int64 id)).toList ++ [body]

/-- `PartC` for some attributes: there is none without one. -/
def partC : List Field → List (Entry Field)
  | [] => []
  | fs => [.struct (ascii "PartC") (fields fs)]

/-- The content of the event for some calls, the last body among them. -/
def content (calls : List Call) (body : AttributeValue) : List (Entry Field) :=
  .field Recordable.csver ::
    .struct (ascii "PartB")
      (fields (partB SeverityNumToText ((lastOf Call.severity? calls).getD 0)
        (lastOf Call.eventId? calls) (givenField (ascii "body") body))) ::
    partC ((attributesOf calls).map fun a => givenField a.1.viewed a.2)

end

/-- The calls before and after the last `SetBody` leave nothing out of the event. -/
structure InOrder (before : List Call) (body : AttributeValue) (after : List Call) : Prop where
  noneBefore : attributesOf before = []
  atMost : (attributesOf after).length ≤ 127
  severity : ∀ severity, lastOf Call.severity? after = some severity →
    lastOf Call.severity? before = some severity
  eventId : ∀ id, lastOf Call.eventId? after = some id → lastOf Call.eventId? before = some id
  body : Terminated body
  attributes : ∀ a ∈ attributesOf after, a.1.data = a.1.viewed ∧ Terminated a.2

/-! ### Small facts about calls -/

variable {calls before after : List Call} {call : Call}

theorem lastOf_append {β : Type} (given : Call → Option β) (before after : List Call) :
    lastOf given (before ++ after) = (lastOf given after).or (lastOf given before) := by
  rw [lastOf, List.filterMap_append, List.getLast?_append]
  rfl

theorem attributesOf_append (before after : List Call) :
    attributesOf (before ++ after) = attributesOf before ++ attributesOf after :=
  List.filterMap_append

/-- What a call gives counts from then on; another call changes nothing. -/
theorem lastOf_concat {β : Type} (given : Call → Option β) (calls : List Call) (call : Call) :
    lastOf given (calls ++ [call]) = (given call).or (lastOf given calls) := by
  rw [lastOf_append]
  cases h : given call <;> simp [lastOf, h]

theorem mem_of_lastOf {β : Type} {given : Call → Option β} {x : β}
    (h : lastOf given calls = some x) :
    ∃ call ∈ calls, given call = some x :=
  List.mem_filterMap.mp (List.mem_of_getLast? h)

theorem ValidSeverities.lastOf_ne_zero (h : ValidSeverities calls) {severity : UInt8}
    (hlast : lastOf Call.severity? calls = some severity) : severity ≠ 0 := by
  obtain ⟨call, hcall, hgiven⟩ := mem_of_lastOf hlast
  cases call <;> cases hgiven
  rintro rfl
  exact absurd (h 0 hcall).1 (by decide)

theorem attributesOf_concat (calls : List Call) (call : Call) :
    attributesOf (calls ++ [call]) = attributesOf calls ++ call.attribute?.toList := by
  rw [attributesOf_append]
  cases h : call.attribute? <;> simp [attributesOf, h]

/-! ### What a recordable knows -/

/-- What is known of a recordable at any time. -/
structure Tracks (r : Recordable) (calls : List Call) : Prop where
  severity : r.severity_ = (lastOf Call.severity? calls).getD 0
  eventId : (if r.has_event_id_ then some r.event_id_ else none) = lastOf Call.eventId? calls
  count : r.cs_part_c_bookmark_size_ = (attributesOf calls).length

/-- The field an attribute is populated as. -/
def Populates (key : StringView) (value : AttributeValue) (f : Field) : Prop :=
  ∃ p, populatedValue value = some p ∧ f = ⟨key.data, p.1, p.2⟩

/-- The items of `PartC`: its header is only there if no attribute came before the body. -/
def partCItems (attributesBefore : List (StringView × AttributeValue)) (fs : List Field) :
    List (Item Field) :=
  match attributesBefore, fs with
  | [], f :: fs => .header (ascii "PartC") 1 :: fields (f :: fs)
  | _, fs => fields fs

variable (SeverityNumToText : UInt8 → Bytes)

/-- Before the first body that takes effect. -/
structure Unwritten (r : Recordable) (calls : List Call) : Prop where
  size : r.cs_part_b_bookmark_size_ = 0
  empty : attributesOf calls = [] → r.event_builder_.items = []
  bookmark : r.cs_part_c_bookmark_ = 0

/-- After a body was written, and calls other than `SetBody` followed. -/
structure Written (r : Recordable) (before : List Call) (body : AttributeValue)
    (after : List Call) (bodyField : Field) (fs : List Field) : Prop where
  last : lastOf Call.body? after = none
  severity : (lastOf Call.severity? before).getD 0 ≠ 0
  bodyPopulates : Populates (literal "body") body bodyField
  populates : List.Forall₂ (fun a f => Populates a.1 a.2 f) (attributesOf after) fs
  bookmark : r.cs_part_b_bookmark_ = 1
  size : r.cs_part_b_bookmark_size_ =
    (partB SeverityNumToText ((lastOf Call.severity? before).getD 0)
      (lastOf Call.eventId? before) bodyField).length
  items : r.event_builder_.items = .field Recordable.csver :: .header (ascii "PartB") 1 ::
    (fields (partB SeverityNumToText ((lastOf Call.severity? before).getD 0)
      (lastOf Call.eventId? before) bodyField) ++ partCItems (attributesOf before) fs)
  bookmarkC : attributesOf before = [] → fs ≠ [] →
    r.cs_part_c_bookmark_ = r.cs_part_b_bookmark_size_ + 2
  bookmarkC_ne : r.cs_part_c_bookmark_ ≠ 1

/-! ### What a call does -/

variable {SeverityNumToText : UInt8 → Bytes} {r r' : Recordable} {key : StringView}
  {value message : AttributeValue}

theorem populateAttribute_spec {b b' : EventBuilder}
    (h : populateAttribute key value b = some b') :
    ∃ f, Populates key value f ∧ b' = b.add f := by
  obtain ⟨p, hp, hb'⟩ := Option.bind_eq_some_iff.mp h
  exact ⟨_, ⟨p, hp, rfl⟩, (Option.some.inj hb').symm⟩

theorem setAttribute_spec (h : r.setAttribute key value = some r') :
    ∃ f, Populates key value f ∧
      r' = { r with
        event_builder_ := { r.event_builder_ with
          items := r.event_builder_.items ++
            if r.cs_part_c_bookmark_size_ = 0 then [.header (ascii "PartC") 1, .field f]
            else [.field f] }
        cs_part_c_bookmark_ :=
          if r.cs_part_c_bookmark_size_ = 0 then r.event_builder_.items.length
          else r.cs_part_c_bookmark_
        cs_part_c_bookmark_size_ := r.cs_part_c_bookmark_size_ + 1 } := by
  rw [Recordable.setAttribute] at h
  by_cases hzero : r.cs_part_c_bookmark_size_ = 0
  · rw [if_pos hzero] at h
    obtain ⟨b, hb, hr'⟩ := Option.bind_eq_some_iff.mp h
    obtain ⟨f, hf, rfl⟩ := populateAttribute_spec hb
    refine ⟨f, hf, (Option.some.inj hr').symm.trans ?_⟩
    simp [hzero, EventBuilder.add]
  · rw [if_neg hzero] at h
    obtain ⟨b, hb, hr'⟩ := Option.bind_eq_some_iff.mp h
    obtain ⟨f, hf, rfl⟩ := populateAttribute_spec hb
    refine ⟨f, hf, (Option.some.inj hr').symm.trans ?_⟩
    simp [hzero, EventBuilder.add]

/-- A body without a severity is dropped; any other starts the event anew. -/
theorem setBody_spec (h : r.setBody SeverityNumToText message = some r') :
    r.severity_ = 0 ∧ r' = r ∨
      r.severity_ ≠ 0 ∧ ∃ f name, Populates (literal "body") message f ∧
        r' = { r with
          event_builder_ := ⟨name, .field Recordable.csver :: .header (ascii "PartB") 1 ::
            fields (partB SeverityNumToText r.severity_
              (if r.has_event_id_ then some r.event_id_ else none) f)⟩
          cs_part_b_bookmark_ := 1
          cs_part_b_bookmark_size_ := (partB SeverityNumToText r.severity_
            (if r.has_event_id_ then some r.event_id_ else none) f).length } := by
  rw [Recordable.setBody] at h
  by_cases hzero : r.severity_ = 0
  · rw [if_pos hzero] at h
    exact .inl ⟨hzero, (Option.some.inj h).symm⟩
  · rw [if_neg hzero] at h
    refine .inr ⟨hzero, ?_⟩
    -- the event id is populated as an integer, which cannot fail
    have heventId : ∀ b, populateAttribute (literal "eventId") (.int64 r.event_id_) b
        = some (b.add (givenField (ascii "eventId") (.int64 r.event_id_))) := fun _ => rfl
    cases hid : r.has_event_id_ with
    | true =>
      simp only [hid, if_true, heventId, Option.bind_eq_bind, Option.bind_some] at h
      obtain ⟨b, hb, hr'⟩ := Option.bind_eq_some_iff.mp h
      obtain ⟨f, hf, rfl⟩ := populateAttribute_spec hb
      cases hr'
      exact ⟨f, _, hf, rfl⟩
    | false =>
      simp only [hid, Option.bind_eq_bind, Option.bind_some] at h
      obtain ⟨b, hb, hr'⟩ := Option.bind_eq_some_iff.mp h
      obtain ⟨f, hf, rfl⟩ := populateAttribute_spec hb
      cases hr'
      exact ⟨f, _, hf, rfl⟩

/-! ### What holds after any calls -/

/-- Before a body takes effect, or after the last one. -/
def Known (SeverityNumToText : UInt8 → Bytes) (r : Recordable) (calls : List Call) : Prop :=
  Tracks r calls ∧ (Unwritten r calls ∨ ∃ before body after bodyField fs,
    calls = before ++ .setBody body :: after ∧
      Written SeverityNumToText r before body after bodyField fs)

theorem known_init : Known SeverityNumToText Recordable.init [] :=
  ⟨⟨rfl, rfl, rfl⟩, .inl ⟨rfl, fun _ => rfl, rfl⟩⟩

/-- A call that writes nothing leaves the event as it is. -/
theorem known_keep (h : Known SeverityNumToText r calls) (htracks : Tracks r' (calls ++ [call]))
    (hattribute : call.attribute? = none) (hbody : call.body? = none)
    (hsame : r'.event_builder_ = r.event_builder_ ∧
      r'.cs_part_b_bookmark_ = r.cs_part_b_bookmark_ ∧
      r'.cs_part_b_bookmark_size_ = r.cs_part_b_bookmark_size_ ∧
      r'.cs_part_c_bookmark_ = r.cs_part_c_bookmark_) :
    Known SeverityNumToText r' (calls ++ [call]) := by
  obtain ⟨hbuilder, hbookmark, hsize, hbookmarkC⟩ := hsame
  refine ⟨htracks, ?_⟩
  rcases h.2 with hunwritten | ⟨before, body, after, bodyField, fs, rfl, hwritten⟩
  · refine .inl ⟨hsize.trans hunwritten.size, fun hnone => ?_, hbookmarkC.trans hunwritten.bookmark⟩
    rw [attributesOf_concat, hattribute, Option.toList_none, List.append_nil] at hnone
    -- without an attribute the builder is still empty
    rw [hbuilder, hunwritten.empty hnone]
  · refine .inr ⟨before, body, after ++ [call], bodyField, fs, by simp, ?_⟩
    refine ⟨?_, hwritten.severity, hwritten.bodyPopulates, ?_, hbookmark.trans hwritten.bookmark,
      hsize.trans hwritten.size, ?_, fun hnone hne => ?_, ?_⟩
    · rw [lastOf_concat, hbody, Option.none_or, hwritten.last]
    · rw [attributesOf_concat, hattribute, Option.toList_none, List.append_nil]
      exact hwritten.populates
    · rw [hbuilder, hwritten.items]
    · rw [hbookmarkC, hsize, hwritten.bookmarkC hnone hne]
    · rw [hbookmarkC]
      exact hwritten.bookmarkC_ne

theorem known_setSeverity (h : Known SeverityNumToText r calls) {severity : UInt8}
    (hvalid : severity ≤ 24) :
    Known SeverityNumToText (r.setSeverity severity) (calls ++ [.setSeverity severity]) := by
  refine known_keep h ⟨?_, ?_, ?_⟩ rfl rfl ⟨rfl, rfl, rfl, rfl⟩
  · have hnot : ¬severity > 24 := by simpa using hvalid
    rw [lastOf_concat, Recordable.setSeverity, if_neg hnot]
    rfl
  · rw [lastOf_concat]
    exact h.1.eventId
  · rw [attributesOf_concat]
    exact h.1.count.trans (congrArg _ (List.append_nil _).symm)

theorem known_setEventId (h : Known SeverityNumToText r calls) (id : Int64) (name : StringView) :
    Known SeverityNumToText (r.setEventId id name) (calls ++ [.setEventId id name]) := by
  refine known_keep h ⟨?_, ?_, ?_⟩ rfl rfl ⟨rfl, rfl, rfl, rfl⟩
  · rw [lastOf_concat]
    exact h.1.severity
  · rw [lastOf_concat]
    rfl
  · rw [attributesOf_concat]
    exact h.1.count.trans (congrArg _ (List.append_nil _).symm)

/-- A body that takes effect starts the event anew; one before any severity changes nothing. -/
theorem known_setBody (h : Known SeverityNumToText r calls) (hvalid : ValidSeverities calls)
    (hset : r.setBody SeverityNumToText message = some r') :
    Known SeverityNumToText r' (calls ++ [.setBody message]) := by
  have htracks : ∀ r'' : Recordable, r''.severity_ = r.severity_ →
      r''.has_event_id_ = r.has_event_id_ → r''.event_id_ = r.event_id_ →
      r''.cs_part_c_bookmark_size_ = r.cs_part_c_bookmark_size_ →
      Tracks r'' (calls ++ [.setBody message]) := by
    intro r'' hseverity hhas hid hcount
    refine ⟨?_, ?_, ?_⟩
    · rw [lastOf_concat, hseverity]
      exact h.1.severity
    · rw [lastOf_concat, hhas, hid]
      exact h.1.eventId
    · rw [attributesOf_concat, hcount]
      exact h.1.count.trans (congrArg _ (List.append_nil _).symm)
  rcases setBody_spec hset with ⟨hzero, rfl⟩ | ⟨hne, f, name, hf, rfl⟩
  · refine ⟨htracks r' rfl rfl rfl rfl, ?_⟩
    rcases h.2 with hunwritten | ⟨before, body, after, bodyField, fs, rfl, hwritten⟩
    · refine .inl ⟨hunwritten.size, fun hnone => hunwritten.empty ?_, hunwritten.bookmark⟩
      rw [attributesOf_concat] at hnone
      exact (List.append_eq_nil_iff.mp hnone).1
    · -- a severity that was set is never taken back
      exfalso
      rw [h.1.severity] at hzero
      cases hlast : lastOf Call.severity? (before ++ .setBody body :: after) with
      | some severity =>
        rw [hlast] at hzero
        exact hvalid.lastOf_ne_zero hlast hzero
      | none =>
        rw [lastOf_append, Option.or_eq_none_iff] at hlast
        exact hwritten.severity (by rw [hlast.2]; rfl)
  · refine ⟨htracks _ rfl rfl rfl rfl, .inr ⟨calls, message, [], f, [], rfl, ?_⟩⟩
    rw [h.1.severity, h.1.eventId]
    rw [h.1.severity] at hne
    refine ⟨rfl, hne, hf, .nil, rfl, rfl, ?_, fun _ hne => absurd rfl hne, ?_⟩
    · have hnone : partCItems (attributesOf calls) [] = [] := by
        cases attributesOf calls <;> rfl
      rw [hnone, List.append_nil]
    · rcases h.2 with hunwritten | ⟨_, _, _, _, _, _, hwritten⟩
      · rw [hunwritten.bookmark]
        decide
      · exact hwritten.bookmarkC_ne

theorem partCItems_concat (attributesBefore : List (StringView × AttributeValue)) (fs : List Field)
    (f : Field) :
    partCItems attributesBefore (fs ++ [f]) = partCItems attributesBefore fs ++
      if attributesBefore = [] ∧ fs = [] then [.header (ascii "PartC") 1, .field f]
      else [.field f] := by
  cases attributesBefore <;> cases fs <;> simp [partCItems, fields]

/-- An attribute is the last field of the event. -/
theorem known_setAttribute (h : Known SeverityNumToText r calls)
    (hset : r.setAttribute key value = some r') :
    Known SeverityNumToText r' (calls ++ [.setAttribute key value]) := by
  obtain ⟨f, hf, rfl⟩ := setAttribute_spec hset
  refine ⟨⟨?_, ?_, ?_⟩, ?_⟩
  · rw [lastOf_concat]
    exact h.1.severity
  · rw [lastOf_concat]
    exact h.1.eventId
  · rw [attributesOf_concat, List.length_append, ← h.1.count]
    rfl
  · have hzero : r.cs_part_c_bookmark_size_ = 0 ↔ attributesOf calls = [] := by
      rw [h.1.count, List.length_eq_zero_iff]
    rcases h.2 with hunwritten | ⟨before, body, after, bodyField, fs, rfl, hwritten⟩
    · refine .inl ⟨hunwritten.size, fun hnone => ?_, ?_⟩
      · rw [attributesOf_concat] at hnone
        simp [Call.attribute?] at hnone
      · split
        case isTrue hnone => 
          simp [hunwritten.empty (hzero.mp hnone)]
        case isFalse => exact hunwritten.bookmark
    · refine .inr ⟨before, body, after ++ [.setAttribute key value], bodyField, fs ++ [f],
        by simp, ?_⟩
      -- the struct is opened if this is the first attribute of all
      have hfirst : r.cs_part_c_bookmark_size_ = 0 ↔ attributesOf before = [] ∧ fs = [] := by
        rw [hzero, attributesOf_append, List.append_eq_nil_iff]
        refine and_congr_right fun _ => ?_
        rw [← List.length_eq_zero_iff (l := fs), ← hwritten.populates.length_eq,
          List.length_eq_zero_iff]
        rfl
      refine ⟨?_, hwritten.severity, hwritten.bodyPopulates, ?_, hwritten.bookmark, hwritten.size,
        ?_, fun hnone _ => ?_, ?_⟩
      · rw [lastOf_concat, hwritten.last]
        rfl
      · rw [attributesOf_concat]
        exact List.rel_append hwritten.populates (.cons hf .nil)
      · rw [hwritten.items, partCItems_concat]
        simp only [hfirst, List.cons_append, List.append_assoc]
      · split
        case isTrue hempty =>
          rw [hwritten.items, hnone, (hfirst.mp hempty).2, hwritten.size]
          simp [partCItems, fields]
        case isFalse hsome =>
          refine hwritten.bookmarkC hnone fun hnil => hsome (hfirst.mpr ⟨hnone, hnil⟩)
      · split
        case isTrue =>
          rw [hwritten.items]
          simp
        case isFalse => exact hwritten.bookmarkC_ne

/-- After any calls the recordable is known. -/
theorem known_run (hvalid : ValidSeverities calls)
    (hrun : Recordable.init.run SeverityNumToText calls = some r) :
    Known SeverityNumToText r calls := by
  induction calls using List.reverseRecOn generalizing r with
  | nil =>
    cases hrun
    exact known_init
  | append_singleton calls call ih =>
    rw [Recordable.run, List.foldlM_append] at hrun
    obtain ⟨r₁, hr₁, hcall⟩ := Option.bind_eq_some_iff.mp hrun
    have happly : call.apply SeverityNumToText r₁ = some r := by simpa using hcall
    have hvalid₁ : ValidSeverities calls := fun severity hmem =>
      hvalid severity (List.mem_append_left _ hmem)
    have hknown := ih hvalid₁ hr₁
    cases call with
    | setSeverity severity =>
      cases happly
      exact known_setSeverity hknown (hvalid severity (by simp)).2
    | setEventId id name =>
      cases happly
      exact known_setEventId hknown id name
    | setAttribute key value => exact known_setAttribute hknown happly
    | setBody message => exact known_setBody hknown hvalid₁ happly

/-! ### The event -/

theorem fields_injective : Function.Injective (fields : List Field → List (Item Field)) :=
  List.map_injective_iff.mpr fun _ _ h => Item.field.inj h

theorem partB_length_le (SeverityNumToText : UInt8 → Bytes) (severity : UInt8)
    (eventId : Option Int64) (body : Field) :
    (partB SeverityNumToText severity eventId body).length ≤ 5 := by
  cases eventId <;> simp [partB]

theorem givenField_eventId_injective {id id' : Int64}
    (h : givenField (ascii "eventId") (.int64 id) = givenField (ascii "eventId") (.int64 id')) :
    id = id' := by
  have hvalue : FieldValue.value64 id.toUInt64 = .value64 id'.toUInt64 := congrArg Field.value h
  obtain ⟨v⟩ := id
  obtain ⟨v'⟩ := id'
  exact congrArg Int64.ofUInt64 (FieldValue.value64.inj hvalue)

theorem partB_eq_iff {severity severity' : UInt8} {eventId eventId' : Option Int64}
    {body body' : Field} :
    partB SeverityNumToText severity eventId body = partB SeverityNumToText severity' eventId' body'
      ↔ severity = severity' ∧ eventId = eventId' ∧ body = body' := by
  constructor
  · intro h
    obtain ⟨hfront, hbody⟩ := List.append_inj' h rfl
    obtain ⟨hseverity, hid⟩ := List.append_inj hfront rfl
    refine ⟨?_, ?_, List.singleton_inj.mp hbody⟩
    · simp only [List.cons.injEq, Recordable.severityNumber, Field.mk.injEq,
        FieldValue.value16.injEq, UInt8.toUInt16_inj] at hseverity
      exact hseverity.2.1.2.1
    · cases eventId <;> cases eventId' <;> simp at hid
      · rfl
      · rw [givenField_eventId_injective hid]
  · rintro ⟨rfl, rfl, rfl⟩
    rfl

/-- What is read of the attributes, once the counts are patched in. -/
def partCEntries (attributesBefore : List (StringView × AttributeValue)) (fs : List Field) :
    List (Entry Field) :=
  match attributesBefore, fs with
  | [], f :: fs =>
    .struct (ascii "PartC") (fields ((f :: fs).take ((f :: fs).length % 128))) ::
      ((f :: fs).drop ((f :: fs).length % 128)).map .field
  | _, fs => fs.map .field

/-- The attributes' part of the event, once its count is patched in. -/
def partCPatched (attributesBefore : List (StringView × AttributeValue)) (fs : List Field) :
    List (Item Field) :=
  match attributesBefore, fs with
  | [], f :: fs => .header (ascii "PartC") ((f :: fs).length % 128) :: fields (f :: fs)
  | _, fs => fields fs

theorem entries_partCPatched (attributesBefore : List (StringView × AttributeValue))
    (fs : List Field) :
    entries (partCPatched attributesBefore fs) = partCEntries attributesBefore fs := by
  unfold partCPatched partCEntries
  split
  · exact entries_short ..
  · exact entries_fields _

/-- No field is a header. -/
theorem no_other_header {name : Bytes} {count b : ℕ} (hone : b ≠ 1) {f : Field}
    {bs fs : List Field} (name' : Bytes) (count' : ℕ) :
    (Item.field f :: .header name count :: (fields bs ++ fields fs))[b]?
      ≠ some (.header name' count') := by
  match b with
  | 0 => simp
  | 1 => exact absurd rfl hone
  | b + 2 =>
    rw [fields, fields, ← List.map_append, List.getElem?_cons_succ, List.getElem?_cons_succ,
      List.getElem?_map]
    cases (bs ++ fs)[b]? <;> simp

/-- Patching the attributes' count changes their header, or nothing if they have none. -/
theorem patch_partC {before : List (StringView × AttributeValue)} {fs bs : List Field} {n b : ℕ}
    (hone : b ≠ 1) (hbookmark : before = [] → fs ≠ [] → b = bs.length + 2)
    (hcount : before = [] → n = fs.length) (count : ℕ) :
    (if n > 0 then patch (.field Recordable.csver :: .header (ascii "PartB") count ::
        (fields bs ++ partCItems before fs)) b n
      else .field Recordable.csver :: .header (ascii "PartB") count ::
        (fields bs ++ partCItems before fs))
      = .field Recordable.csver :: .header (ascii "PartB") count ::
        (fields bs ++ partCPatched before fs) := by
  have hplain : (if n > 0 then patch (.field Recordable.csver :: .header (ascii "PartB") count ::
        (fields bs ++ fields fs)) b n
      else .field Recordable.csver :: .header (ascii "PartB") count :: (fields bs ++ fields fs))
      = .field Recordable.csver :: .header (ascii "PartB") count :: (fields bs ++ fields fs) := by
    split
    · exact patch_of_fields (no_other_header hone) n
    · rfl
  cases before with
  | cons a before => exact hplain
  | nil =>
    cases fs with
    | nil => exact hplain
    | cons f fs =>
      -- the header that was added with the first attribute gets the number of all
      have hpos : n > 0 := by
        rw [hcount rfl]
        exact Nat.succ_pos _
      rw [if_pos hpos, hcount rfl]
      exact patch_header (.field Recordable.csver :: .header (ascii "PartB") count :: fields bs)
        (by rw [hbookmark rfl (List.cons_ne_nil _ _)]; simp [fields]) (ascii "PartC") 1 _ _

theorem entries_written {before after : List Call} {body : AttributeValue} {bodyField : Field}
    {fs : List Field} (htracks : Tracks r (before ++ .setBody body :: after))
    (hwritten : Written SeverityNumToText r before body after bodyField fs)
    (hexport : r.prepareExport = (true, r')) :
    entries r'.event_builder_.items = .field Recordable.csver ::
      .struct (ascii "PartB") (fields (partB SeverityNumToText
        ((lastOf Call.severity? before).getD 0) (lastOf Call.eventId? before) bodyField)) ::
      partCEntries (attributesOf before) fs := by
  have hitems := hwritten.items
  have hsize := hwritten.size
  have hlength := partB_length_le SeverityNumToText
    ((lastOf Call.severity? before).getD 0) (lastOf Call.eventId? before) bodyField
  have hne : partB SeverityNumToText ((lastOf Call.severity? before).getD 0)
      (lastOf Call.eventId? before) bodyField ≠ [] := by simp [partB]
  have hbookmarkC := hwritten.bookmarkC
  rw [hsize] at hbookmarkC
  generalize partB SeverityNumToText ((lastOf Call.severity? before).getD 0)
    (lastOf Call.eventId? before) bodyField = bs at hitems hsize hlength hne hbookmarkC ⊢
  -- attributes before the body are counted too
  have hcount : r.cs_part_c_bookmark_size_ = (attributesOf before).length + fs.length := by
    rw [htracks.count, attributesOf_append, List.length_append, ← hwritten.populates.length_eq]
    rfl
  have hpatchB : patch r.event_builder_.items 1 bs.length = .field Recordable.csver ::
      .header (ascii "PartB") bs.length ::
        (fields bs ++ partCItems (attributesOf before) fs) := by
    rw [hitems]
    have hpatch := patch_header [.field Recordable.csver] (b := 1) rfl (ascii "PartB") 1 bs.length
      (fields bs ++ partCItems (attributesOf before) fs)
    rw [Nat.mod_eq_of_lt (by omega)] at hpatch
    exact hpatch
  have hpatchC := patch_partC (n := r.cs_part_c_bookmark_size_) hwritten.bookmarkC_ne hbookmarkC
    (fun hnil => by rw [hcount, hnil, List.length_nil, Nat.zero_add]) bs.length
  have hwrittenItems : r'.event_builder_.items = .field Recordable.csver ::
      .header (ascii "PartB") bs.length :: (fields bs ++
        partCPatched (attributesOf before) fs) := by
    -- there is something to export, so that both counts are patched
    have hnonzero : r.cs_part_b_bookmark_size_ ≠ 0 := by
      rw [hsize]
      exact fun hzero => hne (List.length_eq_zero_iff.mp hzero)
    rw [Recordable.prepareExport, if_neg hnonzero] at hexport
    obtain rfl := (Prod.mk.inj hexport).2
    rw [← hpatchC, ← hpatchB, hwritten.bookmark, hsize]
    dsimp only
    split <;> rfl
  rw [hwrittenItems, entries_field, entries_struct _ _ rfl, entries_partCPatched]

/-! ### When the event holds what was given -/

theorem populates_eq_iff {f : Field} (h : Populates key value f) :
    f = givenField key.viewed value ↔ key.data = key.viewed ∧ Terminated value := by
  obtain ⟨p, hp, rfl⟩ := h
  rw [← populatedValue_eq_iff hp, givenField, Field.mk.injEq, Prod.ext_iff]

theorem map_given_eq_iff {attributes : List (StringView × AttributeValue)} {fs : List Field}
    (h : List.Forall₂ (fun a f => Populates a.1 a.2 f) attributes fs) :
    fs = attributes.map (fun a => givenField a.1.viewed a.2)
      ↔ ∀ a ∈ attributes, a.1.data = a.1.viewed ∧ Terminated a.2 := by
  induction h with
  | nil => simp
  | cons ha _ ih =>
    rw [List.map_cons, List.cons.injEq, populates_eq_iff ha, ih, List.forall_mem_cons]

theorem fields_eq_iff {fs fs' : List Field} : fields fs = fields fs' ↔ fs = fs' :=
  fields_injective.eq_iff

/-- The attributes are in the event as they were given exactly when none came before the body,
their number fits the count, and nothing is read behind a view. -/
theorem partCEntries_eq_iff (attributesBefore : List (StringView × AttributeValue))
    {attributes : List (StringView × AttributeValue)} {fs : List Field}
    (h : List.Forall₂ (fun a f => Populates a.1 a.2 f) attributes fs) :
    partCEntries attributesBefore fs
        = partC ((attributesBefore ++ attributes).map fun a => givenField a.1.viewed a.2)
      ↔ attributesBefore = [] ∧ attributes.length ≤ 127 ∧
        ∀ a ∈ attributes, a.1.data = a.1.viewed ∧ Terminated a.2 := by
  rw [← map_given_eq_iff h, h.length_eq]
  cases attributesBefore with
  | cons a attributesBefore =>
    -- the fields stand outside of a struct, or there is none
    have hne : partCEntries (a :: attributesBefore) fs
        ≠ partC ((a :: attributesBefore ++ attributes).map fun a => givenField a.1.viewed a.2) := by
      cases fs <;> simp [partCEntries, partC]
    exact iff_of_false hne fun h => List.cons_ne_nil _ _ h.1
  | nil =>
    rw [List.nil_append]
    cases h with
    | nil => simp [partCEntries, partC]
    | @cons a f attributes fs ha hrest =>
      have hdrop : ((f :: fs).drop ((f :: fs).length % 128)).map Entry.field = []
          ↔ (f :: fs).length ≤ 127 := by
        rw [List.map_eq_nil_iff, List.drop_eq_nil_iff]
        omega
      have hpartC : partC ((a :: attributes).map fun a => givenField a.1.viewed a.2)
          = [.struct (ascii "PartC") (fields ((a :: attributes).map
            fun a => givenField a.1.viewed a.2))] := rfl
      rw [hpartC, partCEntries, List.cons.injEq, hdrop, Entry.struct.injEq, fields_eq_iff]
      constructor
      · rintro ⟨⟨-, htake⟩, hle⟩
        rw [Nat.mod_eq_of_lt (by omega), List.take_length] at htake
        exact ⟨rfl, hle, htake⟩
      · rintro ⟨-, hle, hgiven⟩
        rw [Nat.mod_eq_of_lt (by omega), List.take_length]
        exact ⟨⟨rfl, hgiven⟩, hle⟩

theorem or_eq_right_iff {β : Type} {a b : Option β} :
    a.or b = b ↔ ∀ x, a = some x → b = some x := by
  cases a with
  | none => simp
  | some x =>
    rw [Option.some_or]
    exact ⟨fun h y hy => (hy ▸ h).symm, fun h => (h x rfl).symm⟩

/-- What a body was written with is what was given last, if that was not given later. -/
theorem getD_or_eq_iff {a b : Option UInt8} (h : b.getD 0 ≠ 0) (ha : ∀ x, a = some x → x ≠ 0) :
    b.getD 0 = (a.or b).getD 0 ↔ ∀ x, a = some x → b = some x := by
  rw [← or_eq_right_iff]
  cases b with
  | none => exact absurd rfl h
  | some y =>
    cases a with
    | none => simp
    | some x =>
      rw [Option.some_or, Option.getD_some, Option.getD_some, Option.some.injEq]
      exact eq_comm

/-- The event holds what was given, exactly when the calls before and after the last body
leave nothing out of it. -/
theorem content_iff (SeverityNumToText : UInt8 → Bytes) {calls : List Call} {r r' : Recordable}
    (hvalid : ValidSeverities calls)
    (hrun : Recordable.init.run SeverityNumToText calls = some r)
    (hexport : r.prepareExport = (true, r')) :
    ∃ before body after, calls = before ++ .setBody body :: after ∧
      lastOf Call.body? after = none ∧
      (entries r'.event_builder_.items = content SeverityNumToText calls body
        ↔ InOrder before body after) := by
  obtain ⟨htracks, hunwritten | ⟨before, body, after, bodyField, fs, rfl, hwritten⟩⟩ :=
    known_run hvalid hrun
  · -- nothing was written, so that there is nothing to export
    rw [Recordable.prepareExport, if_pos hunwritten.size] at hexport
    cases hexport
  · refine ⟨before, body, after, rfl, hwritten.last, ?_⟩
    have hvalidAfter : ∀ severity, lastOf Call.severity? after = some severity → severity ≠ 0 := by
      intro severity hlast
      refine hvalid.lastOf_ne_zero ((lastOf_append _ before (.setBody body :: after)).trans ?_)
      -- the body itself sets no severity
      have hskip : lastOf Call.severity? (.setBody body :: after) = lastOf Call.severity? after :=
        rfl
      rw [hskip, hlast, Option.some_or]
    have hseverity := getD_or_eq_iff hwritten.severity hvalidAfter
    have heventId : lastOf Call.eventId? before
          = (lastOf Call.eventId? after).or (lastOf Call.eventId? before)
        ↔ ∀ id, lastOf Call.eventId? after = some id → lastOf Call.eventId? before = some id :=
      eq_comm.trans or_eq_right_iff
    have hbody := populates_eq_iff hwritten.bodyPopulates
    have hattributes := partCEntries_eq_iff (attributesOf before) hwritten.populates
    have hcontent : content SeverityNumToText (before ++ .setBody body :: after) body
        = .field Recordable.csver :: .struct (ascii "PartB") (fields (partB SeverityNumToText
            (((lastOf Call.severity? after).or (lastOf Call.severity? before)).getD 0)
            ((lastOf Call.eventId? after).or (lastOf Call.eventId? before))
            (givenField (literal "body").viewed body))) ::
          partC ((attributesOf before ++ attributesOf after).map
            fun a => givenField a.1.viewed a.2) := by
      rw [content, lastOf_append, lastOf_append, attributesOf_append]
      rfl
    rw [entries_written htracks hwritten hexport, hcontent, List.cons.injEq, List.cons.injEq,
      Entry.struct.injEq, fields_eq_iff, partB_eq_iff, hseverity, heventId, hbody, hattributes]
    constructor
    · rintro ⟨-, ⟨-, hseverity, heventId, -, hbody⟩, hbefore, hmost, hgiven⟩
      exact ⟨hbefore, hmost, hseverity, heventId, hbody, hgiven⟩
    · intro h
      exact ⟨rfl, ⟨rfl, h.severity, h.eventId, rfl, h.body⟩, h.noneBefore, h.atMost, h.attributes⟩

/-- The text of one severity. -/
def sampleText (severity : UInt8) : Bytes := if severity = 9 then ascii "INFO" else []

/-- A severity and an event id before the body, and attributes after it. -/
def sampleCalls : List Call :=
  [.setSeverity 9, .setEventId 7 (literal "sale"), .setBody (.string (literal "sold")),
    .setAttribute (literal "price") (.int32 3), .setAttribute (literal "fruit") (.bool true)]

theorem content_sample :
    ∃ r r', Recordable.init.run sampleText sampleCalls = some r ∧ r.prepareExport = (true, r') ∧
      ∃ before body after, sampleCalls = before ++ .setBody body :: after ∧
        lastOf Call.body? after = none ∧
        (entries r'.event_builder_.items = content sampleText sampleCalls body
          ↔ InOrder before body after) := by
  refine ⟨_, _, rfl, rfl, content_iff sampleText ?_ rfl rfl⟩
  intro severity hmem
  simp only [sampleCalls, List.mem_cons, Call.setSeverity.injEq, reduceCtorEq, List.not_mem_nil,
    or_false] at hmem
  subst hmem
  decide

/-- An attribute that is set before the body is not in the event that is written. -/
theorem attribute_before_body_is_lost :
    ∃ r r', Recordable.init.run sampleText [.setSeverity 9,
        .setAttribute (literal "price") (.int32 3), .setBody (.string (literal "sold"))] = some r ∧
      r.prepareExport = (true, r') ∧
      entries r'.event_builder_.items ≠ content sampleText [.setSeverity 9,
        .setAttribute (literal "price") (.int32 3), .setBody (.string (literal "sold"))]
        (.string (literal "sold")) := by
  refine ⟨_, _, rfl, rfl, fun heq => ?_⟩
  have hlength := congrArg List.length heq
  exact absurd hlength (by decide)

end UserEvents

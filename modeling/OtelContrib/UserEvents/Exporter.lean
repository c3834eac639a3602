/-
The user_events log exporter (`Exporter`): the event set an event is written to.

The level index of a recordable follows its severity, while the event holds the severity it
was written with.  `Severities` says what both are after any calls.

* `level_index_iff` — the index is the one of the severity in the event, and in the array,
  exactly when the severity in effect is a severity of that level;
* `exportRecords_selects` — then every event is written to the set of its own level.
-/
import OtelContrib.UserEvents.Content

open Backpatch Otel.Common

namespace UserEvents

/-! ### The exporter -/

/-- An event set of the provider, which is not part of the repository. -/
structure EventSet where
  level : UInt8
  keyword : UInt64
  deriving DecidableEq

inductive ExportResult
  | success | failure
  deriving DecidableEq

structure Exporter where
  is_shutdown_ : Bool
  event_set_levels_ : List EventSet

namespace Exporter

/-- From the level of traces to the one of critical errors. -/
def event_levels_map : List UInt8 := [6, 5, 4, 3, 2, 1]

def init : Exporter := ⟨false, event_levels_map.map fun level => ⟨level, 1⟩⟩

/-- The event set at an index, `none` outside of the array. -/
def eventSet (e : Exporter) (level_index : Int32) : Option EventSet :=
  if level_index < 0 then none else e.event_set_levels_[level_index.toInt.toNat]?

def shutdown (e : Exporter) : Exporter := { e with is_shutdown_ := true }

variable (Enabled : EventSet → Bool) (Write : EventSet → EventBuilder → Int32)

/-- The loop of `Export`, with the events that were written. -/
def exportLoop (e : Exporter) :
    List Recordable → Option (ExportResult × List (EventSet × EventBuilder))
  | [] => some (.success, [])
  | record :: records =>
    match record.prepareExport with
    | (false, _) => e.exportLoop records
    | (true, user_events_record) => do
      let event_set ← e.eventSet user_events_record.level_index_
      if Enabled event_set then
        let event := (event_set, user_events_record.event_builder_)
        if Write event_set user_events_record.event_builder_ ≠ 0 then some (.failure, [event])
        else
          let (result, events) ← e.exportLoop records
          some (result, event :: events)
      else e.exportLoop records

/-- `Export`, `none` where it reads outside of the array. -/
def exportRecords (e : Exporter) (records : List Recordable) :
    Option (ExportResult × List (EventSet × EventBuilder)) :=
  if e.is_shutdown_ then some (.failure, []) else e.exportLoop Enabled Write records

end Exporter

/-! ### Levels -/

/-- The severities of the API are four for each level. -/
def levelOf (severity : ℕ) : ℕ := (severity - 1) / 4

/-- The severity number an event was given. -/
def severityNumberOf (items : List (Item Field)) : Option UInt16 :=
  items.findSome? fun
    | .field ⟨name, .value16 number, _⟩ =>
      if name = ascii "severityNumber" then some number else none
    | _ => none

/-- The index is in the array and is the level of the severity in the event. -/
def Selects (r : Recordable) : Prop :=
  ∃ number, severityNumberOf r.event_builder_.items = some number ∧
    0 ≤ r.level_index_ ∧ r.level_index_ ≤ 5 ∧ r.level_index_.toInt = levelOf number.toNat

/-- What calls leave: the severity in effect, which is 0 for none and for an invalid one, and
the one the last body found that found any. -/
structure Severities where
  current : UInt8
  written : Option UInt8

def Severities.next (s : Severities) : Call → Severities
  | .setSeverity severity => { s with current := if severity > 24 then 0 else severity }
  | .setBody _ => { s with written := if s.current = 0 then s.written else some s.current }
  | .setEventId .. | .setAttribute .. => s

def severities (calls : List Call) : Severities := calls.foldl Severities.next ⟨0, none⟩

/-- The severity in effect is one of the level of the severity in the event. -/
def SameLevel (s : Severities) : Prop :=
  s.current ≠ 0 ∧ ∀ written, s.written = some written →
    levelOf s.current.toNat = levelOf written.toNat

theorem severities_concat (calls : List Call) (call : Call) :
    severities (calls ++ [call]) = (severities calls).next call := by
  rw [severities, List.foldl_append]
  rfl

/-! ### What a recordable knows of its level -/

/-- The index of a severity. -/
def levelIndex (severity : UInt8) : Int32 := (severity.toUInt32.toInt32 - 1) >>> 2

/-- The index is -1 for no severity, and its level for any other. -/
theorem levelIndex_toInt {severity : UInt8} (h : severity ≤ 24) :
    (levelIndex severity).toInt = ((severity.toNat : Int) - 1) / 4 := by
  have hall : ∀ n : Fin 25, (levelIndex (UInt8.ofNat n)).toInt = (((n : ℕ) : Int) - 1) / 4 := by
    decide
  have hlt : severity.toNat < 25 := Nat.lt_succ_of_le (UInt8.le_iff_toNat_le.mp h)
  have hseverity := hall ⟨severity.toNat, hlt⟩
  rwa [UInt8.ofNat_toNat] at hseverity

/-- An event whose `PartB` was written with a severity. -/
def HasPartB (severity : UInt8) (items : List (Item Field)) : Prop :=
  ∃ count rest, items = .field Recordable.csver :: .header (ascii "PartB") count ::
    .field Recordable.typeName :: .field (Recordable.severityNumber severity) :: rest

/-- What is known of the level of a recordable. -/
structure Leveled (r : Recordable) (s : Severities) : Prop where
  severity : r.severity_ = s.current
  valid : s.current ≤ 24
  /-- No severity was set at all, or the index follows it. -/
  index : s.current = 0 ∧ s.written = none ∨ r.level_index_ = levelIndex s.current
  unwritten : s.written = none → r.cs_part_b_bookmark_size_ = 0
  written : ∀ severity, s.written = some severity →
    HasPartB severity r.event_builder_.items ∧ r.cs_part_b_bookmark_ = 1

variable {SeverityNumToText : UInt8 → Bytes} {r r' : Recordable} {s : Severities}
  {calls : List Call} {key : StringView} {value message : AttributeValue}

theorem HasPartB.append {severity : UInt8} {items : List (Item Field)} (h : HasPartB severity items)
    (more : List (Item Field)) : HasPartB severity (items ++ more) := by
  obtain ⟨count, rest, rfl⟩ := h
  exact ⟨count, rest ++ more, rfl⟩

/-- Patching a count leaves the fields. -/
theorem HasPartB.patch {severity : UInt8} {items : List (Item Field)} (h : HasPartB severity items)
    (b n : ℕ) : HasPartB severity (patch items b n) := by
  obtain ⟨count, rest, rfl⟩ := h
  match b with
  | 0 | 2 | 3 => exact ⟨count, rest, rfl⟩
  | 1 => exact ⟨n % 128, rest, rfl⟩
  | b + 4 => exact ⟨count, _, rfl⟩

theorem HasPartB.severityNumberOf {severity : UInt8} {items : List (Item Field)}
    (h : HasPartB severity items) : severityNumberOf items = some severity.toUInt16 := by
  obtain ⟨count, rest, rfl⟩ := h
  rfl

theorem leveled_init : Leveled Recordable.init ⟨0, none⟩ :=
  ⟨rfl, by decide, .inl ⟨rfl, rfl⟩, fun _ => rfl, nofun⟩

theorem leveled_setSeverity (h : Leveled r s) (severity : UInt8) :
    Leveled (r.setSeverity severity) (s.next (.setSeverity severity)) := by
  refine ⟨rfl, ?_, .inr rfl, h.unwritten, h.written⟩
  show (if severity > 24 then 0 else severity) ≤ 24
  split
  case isTrue => decide
  case isFalse hle => exact UInt8.not_lt.mp hle

theorem leveled_setAttribute (h : Leveled r s) (hset : r.setAttribute key value = some r') :
    Leveled r' (s.next (.setAttribute key value)) := by
  obtain ⟨f, -, rfl⟩ := setAttribute_spec hset
  refine ⟨h.severity, h.valid, h.index, h.unwritten, fun severity hwritten => ?_⟩
  obtain ⟨hpart, hbookmark⟩ := h.written severity hwritten
  exact ⟨hpart.append _, hbookmark⟩

/-- A body without a severity changes nothing; any other is written with it. -/
theorem leveled_setBody (h : Leveled r s) (hset : r.setBody SeverityNumToText message = some r') :
    Leveled r' (s.next (.setBody message)) := by
  rcases setBody_spec hset with ⟨hzero, rfl⟩ | ⟨hne, f, name, -, rfl⟩
  · have hsame : s.next (.setBody message) = s := by
      rw [Severities.next, if_pos (h.severity.symm.trans hzero)]
    rwa [hsame]
  · have hcurrent : s.current ≠ 0 := h.severity ▸ hne
    have hnext : s.next (.setBody message) = ⟨s.current, some s.current⟩ := by
      rw [Severities.next, if_neg hcurrent]
    rw [hnext]
    refine ⟨h.severity, h.valid, .inr ?_, nofun, fun severity hwritten => ?_⟩
    · exact h.index.resolve_left fun hnever => hcurrent hnever.1
    · obtain rfl := Option.some.inj hwritten
      rw [← h.severity]
      exact ⟨⟨1, _, rfl⟩, rfl⟩

/-- After any calls the level is known. -/
theorem leveled_run (hrun : Recordable.init.run SeverityNumToText calls = some r) :
    Leveled r (severities calls) := by
  induction calls using List.reverseRecOn generalizing r with
  | nil =>
    cases hrun
    exact leveled_init
  | append_singleton calls call ih =>
    rw [Recordable.run, List.foldlM_append] at hrun
    obtain ⟨r₁, hr₁, hcall⟩ := Option.bind_eq_some_iff.mp hrun
    have happly : call.apply SeverityNumToText r₁ = some r := by simpa using hcall
    have hleveled := ih hr₁
    rw [severities_concat]
    cases call with
    | setSeverity severity =>
      cases happly
      exact leveled_setSeverity hleveled severity
    | setEventId id name =>
      cases happly
      exact ⟨hleveled.severity, hleveled.valid, hleveled.index, hleveled.unwritten,
        hleveled.written⟩
    | setAttribute key value => exact leveled_setAttribute hleveled happly
    | setBody message => exact leveled_setBody hleveled happly

/-! ### The index and the event -/

/-- What is exported was written, and is still there once the counts are patched in. -/
theorem written_of_prepareExport (h : Leveled r s) (hexport : r.prepareExport = (true, r')) :
    ∃ severity, s.written = some severity ∧ HasPartB severity r'.event_builder_.items ∧
      r'.level_index_ = r.level_index_ := by
  rw [Recordable.prepareExport] at hexport
  split at hexport
  case isTrue => cases hexport
  case isFalse hsize =>
    obtain ⟨severity, hwritten⟩ :=
      Option.ne_none_iff_exists'.mp fun hnone => hsize (h.unwritten hnone)
    obtain ⟨hpart, hbookmark⟩ := h.written severity hwritten
    obtain rfl := (Prod.mk.inj hexport).2
    refine ⟨severity, hwritten, ?_, rfl⟩
    dsimp only
    split
    · exact (hpart.patch ..).patch ..
    · exact hpart.patch ..

/-- The index of a recordable whose level is known, and the severity of its event. -/
theorem selects_iff (h : Leveled r s) (hexport : r.prepareExport = (true, r')) :
    Selects r' ↔ SameLevel s := by
  obtain ⟨severity, hwritten, hpart, hindex⟩ := written_of_prepareExport h hexport
  have hcurrent : r'.level_index_ = levelIndex s.current :=
    hindex.trans (h.index.resolve_left fun hnever => by simp [hwritten] at hnever)
  have hvalue := levelIndex_toInt h.valid
  have hvalid := UInt8.le_iff_toNat_le.mp h.valid
  have hne : s.current ≠ 0 ↔ 1 ≤ s.current.toNat := by
    rw [Ne, ← UInt8.toNat_inj, Nat.one_le_iff_ne_zero]
    rfl
  have hfive : (5 : Int32).toInt = 5 := rfl
  have hzero : (0 : Int32).toInt = 0 := rfl
  have h24 : (24 : UInt8).toNat = 24 := rfl
  rw [Selects, hpart.severityNumberOf, SameLevel, hwritten, hne, hcurrent, Int32.le_iff_toInt_le,
    Int32.le_iff_toInt_le, hvalue, hfive, hzero]
  constructor
  · rintro ⟨number, hnumber, hnonneg, -, hlevel⟩
    obtain rfl := Option.some.inj hnumber
    rw [UInt8.toNat_toUInt16] at hlevel
    refine ⟨by omega, fun severity' hsome => ?_⟩
    obtain rfl := Option.some.inj hsome
    unfold levelOf at *
    omega
  · rintro ⟨hpos, hlevel⟩
    refine ⟨_, rfl, by omega, by omega, ?_⟩
    rw [UInt8.toNat_toUInt16, ← hlevel severity rfl]
    unfold levelOf
    omega

/-- **The level of an event** that is exported is the one of its severity number, and in the
array of the event sets, exactly when the severity in effect is a valid one of the same level. -/
theorem level_index_iff (SeverityNumToText : UInt8 → Bytes) {calls : List Call} {r r' : Recordable}
    (hrun : Recordable.init.run SeverityNumToText calls = some r)
    (hexport : r.prepareExport = (true, r')) : Selects r' ↔ SameLevel (severities calls) :=
  selects_iff (leveled_run hrun) hexport

/-- Severities of one level before and after the body. -/
def sameLevelCalls : List Call :=
  [.setSeverity 9, .setBody (.string (literal "sold")), .setSeverity 12]

theorem level_index_sample :
    ∃ r r', Recordable.init.run sampleText sameLevelCalls = some r ∧ r.prepareExport = (true, r') ∧
      (Selects r' ↔ SameLevel (severities sameLevelCalls)) :=
  ⟨_, _, rfl, rfl, level_index_iff sampleText rfl rfl⟩

/-- A severity that is invalid, given after the body, selects outside of the event sets; a valid
one of another level selects the set of that one. -/
theorem level_of_later_severity :
    (∃ r r', Recordable.init.run sampleText [.setSeverity 9, .setBody (.string (literal "sold")),
        .setSeverity 0] = some r ∧ r.prepareExport = (true, r') ∧ r'.level_index_ = -1 ∧
        Exporter.init.exportRecords (fun _ => true) (fun _ _ => 0) [r] = none ∧ ¬Selects r') ∧
      ∃ r r', Recordable.init.run sampleText [.setSeverity 9, .setBody (.string (literal "sold")),
        .setSeverity 21] = some r ∧ r.prepareExport = (true, r') ∧ r'.level_index_ = 5 ∧
        severityNumberOf r'.event_builder_.items = some 9 ∧ ¬Selects r' := by
  refine ⟨⟨_, _, rfl, rfl, rfl, rfl, ?_⟩, _, _, rfl, rfl, rfl, rfl, ?_⟩
  · rintro ⟨number, -, hnonneg, -⟩
    exact absurd hnonneg (by decide)
  · rintro ⟨number, hnumber, -, -, hlevel⟩
    obtain rfl := Option.some.inj hnumber
    exact absurd hlevel (by decide)

/-! ### The event sets -/

/-- An index between 0 and 5 selects the set that was registered for its level. -/
theorem eventSet_of_selects {number : UInt16} (hnonneg : 0 ≤ r.level_index_)
    (hlevel : r.level_index_.toInt = levelOf number.toNat) :
    Exporter.init.eventSet r.level_index_ =
      Exporter.init.event_set_levels_[levelOf number.toNat]? := by
  rw [Exporter.eventSet, if_neg (Int32.not_lt.mpr hnonneg), hlevel, Int.toNat_natCast]

theorem levelOf_lt (hfive : r.level_index_ ≤ 5) {level : ℕ}
    (hlevel : r.level_index_.toInt = level) :
    level < Exporter.init.event_set_levels_.length := by
  have hle := Int32.le_iff_toInt_le.mp hfive
  rw [hlevel] at hle
  have hcast : ((5 : Int32).toInt) = (5 : ℕ) := rfl
  rw [hcast, Int.ofNat_le] at hle
  exact Nat.lt_succ_of_le hle

/-- Recordables that select their own level can be exported, each event to the set that was
registered for its severity number. -/
theorem exportLoop_selects (Enabled : EventSet → Bool) (Write : EventSet → EventBuilder → Int32)
    {records : List Recordable}
    (h : ∀ record ∈ records, ∀ r', record.prepareExport = (true, r') → Selects r') :
    ∃ result events, Exporter.init.exportLoop Enabled Write records = some (result, events) ∧
      ∀ event ∈ events, ∃ number, severityNumberOf event.2.items = some number ∧
        Exporter.init.event_set_levels_[levelOf number.toNat]? = some event.1 := by
  induction records with
  | nil => exact ⟨_, _, rfl, nofun⟩
  | cons record records ih =>
    obtain ⟨result, events, hloop, hevents⟩ :=
      ih fun record' hmem => h record' (List.mem_cons_of_mem _ hmem)
    rw [Exporter.exportLoop]
    cases hprepare : record.prepareExport with
    | mk prepared r' =>
      cases prepared with
      | false => exact ⟨result, events, hloop, hevents⟩
      | true =>
        obtain ⟨number, hnumber, hnonneg, hfive, hlevel⟩ := h record List.mem_cons_self r' hprepare
        have hset := List.getElem?_eq_getElem (levelOf_lt hfive hlevel)
        have hselect := (eventSet_of_selects hnonneg hlevel).trans hset
        have hevent : ∃ number, severityNumberOf r'.event_builder_.items = some number ∧
            Exporter.init.event_set_levels_[levelOf number.toNat]? = some _ :=
              ⟨number, hnumber, hset⟩
        simp only [hselect, Option.bind_eq_bind, Option.bind_some]
        split
        · split
          · exact ⟨_, _, rfl, List.forall_mem_singleton.mpr hevent⟩
          · rw [hloop]
            exact ⟨_, _, rfl, List.forall_mem_cons.mpr ⟨hevent, hevents⟩⟩
        · exact ⟨result, events, hloop, hevents⟩

/-- An exporter that was not shut down exports recordables that were filled by calls of the
condition, each event to the set of its own level. -/
theorem exportRecords_selects (SeverityNumToText : UInt8 → Bytes) (Enabled : EventSet → Bool)
    (Write : EventSet → EventBuilder → Int32) {records : List Recordable}
    (h : ∀ record ∈ records, ∃ calls,
      Recordable.init.run SeverityNumToText calls = some record ∧ SameLevel (severities calls)) :
    ∃ result events, Exporter.init.exportRecords Enabled Write records = some (result, events) ∧
      ∀ event ∈ events, ∃ number, severityNumberOf event.2.items = some number ∧
        Exporter.init.event_set_levels_[levelOf number.toNat]? = some event.1 := by
  refine exportLoop_selects Enabled Write fun record hmem r' hprepare => ?_
  obtain ⟨calls, hrun, hsame⟩ := h record hmem
  exact (selects_iff (leveled_run hrun) hprepare).mpr hsame

end UserEvents

/-
The times in the messages of the fluentd exporters.

A time is an extension of eight bytes, the seconds and the nanoseconds.  Zero seconds and zero
nanoseconds stand for the time of the call.

* `round_trips_iff` — a timestamp is read back from its eight bytes, unless it is the epoch;
* `times_from_spans` — the times of a batch are those of its spans if every event was added,
  and every duration set, at just the time that it is about.
-/
import OtelContrib.Fluentd.Export
import OtelContrib.Fluentd.LogRecordable
import Mathlib.Tactic.LinearCombination

open Otel.Common

namespace Fluentd

/-! ### Seconds and nanoseconds -/

theorem toInt_div_of_nonneg {t : Int64} (ht : 0 ≤ t) :
    (t / 1000000000).toInt = t.toInt / 1000000000 := by
  have hnonneg : 0 ≤ t.toInt := Int64.le_iff_toInt_le.mp ht
  rw [Int64.toInt_div_of_ne_right _ _ (by decide)]
  exact Int.tdiv_eq_ediv_of_nonneg hnonneg

theorem toInt_mod_of_nonneg {t : Int64} (ht : 0 ≤ t) :
    (t % 1000000000).toInt = t.toInt % 1000000000 := by
  have hnonneg : 0 ≤ t.toInt := Int64.le_iff_toInt_le.mp ht
  rw [Int64.toInt_mod]
  exact Int.tmod_eq_emod_of_nonneg hnonneg

/-- The lower half of a number is all of it that 32 bits can hold. -/
theorem toInt32_emod (t : Int64) : t.toInt32.toInt % 2 ^ 32 = t.toInt % 2 ^ 32 := by
  rw [Int64.toInt_toInt32]
  exact Int.bmod_emod

theorem splitTime_fst_emod {t : Int64} (ht : 0 ≤ t) (hfits : t.toInt / 1000000000 < 2 ^ 32) :
    (splitTime t).1.toInt % 2 ^ 32 = t.toInt / 1000000000 := by
  have hnonneg : 0 ≤ t.toInt := Int64.le_iff_toInt_le.mp ht
  show (t / 1000000000).toInt32.toInt % 2 ^ 32 = _
  rw [toInt32_emod, toInt_div_of_nonneg ht]
  omega

theorem splitTime_snd_emod {t : Int64} (ht : 0 ≤ t) :
    (splitTime t).2.toInt % 2 ^ 32 = t.toInt % 1000000000 := by
  show (t % 1000000000).toInt32.toInt % 2 ^ 32 = _
  rw [toInt32_emod, toInt_mod_of_nonneg ht]
  omega

/-- No time but the epoch is split into zeros. -/
theorem splitTime_eq_zero_iff {t : Int64} (ht : 0 ≤ t) (hfits : t.toInt / 1000000000 < 2 ^ 32) :
    splitTime t = (0, 0) ↔ t = 0 := by
  constructor
  · intro h
    have hseconds := splitTime_fst_emod ht hfits
    have hnanoseconds := splitTime_snd_emod ht
    rw [h] at hseconds hnanoseconds
    have hzero : t.toInt = 0 := by
      have h₁ : (0 : ℤ) = t.toInt / 1000000000 := hseconds
      have h₂ : (0 : ℤ) = t.toInt % 1000000000 := hnanoseconds
      omega
    exact Int64.toInt_inj.mp hzero
  · rintro rfl
    rfl

/-! ### Eight bytes -/

/-- The number that bytes are, the highest one first. -/
def beValue (bytes : Bytes) : ℕ := bytes.foldl (fun n b => 256 * n + b.toNat) 0

/-- The remainder of a division by a multiple of 256, digit by digit. -/
theorem emod_256_mul (x : ℤ) {p : ℤ} (hp : 0 < p) :
    x % (256 * p) = 256 * (x / 256 % p) + x % 256 := by
  have hlow := Int.emod_add_mul_ediv x 256
  have hhigh := Int.emod_add_mul_ediv (x / 256) p
  have hx : x = 256 * (x / 256 % p) + x % 256 + 256 * p * (x / 256 / p) := by
    linear_combination -hlow - 256 * hhigh
  have hlt := Int.emod_lt_of_pos (x / 256) hp
  have hnonneg := Int.emod_nonneg (x / 256) hp.ne'
  conv_lhs => rw [hx]
  rw [Int.add_mul_emod_self_left, Int.emod_eq_of_lt (by omega) (by omega)]

theorem toInt_shiftRight_eight (v : Int32) : (v >>> 8).toInt = v.toInt / 256 := by
  have hshift : (v >>> 8).toBitVec = v.toBitVec.sshiftRight 8 := by
    rw [Int32.toBitVec_shiftRight]
    rfl
  rw [Int32.toInt, hshift, BitVec.toInt_sshiftRight, Int.shiftRight_eq_div_pow]
  rfl

theorem toNat_lowByte (v : Int32) : (v.toUInt32.toUInt8.toNat : ℤ) = v.toInt % 256 := by
  have hbyte : v.toUInt32.toUInt8.toNat = v.toUInt32.toNat % 256 := UInt32.toNat_toUInt8 _
  have htoInt : v.toInt = Int.bmod v.toUInt32.toNat (2 ^ 32) := BitVec.toInt_eq_toNat_bmod _
  have hunsigned : v.toInt % ((2 ^ 32 : ℕ) : ℤ) = v.toUInt32.toNat % ((2 ^ 32 : ℕ) : ℤ) := by
    rw [htoInt, Int.bmod_emod]
  omega

/-- Bytes that were shifted out are read back; the shifts are arithmetic. -/
theorem beValue_bigEndian (n : ℕ) (v : Int32) :
    (beValue (bigEndian n v) : ℤ) = v.toInt % 256 ^ n := by
  induction n generalizing v with
  | zero =>
    rw [bigEndian, pow_zero, Int.emod_one]
    rfl
  | succ n ih =>
    have hstep : beValue (bigEndian n (v >>> 8) ++ [v.toUInt32.toUInt8])
        = 256 * beValue (bigEndian n (v >>> 8)) + v.toUInt32.toUInt8.toNat := by
      rw [beValue, List.foldl_append]
      rfl
    have hpos : (0 : ℤ) < 256 ^ n := pow_pos (by omega) n
    rw [bigEndian, hstep, Nat.cast_add, Nat.cast_mul, ih, toNat_lowByte, toInt_shiftRight_eight,
      pow_succ', emod_256_mul _ hpos]
    rfl

theorem length_bigEndian (n : ℕ) (v : Int32) : (bigEndian n v).length = n := by
  induction n generalizing v with
  | zero => rfl
  | succ n ih => rw [bigEndian, List.length_append, ih, List.length_singleton]

/-- The extension for a time, which has no other meaning than that. -/
def eventTime (t : Int64) : Json :=
  .binary (bigEndian 4 (splitTime t).1 ++ bigEndian 4 (splitTime t).2) 0

/-- What stands for a timestamp is the time of the call if it is split into zeros. -/
theorem get_msgpack_eventtimeext_split (now t : Int64) :
    get_msgpack_eventtimeext now (splitTime t).1 (splitTime t).2 =
      eventTime (if splitTime t = (0, 0) then now else t) := by
  rw [get_msgpack_eventtimeext]
  by_cases hzero : splitTime t = (0, 0)
  · have hboth : (splitTime t).1 = 0 ∧ (splitTime t).2 = 0 := by rw [hzero]; exact ⟨rfl, rfl⟩
    rw [if_pos hzero, if_pos hboth]
    rfl
  · have hboth : ¬((splitTime t).1 = 0 ∧ (splitTime t).2 = 0) :=
      fun h => hzero (Prod.ext h.1 h.2)
    rw [if_neg hzero, if_neg hboth]
    rfl

theorem get_msgpack_eventtimeext_zero (now : Int64) :
    get_msgpack_eventtimeext now 0 0 = eventTime now :=
  rfl

/-! ### Timestamps that are read back -/

/-- A field holds eight bytes, of which the first four are the whole seconds of a timestamp and
the last four its nanoseconds. -/
def Decodes (stored : Option Json) (t : Int64) : Prop :=
  ∃ bytes, stored = some (.binary bytes 0) ∧ bytes.length = 8 ∧
    (beValue (bytes.take 4) : ℤ) = t.toInt / 1000000000 ∧
    (beValue (bytes.drop 4) : ℤ) = t.toInt % 1000000000 ∧ beValue (bytes.drop 4) < 1000000000

/-- A timestamp is read back from what any span or log keeps of it. -/
structure RoundTrips (t now : Int64) : Prop where
  startTime : ∀ include_trace_state calls r,
    (Recordable.init include_trace_state).run calls = some r →
      ∃ r', r.setStartTime t now = some r' ∧ Decodes (r'.options_.member? FLUENT_FIELD_STARTTIME) t
  timestamp : ∀ calls r, Logs.Recordable.init.run calls = some r →
    ∃ r', r.setTimestamp t now = some r' ∧ Decodes (r'.json_.member? (ascii "Timestamp")) t
  observedTimestamp : ∀ calls r, Logs.Recordable.init.run calls = some r →
    ∃ r', r.setObservedTimestamp t now = some r' ∧
      Decodes (r'.json_.member? (ascii "ObservedTimestamp")) t

theorem decodes_eventTime_iff {t u : Int64} (ht : 0 ≤ t) (hfits : t.toInt / 1000000000 < 2 ^ 32) :
    Decodes (some (eventTime u)) t ↔ splitTime u = splitTime t := by
  have htake : (bigEndian 4 (splitTime u).1 ++ bigEndian 4 (splitTime u).2).take 4 =
      bigEndian 4 (splitTime u).1 := List.take_left' (length_bigEndian 4 _)
  have hdrop : (bigEndian 4 (splitTime u).1 ++ bigEndian 4 (splitTime u).2).drop 4 =
      bigEndian 4 (splitTime u).2 := List.drop_left' (length_bigEndian 4 _)
  have hseconds := splitTime_fst_emod ht hfits
  have hnanoseconds := splitTime_snd_emod ht
  have hfst : (beValue (bigEndian 4 (splitTime u).1) : ℤ) = (splitTime u).1.toInt % 2 ^ 32 :=
    beValue_bigEndian 4 _
  have hsnd : (beValue (bigEndian 4 (splitTime u).2) : ℤ) = (splitTime u).2.toInt % 2 ^ 32 :=
    beValue_bigEndian 4 _
  constructor
  · rintro ⟨bytes, hstored, -, hs, hns, -⟩
    obtain rfl : bigEndian 4 (splitTime u).1 ++ bigEndian 4 (splitTime u).2 = bytes :=
      (Json.binary.inj (Option.some.inj hstored)).1
    rw [htake, hfst, ← hseconds] at hs
    rw [hdrop, hsnd, ← hnanoseconds] at hns
    refine Prod.ext (Int32.toInt_inj.mp ?_) (Int32.toInt_inj.mp ?_)
    · have := (splitTime u).1.toInt_lt
      have := (splitTime u).1.le_toInt
      have := (splitTime t).1.toInt_lt
      have := (splitTime t).1.le_toInt
      omega
    · have := (splitTime u).2.toInt_lt
      have := (splitTime u).2.le_toInt
      have := (splitTime t).2.toInt_lt
      have := (splitTime t).2.le_toInt
      omega
  · intro hsame
    rw [hsame] at htake hdrop hfst hsnd
    refine ⟨_, rfl, ?_, ?_, ?_, ?_⟩
    · rw [List.length_append, length_bigEndian, length_bigEndian]
    · rw [hsame, htake, hfst, hseconds]
    · rw [hsame, hdrop, hsnd, hnanoseconds]
    · rw [hsame, hdrop]
      omega

/-- Assigning one field of an object. -/
theorem updateAll_field {j : Json} {m : OrderedMap Bytes Json} (h : j.members? = some m.entries)
    (k : Bytes) (v : Json) :
    ∃ j', j.updateAll [(k, becomes v)] = some j' ∧ j'.member? k = some v := by
  refine ⟨.object (m.insert k v).entries, updateAll_becomes h k v [], ?_⟩
  rw [Json.member?_eq rfl, OrderedMap.find?_insert_self]

theorem setStartTime_member {r : Recordable} {m : OrderedMap Bytes Json}
    (h : r.options_.members? = some m.entries) (t now : Int64) :
    ∃ r', r.setStartTime t now = some r' ∧ r'.options_.member? FLUENT_FIELD_STARTTIME =
      some (eventTime (if splitTime t = (0, 0) then now else t)) := by
  obtain ⟨j', hj', hmember⟩ := updateAll_field h FLUENT_FIELD_STARTTIME
    (get_msgpack_eventtimeext now (splitTime t).1 (splitTime t).2)
  rw [get_msgpack_eventtimeext_split] at hmember
  exact ⟨{ r with options_ := j' }, Option.bind_eq_some_iff.mpr ⟨j', hj', rfl⟩, hmember⟩

theorem Logs.assign_time_member {r : Logs.Recordable} {m : OrderedMap Bytes Json}
    (h : r.json_.members? = some m.entries) (k : Bytes) (t now : Int64) :
    ∃ r', r.assign [(k, becomes (Logs.getMsgPackEventTimeFromSystemTimestamp now t))] = some r' ∧
      r'.json_.member? k = some (eventTime (if splitTime t = (0, 0) then now else t)) := by
  obtain ⟨j', hj', hmember⟩ := updateAll_field h k
    (get_msgpack_eventtimeext now (splitTime t).1 (splitTime t).2)
  rw [get_msgpack_eventtimeext_split] at hmember
  exact ⟨⟨j'⟩, Option.map_eq_some_iff.mpr ⟨j', hj', rfl⟩, hmember⟩

theorem RoundTrips.decodes {t now : Int64} (h : RoundTrips t now) :
    Decodes (some (eventTime (if splitTime t = (0, 0) then now else t))) t := by
  obtain ⟨r', hset, hdecodes⟩ := h.startTime false [] _ rfl
  obtain ⟨r'', hset', hmember⟩ :=
    setStartTime_member (m := ∅) (r := Recordable.init false) rfl t now
  obtain rfl : r' = r'' := Option.some.inj (hset.symm.trans hset')
  rwa [hmember] at hdecodes

theorem roundTrips_of_decodes {t now : Int64}
    (h : Decodes (some (eventTime (if splitTime t = (0, 0) then now else t))) t) :
    RoundTrips t now where
  startTime := by
    intro include_trace_state calls r hrun
    obtain ⟨options, hoptions, -⟩ := (madeBy_run hrun).options
    obtain ⟨r', hset, hmember⟩ := setStartTime_member hoptions t now
    exact ⟨r', hset, hmember ▸ h⟩
  timestamp := by
    intro calls r hrun
    obtain ⟨m, hm⟩ := Logs.members_run hrun
    obtain ⟨r', hset, hmember⟩ := Logs.assign_time_member hm (ascii "Timestamp") t now
    exact ⟨r', hset, hmember ▸ h⟩
  observedTimestamp := by
    intro calls r hrun
    obtain ⟨m, hm⟩ := Logs.members_run hrun
    obtain ⟨r', hset, hmember⟩ := Logs.assign_time_member hm (ascii "ObservedTimestamp") t now
    exact ⟨r', hset, hmember ▸ h⟩

/-- A timestamp is read back exactly when it is not the epoch, or the clock stands there. -/
theorem round_trips_iff {t : Int64} (now : Int64) (ht : 0 ≤ t)
    (hfits : t.toInt / 1000000000 < 2 ^ 32) :
    RoundTrips t now ↔ t ≠ 0 ∨ splitTime now = (0, 0) := by
  have hstored : Decodes (some (eventTime (if splitTime t = (0, 0) then now else t))) t ↔
      t ≠ 0 ∨ splitTime now = (0, 0) := by
    rw [decodes_eventTime_iff ht hfits]
    by_cases hzero : t = 0
    · subst hzero
      have hsplit : splitTime 0 = (0, 0) := rfl
      rw [if_pos hsplit, hsplit]
      exact ⟨.inr, fun h => h.resolve_left fun hne => hne rfl⟩
    · rw [if_neg fun h => hzero ((splitTime_eq_zero_iff ht hfits).mp h)]
      exact ⟨fun _ => .inl hzero, fun _ => rfl⟩
  rw [← hstored]
  exact ⟨RoundTrips.decodes, roundTrips_of_decodes⟩

/-- A nanosecond past `2 ^ 31` seconds. -/
theorem round_trips_past_2038 : RoundTrips 2147483648000000001 1700000000123456789 :=
  (round_trips_iff _ (by decide) (by decide)).mpr (.inl (by decide))

/-- A log of the epoch is a log of now. -/
theorem epoch_is_now : ¬ RoundTrips 0 1700000000123456789 := by
  intro h
  have hsame := (decodes_eventTime_iff (by decide) (by decide)).mp h.decodes
  exact absurd hsame (by decide)

/-! ### Runs at different times -/

/-- Whether a call looks at the clock. -/
def Call.readsClock : Call → Bool
  | .addEvent .. | .setStartTime .. | .setDuration .. => true
  | _ => false

/-- A call on a span as it is made, whenever that is. -/
inductive SpanCall
  | addEvent (name : Bytes) (timestamp : Int64) (attributes : List (StringView × AttributeValue))
  | setStartTime (start_time : Int64)
  | setDuration (duration : Int64)
  | untimed (call : Call) (h : call.readsClock = false)

/-- What is called at some time of the clock.  `AddEvent` does not look at its timestamp. -/
def SpanCall.madeAt (now : Int64) : SpanCall → Call
  | .addEvent name _ attributes => .addEvent name attributes now
  | .setStartTime start_time => .setStartTime start_time now
  | .setDuration duration => .setDuration duration now
  | .untimed call _ => call

def SpanCall.startTime? : SpanCall → Option Int64
  | .setStartTime start_time => some start_time
  | _ => none

def SpanCall.duration? : SpanCall → Option Int64
  | .setDuration duration => some duration
  | _ => none

def SpanCall.event? : SpanCall → Option (Bytes × Int64)
  | .addEvent name timestamp _ => some (name, timestamp)
  | _ => none

/-- The start and the duration that were set last. -/
def startTimeOf (calls : List SpanCall) : Option Int64 :=
  (calls.filterMap SpanCall.startTime?).getLast?

def durationOf (calls : List SpanCall) : Option Int64 :=
  (calls.filterMap SpanCall.duration?).getLast?

/-- When a span ends, if it has a start and a duration. -/
def endTimeOf (calls : List SpanCall) : Option Int64 := do
  some ((← startTimeOf calls) + (← durationOf calls))

/-- The calls on a span with the times they were made at. -/
abbrev SpanRun := List (SpanCall × Int64)

/-- A batch of spans; an entry may be null. -/
abbrev BatchRun := List (Option SpanRun)

def SpanRun.calls (run : SpanRun) : List SpanCall := run.map Prod.fst

def BatchRun.calls (run : BatchRun) : List (Option (List SpanCall)) :=
  run.map (Option.map SpanRun.calls)

/-- What is called in a run. -/
def BatchRun.made (run : BatchRun) : List (Option (List Call)) :=
  run.map (Option.map fun span => span.map fun c => c.1.madeAt c.2)

/-- The events of a batch with the timestamps they were added with. -/
def eventTimestamps (batch : List (Option (List SpanCall))) : List (Bytes × Int64) :=
  batch.flatMap fun calls => (calls.map fun calls => calls.filterMap SpanCall.event?).getD []

/-- A message with one record for each span, and the end of the span in it, twice. -/
def SpanEntries (batch : List (Option (List SpanCall))) (obj : Json) : Prop :=
  ∃ records, obj = .array [.string FLUENT_VALUE_SPAN, .array records] ∧
    List.Forall₂ (fun calls record => ∀ endTime ∈ endTimeOf calls,
        record.element? 0 = some (eventTime endTime) ∧
          (record.element? 1).bind (·.member? FLUENT_FIELD_ENDTTIME) = some (eventTime endTime))
      (batch.filterMap id) records

/-- A message with the events of a name, each with the timestamp it was added with. -/
def EventEntries (batch : List (Option (List SpanCall))) (obj : Json) : Prop :=
  ∃ name records, obj = .array [.string name, .array records] ∧
    records.map (·.element? 0) =
      ((eventTimestamps batch).filter fun event => event.1 = name).map
        fun event => some (eventTime event.2)

/-- The spans come first, and the times in the messages are those that the calls passed. -/
def TimedEntries (e : FluentdExporter) (run : BatchRun) : Prop :=
  ∀ spans, MadeBatch e run.made spans → ∀ {σ : Type} to_msgpack Send (s : σ) o,
    e.exportSpans to_msgpack Send spans s = some o → ∀ obj rest, o.sent.map Prod.fst = obj :: rest →
      SpanEntries run.calls obj ∧ ∀ obj' ∈ rest, EventEntries run.calls obj'

/-- Exporting two runs sends the same messages, with the times that the calls passed. -/
structure TimesFromSpans (e : FluentdExporter) (run run' : BatchRun) : Prop where
  messages : ∀ spans spans', MadeBatch e run.made spans → MadeBatch e run'.made spans' →
    ∀ {σ : Type} to_msgpack Send (s : σ),
      e.exportSpans to_msgpack Send spans s = e.exportSpans to_msgpack Send spans' s
  entries : TimedEntries e run
  entries' : TimedEntries e run'

/-- A call is made at the time it is about: an event at its timestamp, the duration at the end of
the span; and a start is not what stands for now. -/
def SpanCall.OnTime (calls : List SpanCall) (now : Int64) : SpanCall → Prop
  | .addEvent _ timestamp _ => splitTime now = splitTime timestamp
  | .setStartTime start_time => splitTime start_time = (0, 0) → splitTime now = (0, 0)
  | .setDuration duration =>
    ∃ start_time, startTimeOf calls = some start_time ∧
      splitTime now = splitTime (start_time + duration)
  | .untimed .. => True

def BatchRun.OnTime (run : BatchRun) : Prop :=
  ∀ span, some span ∈ run → ∀ c ∈ span, c.1.OnTime (SpanRun.calls span) c.2

/-! ### Calls that are made on time -/

/-- The time that a call is about. -/
def SpanCall.ownTime (calls : List SpanCall) : SpanCall → Int64
  | .addEvent _ timestamp _ => timestamp
  | .setDuration duration => (startTimeOf calls).getD 0 + duration
  | _ => 0

/-- The calls on a span, each made at its own time. -/
def ownCalls (calls : List SpanCall) : List Call := calls.map fun c => c.madeAt (c.ownTime calls)

theorem eventTime_congr {t u : Int64} (h : splitTime t = splitTime u) :
    eventTime t = eventTime u := by
  rw [eventTime, eventTime, h]

/-- A call that is made on time does what it does at its own time. -/
theorem SpanCall.OnTime.apply_eq {c : SpanCall} {calls : List SpanCall} {now : Int64}
    (h : c.OnTime calls now) (r : Recordable) :
    (c.madeAt now).apply r = (c.madeAt (c.ownTime calls)).apply r := by
  cases c with
  | addEvent name timestamp attributes =>
    have htime : eventTime now = eventTime timestamp := eventTime_congr h
    show r.addEvent name attributes now = r.addEvent name attributes timestamp
    rw [Recordable.addEvent, Recordable.addEvent, get_msgpack_eventtimeext_zero,
      get_msgpack_eventtimeext_zero, htime]
  | setStartTime start_time =>
    have htime : get_msgpack_eventtimeext now (splitTime start_time).1 (splitTime start_time).2 =
        get_msgpack_eventtimeext 0 (splitTime start_time).1 (splitTime start_time).2 := by
      rw [get_msgpack_eventtimeext_split, get_msgpack_eventtimeext_split]
      by_cases hzero : splitTime start_time = (0, 0)
      · rw [if_pos hzero, if_pos hzero]
        exact eventTime_congr (h hzero)
      · rw [if_neg hzero, if_neg hzero]
    show r.setStartTime start_time now = r.setStartTime start_time 0
    rw [Recordable.setStartTime, Recordable.setStartTime]
    dsimp only
    rw [htime]
  | setDuration duration =>
    obtain ⟨start_time, hstart, hsplit⟩ := h
    have htime : eventTime now = eventTime ((startTimeOf calls).getD 0 + duration) := by
      rw [hstart, Option.getD_some]
      exact eventTime_congr hsplit
    show r.setDuration duration now = r.setDuration duration ((startTimeOf calls).getD 0 + duration)
    rw [Recordable.setDuration, Recordable.setDuration, get_msgpack_eventtimeext_zero,
      get_msgpack_eventtimeext_zero, htime]
  | untimed call hcall => rfl

theorem run_madeAt {span : SpanRun} {calls : List SpanCall}
    (h : ∀ c ∈ span, c.1.OnTime calls c.2) (r : Recordable) :
    r.run (span.map fun c => c.1.madeAt c.2) =
      r.run (span.map fun c => c.1.madeAt (c.1.ownTime calls)) := by
  simp only [Recordable.run, List.foldlM_map]
  exact Run.foldlM_congr (fun c hc r => (h c hc).apply_eq r) r

/-- The recordables of a run on time are those of calls at their own times. -/
theorem madeBatch_ownCalls {e : FluentdExporter} {run : BatchRun} (h : run.OnTime)
    {spans : List (Option Recordable)} (hmade : MadeBatch e run.made spans) :
    MadeBatch e (run.calls.map (Option.map ownCalls)) spans := by
  rw [MadeBatch, BatchRun.made, List.forall₂_map_left_iff] at hmade
  rw [MadeBatch, BatchRun.calls, List.map_map, List.forall₂_map_left_iff]
  induction hmade with
  | nil => exact .nil
  | @cons entry r run spans hentry _ ih =>
    have htail : BatchRun.OnTime run := fun span hspan => h span (List.mem_cons_of_mem entry hspan)
    refine .cons ?_ (ih htail)
    cases entry with
    | none => exact hentry
    | some span =>
      have hspan : ∀ c ∈ span, c.1.OnTime (SpanRun.calls span) c.2 := h span List.mem_cons_self
      cases hentry with
      | some hrun =>
        refine .some ?_
        rw [run_madeAt hspan] at hrun
        rw [ownCalls, SpanRun.calls, List.map_map]
        exact hrun

/-- The recordables of a batch are determined by its calls. -/
theorem madeBatch_unique {e : FluentdExporter} {batch : List (Option (List Call))}
    {spans spans' : List (Option Recordable)} (h : MadeBatch e batch spans)
    (h' : MadeBatch e batch spans') : spans = spans' := by
  refine List.right_unique_forall₂' ?_ h h'
  intro calls r r' hr hr'
  cases hr with
  | none =>
    cases hr'
    rfl
  | some hr =>
    cases hr' with
    | some hr' => rw [Option.some.inj (hr.symm.trans hr')]

/-! ### The end of a span -/

/-- When `SetDuration` was called. -/
def Call.endTime? : Call → Option Int64
  | .setDuration _ now => some now
  | _ => none

/-- The end that calls leave: that of the last `SetDuration`. -/
def endOf (calls : List Call) : Option Int64 := (calls.filterMap Call.endTime?).getLast?

theorem endOf_concat_of_none (calls : List Call) {call : Call} (h : call.endTime? = none) :
    endOf (calls ++ [call]) = endOf calls := by
  rw [endOf, List.filterMap_append, List.filterMap_cons, h]
  exact congrArg List.getLast? (List.append_nil _)

theorem endOf_concat_setDuration (calls : List Call) (duration now : Int64) :
    endOf (calls ++ [.setDuration duration now]) = some now := by
  rw [endOf, List.filterMap_append]
  exact List.getLast?_concat

/-- The fields have an end of the span as it was set last. -/
def HasEnd (r : Recordable) (calls : List Call) : Prop :=
  ∃ options : OrderedMap Bytes Json, r.options_.members? = some options.entries ∧
    options.find? FLUENT_FIELD_ENDTTIME = (endOf calls).map eventTime

variable {r r' : Recordable} {calls : List Call} {call : Call}

theorem hasEnd_assign (h : HasEnd r calls) (hend : call.endTime? = none)
    {updates : List (Bytes × (Json → Option Json))}
    (hfields : FLUENT_FIELD_ENDTTIME ∉ updates.map Prod.fst)
    (hassign : r.assign updates = some r') :
    HasEnd r' (calls ++ [call]) := by
  obtain ⟨options, hoptions, hfind⟩ := h
  obtain ⟨options_, hupdate, hr'⟩ := Option.bind_eq_some_iff.mp hassign
  obtain ⟨options', hoptions', hothers⟩ := Json.updateAll_spec hoptions hupdate
  cases hr'
  refine ⟨options', hoptions', ?_⟩
  rw [hothers _ hfields, hfind, endOf_concat_of_none calls hend]

theorem hasEnd_keep (h : HasEnd r calls) (hend : call.endTime? = none)
    (hoptions : r'.options_ = r.options_) : HasEnd r' (calls ++ [call]) := by
  obtain ⟨options, hmembers, hfind⟩ := h
  exact ⟨options, hoptions ▸ hmembers, by rw [hfind, endOf_concat_of_none calls hend]⟩

theorem hasEnd_setDuration (h : HasEnd r calls) {duration now : Int64}
    (hset : r.setDuration duration now = some r') :
    HasEnd r' (calls ++ [.setDuration duration now]) := by
  obtain ⟨options, hoptions, -⟩ := h
  obtain ⟨options_, hupdate, hr'⟩ := Option.bind_eq_some_iff.mp hset
  cases hr'
  rw [updateAll_becomes hoptions, updateAll_becomes rfl] at hupdate
  cases hupdate
  refine ⟨_, rfl, ?_⟩
  rw [OrderedMap.find?_insert_of_ne _ (by decide), OrderedMap.find?_insert_self,
    endOf_concat_setDuration]
  rfl

/-- Only `SetDuration` sets an end. -/
theorem hasEnd_apply (h : HasEnd r calls) (happly : call.apply r = some r') :
    HasEnd r' (calls ++ [call]) := by
  cases call with
  | setDuration duration now => exact hasEnd_setDuration h happly
  | setIdentity identity =>
    refine hasEnd_assign h rfl ?_ happly
    split
    · show _ ∉ [FLUENT_FIELD_SPAN_ID, FLUENT_FIELD_SPAN_PARENTID, FLUENT_FIELD_TRACE_ID,
        FLUENT_FIELD_TRACE_STATE]
      decide
    · show _ ∉ [FLUENT_FIELD_SPAN_ID, FLUENT_FIELD_SPAN_PARENTID, FLUENT_FIELD_TRACE_ID]
      decide
  | setAttribute key value =>
    refine hasEnd_assign h rfl ?_ happly
    split
    · show _ ∉ [FLUENT_FIELD_PROPERTIES]
      decide
    · show _ ∉ [FLUENT_FIELD_PROPERTIES, FLUENT_FIELD_PROPERTIES]
      decide
  | addEvent name attributes now =>
    obtain ⟨_, _, happly⟩ := Option.bind_eq_some_iff.mp happly
    obtain ⟨_, _, happly⟩ := Option.bind_eq_some_iff.mp happly
    obtain ⟨_, _, happly⟩ := Option.bind_eq_some_iff.mp happly
    cases happly
    exact hasEnd_keep h rfl rfl
  | addLink =>
    cases happly
    exact hasEnd_keep h rfl rfl
  | setStatus code description =>
    refine hasEnd_assign h rfl ?_ happly
    cases code
    · show _ ∉ [FLUENT_FIELD_SUCCESS, ascii "tags"]
      decide
    · show _ ∉ [FLUENT_FIELD_SUCCESS, ascii "tags", FLUENT_FIELD_STATUSMESSAGE]
      decide
    · show _ ∉ [FLUENT_FIELD_SUCCESS]
      decide
  | setName name =>
    refine hasEnd_assign h rfl ?_ happly
    show _ ∉ [FLUENT_FIELD_NAME]
    decide
  | setResource tag =>
    cases tag with
    | missing => exact hasEnd_keep h rfl (Option.some.inj happly ▸ rfl)
    | string tag => exact hasEnd_keep h rfl (Option.some.inj happly ▸ rfl)
    | other => cases happly
  | setStartTime start_time now =>
    refine hasEnd_assign h rfl ?_ happly
    show _ ∉ [FLUENT_FIELD_STARTTIME]
    decide
  | setSpanKind span_kind =>
    rw [Call.apply, Recordable.setSpanKind] at happly
    split at happly
    · refine hasEnd_assign h rfl ?_ happly
      show _ ∉ [FLUENT_FIELD_SPAN_KIND]
      decide
    · cases happly
      exact hasEnd_keep h rfl rfl
  | setInstrumentationScope name version =>
    refine hasEnd_assign h rfl ?_ happly
    show _ ∉ [ascii "tags", ascii "tags"]
    decide
  | setTraceFlags =>
    cases happly
    exact hasEnd_keep h rfl rfl

theorem hasEnd_run {include_trace_state : Bool}
    (h : (Recordable.init include_trace_state).run calls = some r) : HasEnd r calls := by
  induction calls using List.reverseRecOn generalizing r with
  | nil =>
    cases h
    exact ⟨∅, rfl, rfl⟩
  | append_singleton calls call ih =>
    rw [Recordable.run, List.foldlM_append] at h
    obtain ⟨r₁, h₁, hcall⟩ := Option.bind_eq_some_iff.mp h
    have happly : call.apply r₁ = some r := by simpa using hcall
    exact hasEnd_apply (ih h₁) happly

/-! ### What is exported -/

theorem endTime?_untimed {call : Call} (h : call.readsClock = false) : call.endTime? = none := by
  cases call with
  | setDuration duration now => cases h
  | _ => rfl

theorem event?_untimed {call : Call} (h : call.readsClock = false) : call.event? = none := by
  cases call with
  | addEvent name attributes now => cases h
  | _ => rfl

/-- Calls at their own times leave the end of the span. -/
theorem endOf_ownCalls {calls : List SpanCall} {endTime : Int64}
    (h : endTimeOf calls = some endTime) :
    endOf (ownCalls calls) = some endTime := by
  obtain ⟨start_time, hstart, h⟩ := Option.bind_eq_some_iff.mp h
  obtain ⟨duration, hduration, h⟩ := Option.bind_eq_some_iff.mp h
  obtain rfl : start_time + duration = endTime := Option.some.inj h
  have hend : ∀ c : SpanCall,
      (c.madeAt (c.ownTime calls)).endTime? = c.duration?.map (start_time + ·) := by
    intro c
    cases c with
    | setDuration duration =>
      show some ((startTimeOf calls).getD 0 + duration) = some (start_time + duration)
      rw [hstart, Option.getD_some]
    | untimed call hcall => exact endTime?_untimed hcall
    | _ => rfl
  have hends : (ownCalls calls).filterMap Call.endTime? =
      (calls.filterMap SpanCall.duration?).map (start_time + ·) := by
    rw [ownCalls, List.filterMap_map, List.map_filterMap]
    exact congrArg (fun f => calls.filterMap f) (funext hend)
  rw [durationOf] at hduration
  rw [endOf, hends, List.getLast?_map, hduration]
  rfl

/-- The events of a span carry the timestamps they were added with. -/
theorem spanEvents_ownCalls (calls : List SpanCall) :
    (spanEvents (ownCalls calls)).map (fun event => (event.1, event.2.element? 0)) =
      (calls.filterMap SpanCall.event?).map fun event => (event.1, some (eventTime event.2)) := by
  have hevent : ∀ c : SpanCall, (c.madeAt (c.ownTime calls)).event?.map
      (fun e => (e.name, some e.time)) =
        c.event?.map fun event => (event.1, some (eventTime event.2)) := by
    intro c
    cases c with
    | untimed call hcall =>
      show call.event?.map _ = none
      rw [event?_untimed hcall, Option.map_none]
    | _ => rfl
  have hrecord : (fun event : Bytes × Json => (event.1, event.2.element? 0)) ∘
      (fun e : AddedEvent => (e.name, e.record (ownCalls calls))) =
        fun e => (e.name, some e.time) := rfl
  rw [spanEvents, eventsOf, List.map_map, hrecord, ownCalls, List.filterMap_map, List.map_filterMap,
    List.map_filterMap]
  exact congrArg (fun f => calls.filterMap f) (funext hevent)

theorem batchEvents_ownCalls (batch : List (Option (List SpanCall))) :
    (batchEvents (batch.map (Option.map ownCalls))).map
      (fun event => (event.1, event.2.element? 0)) =
      (eventTimestamps batch).map fun event => (event.1, some (eventTime event.2)) := by
  induction batch with
  | nil => rfl
  | cons calls batch ih =>
    rw [eventTimestamps, List.flatMap_cons, List.map_append, ← eventTimestamps, ← ih, List.map_cons,
      batchEvents, List.flatMap_cons, List.map_append, ← batchEvents]
    congr 1
    cases calls with
    | none => rfl
    | some calls => exact spanEvents_ownCalls calls

/-- A message of events has their timestamps. -/
theorem eventEntries_eventMessage (batch : List (Option (List SpanCall))) (name : Bytes) :
    EventEntries batch (eventMessage (batch.map (Option.map ownCalls)) name) := by
  refine ⟨name, _, rfl, ?_⟩
  have hpairs := congrArg (fun pairs => (pairs.filter fun pair => pair.1 = name).map Prod.snd)
    (batchEvents_ownCalls batch)
  simp only [List.filter_map, List.map_map] at hpairs
  rw [OrderedMap.under, List.map_map]
  exact hpairs

theorem record_endTime {include_trace_state : Bool} {calls : List SpanCall} {r : Recordable}
    (hrun : (Recordable.init include_trace_state).run (ownCalls calls) = some r) {endTime : Int64}
    (hend : endTimeOf calls = some endTime) :
    r.record.element? 0 = some (eventTime endTime) ∧
      (r.record.element? 1).bind (·.member? FLUENT_FIELD_ENDTTIME) = some (eventTime endTime) := by
  obtain ⟨options, hoptions, hfind⟩ := hasEnd_run hrun
  rw [endOf_ownCalls hend, Option.map_some] at hfind
  have hrecord : r.record = .array [eventTime endTime,
      .object (options.alter FLUENT_FIELD_ENDTTIME (·.getD .null)).entries] := by
    have hlookup : OrderedMap.lookup FLUENT_FIELD_ENDTTIME options.entries =
        some (eventTime endTime) :=
      hfind
    rw [Recordable.record, hoptions]
    dsimp only [Option.getD_some]
    rw [hlookup]
    rfl
  rw [hrecord]
  refine ⟨rfl, ?_⟩
  show Json.member? (.object _) FLUENT_FIELD_ENDTTIME = _
  rw [Json.member?_eq rfl, OrderedMap.find?_alter_self, hfind, Option.getD_some]

/-- The message of the spans has their ends. -/
theorem spanEntries_spanMessage {e : FluentdExporter} {batch : List (Option (List SpanCall))}
    {spans : List (Option Recordable)}
    (hmade : MadeBatch e (batch.map (Option.map ownCalls)) spans) :
    SpanEntries batch (spanMessage spans) := by
  refine ⟨_, rfl, ?_⟩
  rw [MadeBatch, List.forall₂_map_left_iff] at hmade
  induction hmade with
  | nil => exact .nil
  | @cons calls r batch spans hentry _ ih =>
    cases calls with
    | none =>
      cases hentry
      exact ih
    | some calls =>
      cases hentry with
      | some hrun => exact .cons (fun endTime hend => record_endTime hrun hend) ih

/-! ### Runs on time -/

/-- What was handed to `Send` are the first of the messages. -/
theorem sent_isPrefix {σ : Type} (to_msgpack : Json → Bytes) (Send : Bytes → σ → Bool × σ)
    (messages : List Json) (s : σ) :
    (deliver to_msgpack Send [] messages s).sent.map Prod.fst <+: messages := by
  rcases deliver_spec to_msgpack Send messages [] s with
    ⟨s', hall⟩ | ⟨before, failed, after, s', hmessages, hsome⟩
  · rw [hall, List.nil_append, List.map_map]
    exact (List.map_id messages).symm ▸ List.prefix_rfl
  · rw [hsome, hmessages, List.nil_append, List.map_append, List.map_map]
    refine ⟨after, ?_⟩
    show List.map id before ++ [failed] ++ after = _
    rw [List.map_id, List.append_assoc]
    rfl

theorem timedEntries_of_onTime (e : FluentdExporter) {run : BatchRun} (h : run.OnTime) :
    TimedEntries e run := by
  intro spans hmade σ to_msgpack Send s o hexport obj rest hsent
  have hown := madeBatch_ownCalls h hmade
  by_cases hshutdown : e.is_shutdown_ = true
  · rw [FluentdExporter.exportSpans, if_pos hshutdown] at hexport
    cases hexport
    cases hsent
  · by_cases hne : spans = []
    · subst hne
      rw [FluentdExporter.exportSpans, if_neg hshutdown] at hexport
      cases hexport
      cases hsent
    · rw [exportSpans_eq to_msgpack Send (by simpa using hshutdown) hown hne] at hexport
      obtain rfl := Option.some.inj hexport
      have hfirst := sent_isPrefix to_msgpack Send (e.messages (run.calls.map (Option.map ownCalls))
        spans) s
      rw [hsent, FluentdExporter.messages, List.cons_prefix_cons] at hfirst
      obtain ⟨rfl, hrest⟩ := hfirst
      refine ⟨spanEntries_spanMessage hown, fun obj' hobj' => ?_⟩
      have hmem := hrest.subset hobj'
      split at hmem
      · obtain ⟨name, -, rfl⟩ := List.mem_map.mp hmem
        exact eventEntries_eventMessage _ name
      · cases hmem

/-- Two runs of the same calls send the same messages, with the times of their spans, if every
event is added and every duration set when the span has it, and no span starts at the epoch. -/
theorem times_from_spans (e : FluentdExporter) {run run' : BatchRun}
    (hcalls : run'.calls = run.calls)
    (h : run.OnTime) (h' : run'.OnTime) : TimesFromSpans e run run' where
  messages := by
    intro spans spans' hmade hmade' σ to_msgpack Send s
    have hown' := madeBatch_ownCalls h' hmade'
    rw [hcalls] at hown'
    rw [madeBatch_unique (madeBatch_ownCalls h hmade) hown']
  entries := timedEntries_of_onTime e h
  entries' := timedEntries_of_onTime e h'

/-- A span whose calls are made on time where that matters. -/
def punctualRun (anytime : Int64) : BatchRun :=
  [some [(.untimed (.setName ⟨ascii "s", [0]⟩) rfl, anytime), (.setStartTime 1000, anytime),
    (.addEvent (ascii "a") 1500 [], 1500), (.setDuration 900, 1900)]]

theorem punctualRun_onTime (anytime : Int64) : (punctualRun anytime).OnTime := by
  intro span hspan c hc
  obtain rfl := Option.some.inj (List.mem_singleton.mp hspan)
  simp only [List.mem_cons, List.not_mem_nil, or_false] at hc
  rcases hc with rfl | rfl | rfl | rfl
  · trivial
  · exact fun hzero => absurd hzero (by decide)
  · rfl
  · exact ⟨1000, rfl, rfl⟩

theorem times_from_punctual_spans :
    TimesFromSpans ⟨true, false, false⟩ (punctualRun 3) (punctualRun 2000000000) :=
  times_from_spans _ rfl (punctualRun_onTime 3) (punctualRun_onTime 2000000000)

/-- An event that is added two nanoseconds late is exported so. -/
theorem late_event : ¬ TimesFromSpans ⟨true, false, false⟩
    [some [(.addEvent (ascii "a") 5 [], 7)]] [some [(.addEvent (ascii "a") 5 [], 8)]] := by
  intro h
  obtain ⟨-, hevents⟩ := h.entries [(Recordable.init false).addEvent (ascii "a") [] 7]
    (.cons (.some rfl) .nil) (fun _ => []) (fun _ s => (true, s)) () _ rfl _ _ rfl
  obtain ⟨name, records, hobj, htimes⟩ := hevents _ List.mem_cons_self
  obtain ⟨hname, hrest⟩ := List.cons.inj (Json.array.inj hobj)
  obtain rfl := Json.string.inj hname
  obtain rfl := Json.array.inj (List.cons.inj hrest).1
  have htime : some (eventTime 7) = some (eventTime 5) := (List.cons.inj htimes).1
  have hbytes := (Json.binary.inj (Option.some.inj htime)).1
  exact absurd hbytes (by decide)

end Fluentd

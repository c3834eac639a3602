/-
The order of the dimension names in Geneva messages.

The prepopulated dimensions and the attributes are two maps, and the names of one are written
behind those of the other.  The description of the format wants the names sorted.

* `IfxMetricsBin.readNames_of_read` — the names are read as the decoder reads them, from what
  stands in front of the values;
* `readNames_pointMessage` — a message has the names of both maps, one after the other;
* `dimension_names_canonical_iff` — they are strictly increasing exactly when every name of the
  first map is less than every name of the second.
-/
import OtelContrib.Geneva.Export
import OtelContrib.Geneva.RoundTrip

open ByteCodec ByteCodec.Reader

/-! ### Reading the names -/

namespace IfxMetricsBin

/-- The body as far as the names. -/
def names (eventId : ℕ) : Reader (List (List UInt8)) := do
  let numDimensions ← uint 2
  let _padding ← take 2
  let _values ← valueSection eventId
  let _metricAccount ← lenString 2
  let _metricNamespace ← lenString 2
  let _metricName ← lenString 2
  (lenString 2).replicateM numDimensions

/-- The names of a message. -/
def readNames : Reader (List (List UInt8)) := do
  let eventId ← uint 2
  let lenBody ← uint 2
  let rawBody ← take lenBody
  match names eventId rawBody with
  | some (dimensionsNames, _) => pure dimensionsNames
  | none => fail

theorem names_of_userdata {eventId : ℕ} {rawBody unread : List UInt8} {body : Userdata}
    (h : userdata eventId rawBody = some (body, unread)) :
    ∃ rest, names eventId rawBody = some (body.dimensionsNames, rest) := by
  simp only [userdata, bind_eq_some_iff, pure_apply] at h
  obtain ⟨n, rest₁, hn, padding, rest₂, hpadding, values, rest₃, hvalues, account, rest₄, haccount,
    namespace_, rest₅, hnamespace, name, rest₆, hname, dimensionsNames, rest₇, hnames,
    dimensionsValues, rest₈, -, ap, rest₉, -, histogram, rest₁₀, -, hbody⟩ := h
  obtain ⟨rfl, -⟩ := Prod.mk.injEq _ _ _ _ ▸ Option.some.inj hbody
  refine ⟨rest₇, ?_⟩
  simp only [names, bind_eq_some_iff]
  exact ⟨n, rest₁, hn, padding, rest₂, hpadding, values, rest₃, hvalues, account, rest₄, haccount,
    namespace_, rest₅, hnamespace, name, rest₆, hname, hnames⟩

/-- What the decoder reads has the names that are read here. -/
theorem readNames_of_read {bs rest : List UInt8} {m : Message} (h : read bs = some (m, rest)) :
    readNames bs = some (m.body.dimensionsNames, rest) := by
  simp only [read, bind_eq_some_iff] at h
  obtain ⟨eventId, rest₁, hid, lenBody, rest₂, hlen, rawBody, rest₃, hraw, hbody⟩ := h
  simp only [readNames, bind_eq_some_iff]
  refine ⟨eventId, rest₁, hid, lenBody, rest₂, hlen, rawBody, rest₃, hraw, ?_⟩
  rcases hu : userdata eventId rawBody with _ | ⟨body, unread⟩
  · rw [hu] at hbody
    exact absurd hbody (by simp [Reader.fail])
  · rw [hu] at hbody
    obtain ⟨rfl, rfl⟩ := Prod.mk.injEq _ _ _ _ ▸ Option.some.inj hbody
    obtain ⟨unread', hnames⟩ := names_of_userdata hu
    rw [hnames]
    rfl

end IfxMetricsBin

namespace Geneva

/-! ### The names of a message -/

/-- Behind the count and the value section, the names are read in front of anything. -/
theorem names_append {eventId : ℕ} {values : IfxMetricsBin.ValueSection}
    (hvalues : IfxMetricsBin.ValidValueSection eventId (some values))
    {account namespace_ name : List UInt8} {dimensionsNames : List (List UInt8)}
    (hshort : ∀ s ∈ account :: namespace_ :: name :: dimensionsNames, s.length < 256 ^ 2)
    (hcount : dimensionsNames.length < 256 ^ 2) (rest : List UInt8) :
    IfxMetricsBin.names eventId
        (leBytes 2 dimensionsNames.length ++ (leBytes 2 0 ++ (values.bytes ++
          (stringBytes (account :: namespace_ :: name :: dimensionsNames) ++ rest)))) =
      some (dimensionsNames, rest) := by
  obtain ⟨haccount, hshort⟩ := List.forall_mem_cons.mp hshort
  obtain ⟨hnamespace, hshort⟩ := List.forall_mem_cons.mp hshort
  obtain ⟨hname, hshort⟩ := List.forall_mem_cons.mp hshort
  have hstring := lenString_inverts 2
  simp only [IfxMetricsBin.names, bind_eq_some_iff, stringBytes_cons, List.append_assoc]
  refine ⟨_, _, (uint_inverts 2).read_append hcount _, _, _,
    (take_inverts 2).read_append (length_leBytes 2 0) _, _, _,
    (IfxMetricsBin.valueSection_inverts eventId).read_append hvalues _, _, _,
    hstring.read_append haccount _, _, _, hstring.read_append hnamespace _, _, _,
    hstring.read_append hname _, ?_⟩
  exact (hstring.replicateM _).read_append ⟨rfl, hshort⟩ rest

section

variable {e : Exporter} {eventType : MetricsEventType} {bodyLength : ℕ}
  {metricName tail : List UInt8} {attributes : PointAttributes}
  {values : IfxMetricsBin.ValueSection}

/-- A message in sections has the names that the loops select. -/
theorem readNames_sectionedMessage
    (hvalues : IfxMetricsBin.ValidValueSection eventType.toUInt16.toNat (some values))
    (hfits : (sectionedMessage e eventType bodyLength values.bytes metricName attributes
      tail).length ≤ kBufferSize)
    (hlength : bodyLength + kBinaryHeaderSize =
      (sectionedMessage e eventType bodyLength values.bytes metricName attributes tail).length) :
    IfxMetricsBin.readNames
        (sectionedMessage e eventType bodyLength values.bytes metricName attributes tail) =
      some (dimensionNames e.options attributes, []) := by
  have hstrings : (stringBytes (strings e.options e.connectionStringParser metricName
      attributes)).length ≤ kBufferSize := by
    simp only [sectionedMessage, List.length_append, length_leBytes] at hfits
    omega
  have hid : eventType.toUInt16.toNat < 256 ^ 2 := eventType.toUInt16.toNat_lt
  have hbody : bodyLength < 256 ^ 2 := by
    rw [kBufferSize] at hfits
    rw [kBinaryHeaderSize] at hlength
    omega
  have hsplit : stringBytes (strings e.options e.connectionStringParser metricName attributes) ++
      (leBytes 2 0 ++ tail) =
        stringBytes (selectedAccount e.connectionStringParser attributes ::
          selectedNamespace e.connectionStringParser attributes :: metricName ::
            dimensionNames e.options attributes) ++
          (stringBytes (dimensionValues e.options attributes) ++ (leBytes 2 0 ++ tail)) := by
    simp only [strings, stringBytes_append, stringBytes_cons, stringBytes_nil, List.append_assoc,
      List.append_nil]
  have hshort : ∀ s ∈ selectedAccount e.connectionStringParser attributes ::
      selectedNamespace e.connectionStringParser attributes :: metricName ::
        dimensionNames e.options attributes, s.length < 256 ^ 2 := fun s hs =>
    length_strings_lt hstrings s (List.mem_append_left _ hs)
  have hnames := names_append hvalues hshort (length_dimensionNames_lt hstrings)
    (stringBytes (dimensionValues e.options attributes) ++ (leBytes 2 0 ++ tail))
  rw [← hsplit] at hnames
  rw [sectionedMessage] at hlength ⊢
  generalize leBytes 2 (dimensionNames e.options attributes).length ++ _ = body at hlength hnames ⊢
  have hsize : body.length = bodyLength := by
    simp only [List.length_append, length_leBytes, kBinaryHeaderSize] at hlength
    omega
  -- the body is as long as its length says, and nothing is left behind it
  have hbody' := (take_inverts bodyLength).read_append hsize []
  rw [List.append_nil] at hbody'
  simp only [IfxMetricsBin.readNames, bind_eq_some_iff]
  refine ⟨_, _, (uint_inverts 2).read_append hid _, _, _, (uint_inverts 2).read_append hbody _,
    _, _, hbody', ?_⟩
  rw [hnames]
  rfl

end

theorem readNames_nonHistogramMessage (e : Exporter) (value : NonHistogramValue)
    (ts : SystemTimestamp) (metricName : List UInt8) (attributes : PointAttributes)
    (hfits : (nonHistogramMessage e.options e.connectionStringParser value ts metricName
      attributes).length ≤ kBufferSize) :
    IfxMetricsBin.readNames
        (nonHistogramMessage e.options e.connectionStringParser value ts metricName attributes) =
      some (dimensionNames e.options attributes, []) := by
  have hsections := nonHistogramMessage_sections e value ts metricName attributes
  have hlength := congrArg List.length hsections
  rw [nonHistogramMessage, List.length_append, length_nonHistogramHeader] at hlength
  rw [hsections] at hfits ⊢
  exact readNames_sectionedMessage (value.valid_decoded (windowsTicks ts).toNat_lt) hfits (by omega)

theorem readNames_histogramMessage (undefinedCast : Binary64 → UInt64) (e : Exporter)
    (p : HistogramArguments) (ts : SystemTimestamp) (metricName : List UInt8)
    (attributes : PointAttributes)
    (hfits : (histogramMessage undefinedCast e.options e.connectionStringParser p.count p.sum p.min
      p.max p.boundaries p.counts ts metricName attributes).length ≤ kBufferSize) :
    IfxMetricsBin.readNames (histogramMessage undefinedCast e.options e.connectionStringParser
        p.count p.sum p.min p.max p.boundaries p.counts ts metricName attributes) =
      some (dimensionNames e.options attributes, []) := by
  have hsections := histogramMessage_sections undefinedCast e p ts metricName attributes
  have hlength := congrArg List.length hsections
  rw [histogramMessage, List.length_append, length_histogramHeader] at hlength
  rw [hsections] at hfits ⊢
  have hvalues : IfxMetricsBin.ExtAggregatedUint64Value.Valid ⟨p.count.toUInt32.toNat,
      (windowsTicks ts).toNat, p.sum.toUInt64.toNat, p.min.toUInt64.toNat, p.max.toUInt64.toNat⟩ :=
    ⟨p.count.toUInt32.toNat_lt, (windowsTicks ts).toNat_lt, p.sum.toUInt64.toNat_lt,
      p.min.toUInt64.toNat_lt, p.max.toUInt64.toNat_lt⟩
  exact readNames_sectionedMessage ⟨_, hvalues, rfl⟩ hfits (by omega)

/-- A message that is sent has the names of both maps. -/
theorem readNames_pointMessage {casts : UndefinedCasts} {e : Exporter} {name : List UInt8}
    {ts : SystemTimestamp} {point : PointDataAttributes} {m : Message}
    (h : pointMessage casts e.options name ts point = some m) :
    IfxMetricsBin.readNames m.data = some (dimensionNames e.options point.attributes, []) := by
  rw [pointMessage, Option.filter_eq_some_iff, wholeMessage, ← e.parsed] at h
  obtain ⟨hwhole, hfits⟩ := h
  have hfits := of_decide_eq_true hfits
  cases hdata : point.pointData with
  | sum d =>
    rw [hdata] at hwhole
    obtain rfl := Option.some.inj hwhole
    exact readNames_nonHistogramMessage e d.exported ts name point.attributes hfits
  | lastValue d =>
    rw [hdata] at hwhole
    obtain rfl := Option.some.inj hwhole
    exact readNames_nonHistogramMessage e d.exported ts name point.attributes hfits
  | histogram d =>
    rw [hdata] at hwhole
    obtain rfl := Option.some.inj hwhole
    exact readNames_histogramMessage casts.toUInt64 e
      ⟨d.count, d.sum.toLong casts, d.min.toLong casts,
      d.max.toLong casts, d.boundaries, d.counts⟩ ts name point.attributes hfits
  | drop =>
    rw [hdata] at hwhole
    cases hwhole

/-! ### Their order -/

/-- The names of a message are strictly increasing. -/
def CanonicalNames (m : Message) : Prop :=
  ∃ names, IfxMetricsBin.readNames m.data = some (names, []) ∧ names.Pairwise (· < ·)

/-- Every prepopulated name that is written is less than every attribute's that is. -/
def NamesApart (options : ExporterOptions) (attributes : PointAttributes) : Prop :=
  ∀ name ∈ prepopulatedNames options, ∀ kv ∈ exportedAttributes attributes, name < kv.1

instance decidableNamesApart (options : ExporterOptions) (attributes : PointAttributes) :
    Decidable (NamesApart options attributes) :=
  inferInstanceAs (Decidable (∀ name ∈ prepopulatedNames options,
    ∀ kv ∈ exportedAttributes attributes, name < kv.1))

/-- What a loop over a map selects is in the order of the map. -/
theorem pairwise_selected {ν : Type} (m : OrderedMap (List UInt8) ν) (p : List UInt8 × ν → Bool) :
    ((m.entries.filter p).map Prod.fst).Pairwise (· < ·) :=
  List.pairwise_map.mpr (m.sorted.filter p)

theorem pairwise_dimensionNames_iff (options : ExporterOptions) (attributes : PointAttributes) :
    (dimensionNames options attributes).Pairwise (· < ·) ↔ NamesApart options attributes := by
  rw [dimensionNames, List.pairwise_append, NamesApart]
  constructor
  · rintro ⟨-, -, hapart⟩ name hname kv hkv
    exact hapart name hname kv.1 (List.mem_map_of_mem hkv)
  · intro hapart
    refine ⟨pairwise_selected _ _, pairwise_selected _ _, fun name hname name' hname' => ?_⟩
    obtain ⟨kv, hkv, rfl⟩ := List.mem_map.mp hname'
    exact hapart name hname kv hkv

theorem canonicalNames_pointMessage_iff {casts : UndefinedCasts} {e : Exporter} {name : List UInt8}
    {ts : SystemTimestamp} {point : PointDataAttributes} {m : Message}
    (h : pointMessage casts e.options name ts point = some m) :
    CanonicalNames m ↔ NamesApart e.options point.attributes := by
  rw [CanonicalNames, readNames_pointMessage h, ← pairwise_dimensionNames_iff]
  constructor
  · rintro ⟨names, hnames, hsorted⟩
    obtain ⟨rfl, -⟩ := Prod.mk.injEq _ _ _ _ ▸ Option.some.inj hnames
    exact hsorted
  · intro hsorted
    exact ⟨_, rfl, hsorted⟩

/-- **Canonical dimension names.**  The names in a message that is sent for a point are strictly
increasing exactly when every prepopulated name that is written is less than every name of the
point's attributes that is; and those in all messages of a batch exactly when that is so for
every point that is sent. -/
theorem dimension_names_canonical_iff (casts : UndefinedCasts) (e : Exporter) :
    (∀ metricData point, ∀ m ∈ (e.exportPoint casts metricData point).2,
      CanonicalNames m ↔ NamesApart e.options point.attributes) ∧
    ∀ data : ResourceMetrics, (∀ m ∈ (e.export casts data).2.2, CanonicalNames m) ↔
      e.isShutdown = true ∨ ∀ x ∈ data.points,
        (pointMessage casts e.options x.1 x.2.1 x.2.2).isSome →
          NamesApart e.options x.2.2.attributes := by
  refine ⟨fun metricData point m hm => ?_, fun data => ?_⟩
  · rw [exportPoint_sends, Option.mem_toList] at hm
    exact canonicalNames_pointMessage_iff hm
  · rw [export_sends]
    by_cases hshut : e.isShutdown = true
    · rw [if_pos hshut]
      exact iff_of_true (fun m hm => absurd hm List.not_mem_nil) (.inl hshut)
    · rw [if_neg hshut]
      constructor
      · intro hall
        refine .inr fun x hx hsome => ?_
        obtain ⟨m, hm⟩ := Option.isSome_iff_exists.mp hsome
        refine (canonicalNames_pointMessage_iff hm).mp (hall m ?_)
        exact List.mem_flatMap.mpr ⟨x, hx, Option.mem_toList.mpr hm⟩
      · intro hpoints m hm
        obtain ⟨x, hx, hm⟩ := List.mem_flatMap.mp hm
        have hm := Option.mem_toList.mp hm
        have hapart := (hpoints.resolve_left hshut) x hx (Option.isSome_iff_exists.mpr ⟨m, hm⟩)
        exact (canonicalNames_pointMessage_iff hm).mpr hapart

/-- A point with one attribute. -/
def attributePoint (key : List UInt8) : PointDataAttributes :=
  ⟨.singleton key (.int 5), .sum ⟨.int64 7, true⟩⟩

theorem dimension_names_sample :
    let e := sampleExporter (.singleton (ascii "k") (ascii "v")) 0
    ∃ m ∈ (e.exportPoint ⟨fun _ => 0, fun _ => 0⟩ ⟨ascii "m", ⟨0⟩, []⟩
        (attributePoint (ascii "z"))).2, CanonicalNames m := by
  intro e
  have hsent : (pointMessage ⟨fun _ => 0, fun _ => 0⟩ e.options (ascii "m") ⟨0⟩
      (attributePoint (ascii "z"))).isSome := by decide +kernel
  obtain ⟨m, hm⟩ := Option.isSome_iff_exists.mp hsent
  have hmem : m ∈ (e.exportPoint ⟨fun _ => 0, fun _ => 0⟩ ⟨ascii "m", ⟨0⟩, []⟩
      (attributePoint (ascii "z"))).2 := by
    rw [exportPoint_sends]
    exact Option.mem_toList.mpr hm
  have hcanonical := (dimension_names_canonical_iff ⟨fun _ => 0, fun _ => 0⟩ e).1 _ _ m hmem
  exact ⟨m, hmem, hcanonical.mpr (by decide +kernel)⟩

/-- The name of an attribute is less than a prepopulated one, or the same. -/
theorem dimension_names_out_of_order :
    let e := sampleExporter (.singleton (ascii "k") (ascii "v")) 0
    ∀ key ∈ [ascii "a", ascii "k"],
      ∃ m ∈ (e.exportPoint ⟨fun _ => 0, fun _ => 0⟩ ⟨ascii "m", ⟨0⟩, []⟩ (attributePoint key)).2,
        IfxMetricsBin.readNames m.data = some ([ascii "k", key], []) ∧ ¬ CanonicalNames m := by
  intro e key hkey
  have hall : ∀ key ∈ [ascii "a", ascii "k"],
      (pointMessage ⟨fun _ => 0, fun _ => 0⟩
        (sampleExporter (.singleton (ascii "k") (ascii "v")) 0).options (ascii "m") ⟨0⟩
        (attributePoint key)).isSome ∧
      dimensionNames (sampleExporter (.singleton (ascii "k") (ascii "v")) 0).options
        (attributePoint key).attributes = [ascii "k", key] ∧
      ¬ NamesApart (sampleExporter (.singleton (ascii "k") (ascii "v")) 0).options
        (attributePoint key).attributes := by decide +kernel
  obtain ⟨hsent, hnames, hapart⟩ := hall key hkey
  obtain ⟨m, hm⟩ := Option.isSome_iff_exists.mp hsent
  refine ⟨m, ?_, ?_, ?_⟩
  · rw [exportPoint_sends]
    exact Option.mem_toList.mpr hm
  · rw [readNames_pointMessage hm, hnames]
  · rw [canonicalNames_pointMessage_iff hm]
    exact hapart

end Geneva

/-
What a Geneva agent gets of whole runs of an exporter (`Exporter::Exporter`, `Export` and
`Shutdown` over `UnixDomainSocketDataTransport`).

`Export` serializes a point, sends what was serialized, and goes on to the next point; whether
it could be sent it does not look at.

* `export_eq` — sending inside the loops is sending the messages of the batch one after the other;
* `delivery` — in every run the messages that could be sent are what an agent reads that divides
  the bytes of the connections into frames, each once and in order;
* `points_decoded` — and where names and values of the prepopulated dimensions are filtered alike,
  what the decoder reads are the points that they were made of;
* `delivers_after_failures` — after any run an exporter that is answered well delivers everything.
-/
import OtelContrib.Fluentd.Received
import OtelContrib.Geneva.Conservation
import OtelContrib.Geneva.Transport

open ByteCodec ByteCodec.Reader StreamFraming
open Fluentd (Answers Transport Latest received delivered readConnections writesOn)

/-! ### Frames -/

namespace IfxMetricsBin

/-- The outer fields of a message: its type and its body. -/
def frame : Reader (ℕ × List UInt8) := do
  let eventId ← uint 2
  let body ← lenString 2
  pure (eventId, body)

def frameBytes (f : ℕ × List UInt8) : List UInt8 := leBytes 2 f.1 ++ lenStringBytes 2 f.2

theorem frame_inverts :
    Inverts frame frameBytes (fun f => f.1 < 256 ^ 2 ∧ f.2.length < 256 ^ 2) := by
  have hbody : ∀ eventId, Inverts (lenString 2 >>= fun body => pure (eventId, body))
      (fun f : ℕ × List UInt8 => lenStringBytes 2 f.2) _ := fun eventId =>
    (lenString_inverts 2).map (fun body => (eventId, body)) fun _ _ => rfl
  refine ((uint_inverts 2).bind Prod.fst (fun eventId _ => hbody eventId) ?_).congr
    (fun _ _ => rfl) fun f => ?_
  · rintro eventId f ⟨body, -, rfl⟩
    rfl
  · refine and_congr_right fun _ => ⟨?_, fun hbody => ⟨f.2, hbody, rfl⟩⟩
    rintro ⟨body, hbody, heq⟩
    rw [heq]
    exact hbody

theorem frameBytes_ne_nil (f : ℕ × List UInt8) : frameBytes f ≠ [] := by
  simp [frameBytes, leBytes]

theorem frame_selfDelimiting {f : ℕ × List UInt8} (hid : f.1 < 256 ^ 2)
    (hbody : f.2.length < 256 ^ 2) :
    SelfDelimiting frame (frameBytes f) f :=
  frame_inverts.selfDelimiting ⟨hid, hbody⟩ (frameBytes_ne_nil f)

/-- A message is read from the body of a frame. -/
theorem read_iff_frame {bs rest : List UInt8} {m : Message} :
    read bs = some (m, rest) ↔ ∃ f, frame bs = some (f, rest) ∧
      (userdata f.1 f.2).map (fun u => ⟨f.1, f.2.length, u.1, u.2⟩) = some m := by
  simp only [read, frame, lenString, bind_eq_some_iff, pure_apply]
  constructor
  · rintro ⟨eventId, mid, hid, lenBody, mid', hlen, body, rest', hbody, hm⟩
    obtain ⟨hlength, -⟩ := (take_inverts lenBody _ _ _).mp hbody
    rcases hu : userdata eventId body with _ | ⟨u, unread⟩
    · rw [hu] at hm
      cases hm
    · rw [hu] at hm
      obtain ⟨rfl, rfl⟩ := Prod.mk.injEq _ _ _ _ ▸ Option.some.inj hm
      refine ⟨(eventId, body), ⟨eventId, mid, hid, body, rest', ⟨lenBody, mid', hlen, hbody⟩,
        rfl⟩, ?_⟩
      rw [hu, ← hlength]
      rfl
  · rintro ⟨f, ⟨eventId, mid, hid, body, rest', ⟨lenBody, mid', hlen, hbody⟩, hf⟩, hm⟩
    obtain ⟨rfl, rfl⟩ := Prod.mk.injEq _ _ _ _ ▸ Option.some.inj hf
    obtain ⟨hlength, -⟩ := (take_inverts lenBody _ _ _).mp hbody
    obtain ⟨⟨u, unread⟩, hu, rfl⟩ := Option.map_eq_some_iff.mp hm
    refine ⟨eventId, mid, hid, lenBody, mid', hlen, body, rest', hbody, ?_⟩
    rw [hu, ← hlength]
    rfl

/-- What can be told apart as a frame can be told apart as the message that is read from it. -/
theorem read_selfDelimiting {bytes : List UInt8} {f : ℕ × List UInt8}
    (hframe : SelfDelimiting frame bytes f) {m : Message} (hread : read bytes = some (m, [])) :
    SelfDelimiting read bytes m where
  ne_nil := hframe.ne_nil
  read rest := by
    obtain ⟨f', hf', hm⟩ := read_iff_frame.mp hread
    rw [hframe.read_eq] at hf'
    cases hf'
    exact read_iff_frame.mpr ⟨f, hframe.read rest, hm⟩
  part p hp hlt := by
    rcases hr : IfxMetricsBin.read p with _ | ⟨m', rest⟩
    · rfl
    · obtain ⟨f', hf', -⟩ := read_iff_frame.mp hr
      rw [hframe.part p hp hlt] at hf'
      cases hf'

end IfxMetricsBin

namespace Geneva

/-! ### The messages of points -/

/-- The frame that a message is. -/
def Message.frame (m : Message) : ℕ × List UInt8 :=
  (m.eventType.toUInt16.toNat, m.data.drop kBinaryHeaderSize)

/-- The event type of a point, and what of its message stands in front of the strings and behind
them. -/
def pointSections (casts : UndefinedCasts) (ts : SystemTimestamp) (point : PointDataAttributes) :
    Option (MetricsEventType × IfxMetricsBin.ValueSection × Option IfxMetricsBin.Histogram) :=
  let ticks := (windowsTicks ts).toNat
  match point.pointData with
  | .sum d => some (d.exported.eventType, d.exported.decoded (leBytes 4 0) ticks, none)
  | .lastValue d => some (d.exported.eventType, d.exported.decoded (leBytes 4 0) ticks, none)
  | .histogram d => some (.ExternallyAggregatedUlongDistributionMetric,
      .extAggregatedUint64 ⟨d.count.toUInt32.toNat, ticks, (d.sum.toLong casts).toUInt64.toNat,
        (d.min.toLong casts).toUInt64.toNat, (d.max.toLong casts).toUInt64.toNat⟩,
      some (decodedDistribution (exportedPairs casts.toUInt64 d.boundaries d.counts)))
  | .drop => none

/-- A message that fits the buffer, by its sections. -/
structure Sectioned (e : Exporter) (name : List UInt8) (attributes : PointAttributes) (m : Message)
    (value : IfxMetricsBin.ValueSection) (histogram : Option IfxMetricsBin.Histogram) : Prop where
  data_eq : m.data = sectionedMessage e m.eventType (m.data.length - kBinaryHeaderSize) value.bytes
    name attributes (histogram.elim [] IfxMetricsBin.Histogram.bytes)
  fits : m.data.length ≤ kBufferSize
  value : IfxMetricsBin.ValidValueSection m.eventType.toUInt16.toNat (some value)
  histogram : (∀ x ∈ histogram, x.Valid) ∧
    (IfxMetricsBin.isDistribution m.eventType.toUInt16.toNat = false → histogram = none)

section

variable {casts : UndefinedCasts} {e : Exporter} {name : List UInt8} {ts : SystemTimestamp}
  {attributes : PointAttributes} {point : PointDataAttributes} {m : Message}

theorem sectioned_nonHistogram (value : NonHistogramValue)
    (hdata : m.data =
      nonHistogramMessage e.options e.connectionStringParser value ts name attributes)
    (htype : m.eventType = value.eventType) (hfits : m.data.length ≤ kBufferSize) :
    Sectioned e name attributes m (value.decoded (leBytes 4 0) (windowsTicks ts).toNat) none := by
  have hlength : m.data.length - kBinaryHeaderSize = kMetricPayloadSize +
      (nonHistogramContent e.options e.connectionStringParser name attributes).length := by
    rw [hdata, nonHistogramMessage, List.length_append, length_nonHistogramHeader]
    omega
  refine ⟨?_, hfits, ?_, by simp, fun _ => rfl⟩
  · rw [hlength, hdata, htype]
    exact nonHistogramMessage_sections e value ts name attributes
  · rw [htype]
    exact value.valid_decoded (windowsTicks ts).toNat_lt

/-- Pairs of a message that fits are few enough to be counted in 16 bits. -/
theorem valid_exportedPairs {undefinedCast : Binary64 → UInt64} {d : HistogramArguments}
    (hfits : (histogramMessage undefinedCast e.options e.connectionStringParser d.count d.sum d.min
      d.max d.boundaries d.counts ts name attributes).length ≤ kBufferSize) :
    (decodedDistribution (exportedPairs undefinedCast d.boundaries d.counts)).Valid := by
  refine ⟨Nat.zero_lt_succ _, ?_, _, ⟨?_, rfl, fun q hq => ?_⟩, rfl⟩
  · show 2 < 256 ^ 1
    decide
  · rw [histogramMessage, List.length_append, length_histogramContent, kBufferSize] at hfits
    show ((exportedBuckets _ d.boundaries d.counts).map _).length < 256 ^ 2
    rw [List.length_map]
    omega
  · obtain ⟨bc, -, rfl⟩ := List.mem_map.mp hq
    exact ⟨(bc.1.toUInt64 undefinedCast).toNat_lt, bc.2.toUInt32.toNat_lt⟩

theorem sectioned_histogram {undefinedCast : Binary64 → UInt64} (d : HistogramArguments)
    (hdata : m.data = histogramMessage undefinedCast e.options e.connectionStringParser
      d.count d.sum d.min d.max d.boundaries d.counts ts name attributes)
    (htype : m.eventType = .ExternallyAggregatedUlongDistributionMetric)
    (hfits : m.data.length ≤ kBufferSize) :
    Sectioned e name attributes m
      (.extAggregatedUint64 ⟨d.count.toUInt32.toNat, (windowsTicks ts).toNat, d.sum.toUInt64.toNat,
        d.min.toUInt64.toNat, d.max.toUInt64.toNat⟩)
      (some (decodedDistribution (exportedPairs undefinedCast d.boundaries d.counts))) := by
  have hlength : m.data.length - kBinaryHeaderSize = kExternalPayloadSize +
      (histogramContent undefinedCast e.options e.connectionStringParser
        .ExternallyAggregatedUlongDistributionMetric d.boundaries d.counts name
          attributes).length := by
    rw [hdata, histogramMessage, List.length_append, length_histogramHeader]
    omega
  have hdistribution : distributionBytes undefinedCast d =
      (decodedDistribution (exportedPairs undefinedCast d.boundaries d.counts)).bytes := by
    rw [distributionBytes, flatMap_bucketBytes, decodedDistribution, exportedPairs, List.length_map]
    rfl
  refine ⟨?_, hfits, ?_, ?_, fun hnot => ?_⟩
  · rw [hlength, hdata, htype, Option.elim_some, ← hdistribution]
    exact histogramMessage_sections undefinedCast e d ts name attributes
  · have hvalue : IfxMetricsBin.ExtAggregatedUint64Value.Valid ⟨d.count.toUInt32.toNat,
        (windowsTicks ts).toNat, d.sum.toUInt64.toNat, d.min.toUInt64.toNat,
          d.max.toUInt64.toNat⟩ :=
      ⟨d.count.toUInt32.toNat_lt, (windowsTicks ts).toNat_lt, d.sum.toUInt64.toNat_lt,
        d.min.toUInt64.toNat_lt, d.max.toUInt64.toNat_lt⟩
    rw [htype]
    exact ⟨_, hvalue, rfl⟩
  · rintro x ⟨⟩
    rw [hdata] at hfits
    exact valid_exportedPairs hfits
  · rw [htype] at hnot
    exact absurd hnot (by decide)

/-- The message of a point has the sections of the point. -/
theorem pointMessage_sectioned (h : pointMessage casts e.options name ts point = some m) :
    ∃ value histogram, pointSections casts ts point = some (m.eventType, value, histogram) ∧
      Sectioned e name point.attributes m value histogram := by
  obtain ⟨hwhole, hfits⟩ := Option.filter_eq_some_iff.mp h
  replace hfits : m.data.length ≤ kBufferSize := of_decide_eq_true hfits
  rw [wholeMessage, ← e.parsed] at hwhole
  rw [pointSections]
  cases hpoint : point.pointData with
  | sum d =>
    rw [hpoint] at hwhole
    obtain rfl := Option.some.inj hwhole
    exact ⟨_, _, rfl, sectioned_nonHistogram d.exported rfl rfl hfits⟩
  | lastValue d =>
    rw [hpoint] at hwhole
    obtain rfl := Option.some.inj hwhole
    exact ⟨_, _, rfl, sectioned_nonHistogram d.exported rfl rfl hfits⟩
  | histogram d =>
    rw [hpoint] at hwhole
    obtain rfl := Option.some.inj hwhole
    exact ⟨_, _, rfl, sectioned_histogram ⟨d.count, d.sum.toLong casts, d.min.toLong casts,
      d.max.toLong casts, d.boundaries, d.counts⟩ rfl rfl hfits⟩
  | drop =>
    rw [hpoint] at hwhole
    cases hwhole

variable {value : IfxMetricsBin.ValueSection} {histogram : Option IfxMetricsBin.Histogram}

/-- A message announces the length of its own body. -/
theorem Sectioned.frame_spec (h : Sectioned e name attributes m value histogram) :
    m.data = IfxMetricsBin.frameBytes m.frame ∧ m.frame.2.length < 256 ^ 2 := by
  have hdata := h.data_eq
  rw [sectionedMessage, ← List.append_assoc] at hdata
  have hbody := congrArg (List.drop kBinaryHeaderSize) hdata
  rw [List.drop_left' (by rw [List.length_append, length_leBytes, length_leBytes]; rfl)] at hbody
  have hlength : m.frame.2.length = m.data.length - kBinaryHeaderSize := List.length_drop ..
  refine ⟨?_, ?_⟩
  · rw [IfxMetricsBin.frameBytes, lenStringBytes, hlength, ← List.append_assoc]
    refine hdata.trans (congrArg (leBytes 2 _ ++ leBytes 2 _ ++ ·) ?_)
    exact hbody.symm
  · have hfits := h.fits
    rw [hlength]
    rw [kBufferSize] at hfits
    omega

theorem Sectioned.selfDelimiting (h : Sectioned e name attributes m value histogram) :
    SelfDelimiting IfxMetricsBin.frame m.data m.frame := by
  obtain ⟨hdata, hlength⟩ := h.frame_spec
  rw [hdata]
  exact IfxMetricsBin.frame_selfDelimiting m.eventType.toUInt16.toNat_lt hlength

/-- With matching filters it is decoded to the fields it was made of. -/
theorem Sectioned.decodes (h : Sectioned e name attributes m value histogram)
    (hfilter : SameFilter e.options) :
    ∃ x, SelfDelimiting IfxMetricsBin.read m.data x ∧
      DecodedFields e m.eventType (m.data.length - kBinaryHeaderSize) name attributes x ∧
      x.body.valueSection = some value ∧ x.body.apContainer = some [] ∧
      x.body.histogram = histogram := by
  have hfits := h.fits
  have hsize := congrArg List.length h.data_eq
  simp only [sectionedMessage, List.length_append, length_leBytes] at hsize
  rw [kBufferSize] at hfits
  have hlt : m.data.length - kBinaryHeaderSize < 2 ^ 16 := by omega
  obtain ⟨x, hread, hfields⟩ := hfilter.decodes m.eventType name attributes value histogram
    (by rw [kBufferSize]; omega) h.value h.histogram hlt (by rw [kBinaryHeaderSize]; omega)
  rw [← h.data_eq] at hread
  exact ⟨x, IfxMetricsBin.read_selfDelimiting h.selfDelimiting hread, hfields⟩

end

/-! ### `Send` -/

open UnixDomainSocketDataTransport (Healthy healthy_init connect_eq connect_healthy connect_result
  disconnect disconnect_healthy send send_spec)

/-- `Send` adds its message to what was received exactly when it returns true. -/
theorem send_received {message : Bytes} {a : Answers} {t t' : Transport} {ok : Bool}
    (I : Latest t) (hne : message ≠ []) (h : send message a t = (ok, t')) :
    Latest t' ∧ received t' = received t ++ if ok then [message] else [] := by
  rw [send] at h
  -- polling or connecting comes first
  obtain ⟨error_code, t₁, ht₁⟩ : ∃ error_code t₁, (if t.connected then (a.soError, t)
      else (0, (UnixDomainSocketDataTransport.connect a t).2)) = (error_code, t₁) := ⟨_, _, rfl⟩
  have hready : Latest t₁ ∧ received t₁ = received t := by
    split at ht₁
    · cases ht₁
      exact ⟨I, rfl⟩
    · cases ht₁
      exact Fluentd.connect_received I (connect_eq a t).symm
  obtain ⟨I₁, hreceived₁⟩ := hready
  simp only [ht₁] at h
  split at h
  · cases h
    exact ⟨Fluentd.dropped_latest I₁, hreceived₁.trans (List.append_nil _).symm⟩
  next husable =>
    have hconnected : t₁.connected := by
      by_contra hnot
      exact husable (.inl hnot)
    obtain ⟨c, hc⟩ := Option.isSome_iff_exists.mp (I₁.sound.valid hconnected)
    obtain ⟨t₂, ht₂, I₂, hconnected₂, hsocket₂, hreceived₂⟩ :=
      Fluentd.writePacket_received I₁ hc hne a.sends
    simp only [ht₂] at h
    rw [hreceived₁] at hreceived₂
    split at h
    next hshort =>
      cases h
      rw [if_neg (Ne.symm hshort)] at hreceived₂
      have hclosed : (disconnect t₂).2 = Transport.closeSocket { t₂ with connected := false } := by
        rw [disconnect, if_pos (hconnected₂.trans hconnected)]
        simp only [hsocket₂, Option.isSome_some, if_true]
      obtain ⟨I₃, hreceived₃⟩ := Fluentd.closeSocket_received (Fluentd.dropped_latest I₂) rfl
      rw [hclosed]
      exact ⟨I₃, hreceived₃.trans hreceived₂⟩
    next hwhole =>
      cases h
      rw [if_pos (of_not_not hwhole).symm] at hreceived₂
      exact ⟨I₂, hreceived₂⟩

/-- What was handed to `Send` so far, with what it said, and the connection. -/
structure Carried (t : Transport) (sent : List (Message × Bool)) : Prop where
  healthy : Healthy t
  latest : Latest t
  received_eq : received t = (delivered sent).map Message.data
  frames : ∀ c, ∀ w ∈ writesOn c t.events, ∃ m ∈ sent, m.1.data = w.frame

/-- The connection that the constructor makes, if it can. -/
theorem carried_connect (a : Answers) :
    Carried (UnixDomainSocketDataTransport.connect a Transport.init).2 [] := by
  obtain ⟨ok, t, ht⟩ : ∃ ok t, UnixDomainSocketDataTransport.connect a Transport.init = (ok, t) :=
    ⟨_, _, rfl⟩
  obtain ⟨hhealthy, hsame⟩ := connect_healthy healthy_init ht
  obtain ⟨hlatest, hreceived⟩ :=
    Fluentd.connect_received Fluentd.latest_init ((connect_eq a Transport.init).symm.trans ht)
  rw [ht]
  refine ⟨hhealthy, hlatest, hreceived, fun c w hw => ?_⟩
  rw [hsame] at hw
  cases hw

theorem Carried.send {t t' : Transport} {sent : List (Message × Bool)} (h : Carried t sent)
    {m : Message} {a : Answers} {ok : Bool} (hne : m.data ≠ [])
    (hsend : UnixDomainSocketDataTransport.send m.data a t = (ok, t')) :
    Carried t' (sent ++ [(m, ok)]) := by
  obtain ⟨hhealthy, hframes, -⟩ := send_spec h.healthy hsend
  obtain ⟨hlatest, hreceived⟩ := send_received h.latest hne hsend
  refine ⟨hhealthy, hlatest, ?_, fun c w hw => ?_⟩
  · rw [hreceived, h.received_eq, Fluentd.delivered_append, List.map_append,
      Fluentd.delivered_singleton]
    cases ok <;> rfl
  · rcases hframes c w hw with hw | hframe
    · obtain ⟨m', hm', heq⟩ := h.frames c w hw
      exact ⟨m', List.mem_append_left _ hm', heq⟩
    · exact ⟨_, List.mem_append_right _ List.mem_cons_self, hframe.symm⟩

/-- An agent that divides the connections into values reads those of what was reported to be
sent. -/
theorem Carried.read {α : Type} {r : Reader α} {t : Transport} {sent : List (Message × Bool)}
    (h : Carried t sent) (hnil : r [] = none)
    (hcodec : ∀ m ∈ sent, ∃ v, SelfDelimiting r m.1.data v) :
    readConnections r t = valuesOf r ((delivered sent).map Message.data) := by
  rw [Fluentd.readConnections_eq h.healthy.framed (fun c w hw => ?_) hnil, h.received_eq]
  obtain ⟨m, hm, heq⟩ := h.frames c w hw
  obtain ⟨v, hv⟩ := hcodec m hm
  exact ⟨v, heq ▸ hv⟩

/-! ### `Export` -/

/-- An exporter that is exporting: the connection, what the system will answer to the calls of
`Send` to come, and the messages that were handed to it, with what it said. -/
structure Sending where
  exporter : Exporter
  world : ℕ → Answers
  transport : Transport
  sent : List (Message × Bool)

/-- `data_transport_->Send`, whose result is not looked at. -/
def Sending.send (s : Sending) (m : Message) : Sending :=
  let (ok, t) := UnixDomainSocketDataTransport.send m.data (s.world 0) s.transport
  { s with world := fun i => s.world (i + 1), transport := t, sent := s.sent ++ [(m, ok)] }

/-- The body of the innermost loop: a point is serialized, and what was serialized is sent. -/
def Sending.exportPoint (casts : UndefinedCasts) (metricData : MetricData) (s : Sending)
    (point : PointDataAttributes) : Sending :=
  let (e, messages) := s.exporter.exportPoint casts metricData point
  messages.foldl Sending.send { s with exporter := e }

/-- `Export` with its transport. -/
def Sending.export (casts : UndefinedCasts) (s : Sending) (data : ResourceMetrics) :
    ExportResult × Sending :=
  if s.exporter.isShutdown then (.kFailure, s)
  else if data.scopeMetricData = [] then (.kSuccess, s)
  else
    (.kSuccess,
      data.scopeMetricData.foldl
        (fun s record =>
          record.metricData.foldl
            (fun s metricData =>
              metricData.pointDataAttr.foldl (Sending.exportPoint casts metricData) s)
            s)
        s)

/-- Sending neither looks at the exporter nor changes it. -/
theorem foldl_send_with (messages : List Message) (s : Sending) (e : Exporter) :
    messages.foldl Sending.send { s with exporter := e } =
      { messages.foldl Sending.send s with exporter := e } := by
  induction messages generalizing s with
  | nil => rfl
  | cons m messages ih => exact ih (s.send m)

theorem foldl_send_exporter (messages : List Message) (s : Sending) :
    (messages.foldl Sending.send s).exporter = s.exporter := by
  induction messages generalizing s with
  | nil => rfl
  | cons m messages ih => exact ih (s.send m)

/-- A loop whose body sends what it serialized sends what the loop serialized. -/
theorem foldl_exportLoop {α : Type} (body : Exporter → α → Exporter × List Message)
    (bodySending : Sending → α → Sending)
    (hbody : ∀ s x, bodySending s x =
      (body s.exporter x).2.foldl Sending.send { s with exporter := (body s.exporter x).1 })
    (xs : List α) (s : Sending) :
    xs.foldl bodySending s = (exportLoop body s.exporter xs).2.foldl Sending.send
      { s with exporter := (exportLoop body s.exporter xs).1 } := by
  induction xs generalizing s with
  | nil => rfl
  | cons x xs ih =>
    have hexporter : (bodySending s x).exporter = (body s.exporter x).1 := by
      rw [hbody, foldl_send_exporter]
    rw [List.foldl_cons, ih, hexporter, hbody, exportLoop, List.foldl_append]
    -- what the exporter becomes in the end may as well be put in first
    simp only [foldl_send_with]

/-- `Export` sends the messages of its batch one after the other. -/
theorem export_eq (casts : UndefinedCasts) (s : Sending) (data : ResourceMetrics) :
    s.export casts data =
      ((s.exporter.export casts data).1, (s.exporter.export casts data).2.2.foldl Sending.send
        { s with exporter := (s.exporter.export casts data).2.1 }) := by
  have hmetric := fun metricData : MetricData => foldl_exportLoop
    (fun e point => e.exportPoint casts metricData point) (Sending.exportPoint casts metricData)
    (fun _ _ => rfl)
  have hscope := fun record : ScopeMetrics => foldl_exportLoop
    (fun e metricData =>
      exportLoop (fun e point => e.exportPoint casts metricData point) e metricData.pointDataAttr)
    _ (fun s metricData => hmetric metricData metricData.pointDataAttr s) record.metricData
  have hdata := foldl_exportLoop
    (fun e record =>
      exportLoop (fun e metricData =>
        exportLoop (fun e point => e.exportPoint casts metricData point) e metricData.pointDataAttr)
        e record.metricData)
    _ (fun s record => hscope record s) data.scopeMetricData s
  rw [Sending.export, Exporter.export]
  split
  · rfl
  · split
    · rfl
    · exact congrArg (Prod.mk ExportResult.kSuccess) hdata

/-! ### Whole runs -/

/-- A constructed exporter and its transport. -/
structure System where
  exporter : Exporter
  transport : Transport

/-- The constructor tries to connect; an exporter that could not connect exists as well. -/
def System.init (e : Exporter) (a : Answers) : System :=
  ⟨{ e with isShutdown := false }, (UnixDomainSocketDataTransport.connect a Transport.init).2⟩

/-- What is called on an exporter: `Export`, with what the system will answer, and `Shutdown`. -/
inductive ExporterCall
  | exportMetrics (data : ResourceMetrics) (world : ℕ → Answers)
  | shutdown

/-- What `Export` returned, and the messages it handed to `Send`, with what that said. -/
structure Outcome where
  result : Option ExportResult
  sent : List (Message × Bool)

/-- One call.  Every call is defined on every exporter. -/
def step (casts : UndefinedCasts) (s : System) : ExporterCall → Option (Outcome × System)
  | .exportMetrics data world =>
    let (result, sending) := Sending.export casts ⟨s.exporter, world, s.transport, []⟩ data
    some (⟨some result, sending.sent⟩, ⟨sending.exporter, sending.transport⟩)
  | .shutdown => some (⟨none, []⟩, { s with exporter := { s.exporter with isShutdown := true } })

/-- The messages that the calls of a run handed to `Send`. -/
def sentBy (ts : List (Transition System ExporterCall Outcome)) : List (Message × Bool) :=
  ts.flatMap fun q => q.outcome.sent

/-- A point with the name and the end of its metric. -/
abbrev NamedPoint := List UInt8 × SystemTimestamp × PointDataAttributes

/-- The points of the batches that are exported before the first `Shutdown`. -/
def exportedPoints : List ExporterCall → List NamedPoint
  | [] => []
  | .exportMetrics data _ :: calls => data.points ++ exportedPoints calls
  | .shutdown :: _ => []

/-- The message of a point of a batch. -/
def messageOf (casts : UndefinedCasts) (options : ExporterOptions) (x : NamedPoint) :
    Option Message :=
  pointMessage casts options x.1 x.2.1 x.2.2

theorem exportedPoints_of_shutdown {calls : List ExporterCall} (h : .shutdown ∈ calls)
    (call : ExporterCall) : exportedPoints (calls ++ [call]) = exportedPoints calls := by
  induction calls with
  | nil => cases h
  | cons first calls ih =>
    cases first with
    | exportMetrics data world =>
      have hlater : ExporterCall.shutdown ∈ calls := by simpa using h
      rw [List.cons_append, exportedPoints, exportedPoints, ih hlater]
    | shutdown => rfl

theorem exportedPoints_of_running {calls : List ExporterCall} (h : .shutdown ∉ calls)
    (call : ExporterCall) :
    exportedPoints (calls ++ [call]) = exportedPoints calls ++ exportedPoints [call] := by
  induction calls with
  | nil => rfl
  | cons first calls ih =>
    cases first with
    | exportMetrics data world =>
      have hlater : ExporterCall.shutdown ∉ calls := by simpa using h
      rw [List.cons_append, exportedPoints, exportedPoints, ih hlater, List.append_assoc]
    | shutdown => exact absurd List.mem_cons_self h

variable {casts : UndefinedCasts}

/-- A message of a point has the sections of the point for every exporter with these options. -/
theorem messageOf_sectioned {e : Exporter} {points : List NamedPoint} {m : Message}
    (hm : m ∈ points.filterMap (messageOf casts e.options)) :
    ∃ x ∈ points, messageOf casts e.options x = some m ∧ ∃ value histogram,
      pointSections casts x.2.1 x.2.2 = some (m.eventType, value, histogram) ∧
      Sectioned e x.1 x.2.2.attributes m value histogram := by
  obtain ⟨x, hx, hsome⟩ := List.mem_filterMap.mp hm
  exact ⟨x, hx, hsome, pointMessage_sectioned hsome⟩

theorem messageOf_ne_nil {e : Exporter} {points : List NamedPoint} {m : Message}
    (hm : m ∈ points.filterMap (messageOf casts e.options)) : m.data ≠ [] := by
  obtain ⟨x, -, -, value, histogram, -, hsectioned⟩ := messageOf_sectioned hm
  rw [hsectioned.frame_spec.1]
  exact IfxMetricsBin.frameBytes_ne_nil m.frame

theorem foldl_send_messages (messages : List Message) (s : Sending) :
    (messages.foldl Sending.send s).sent.map Prod.fst = s.sent.map Prod.fst ++ messages := by
  induction messages generalizing s with
  | nil => exact (List.append_nil _).symm
  | cons m messages ih =>
    refine (ih (s.send m)).trans ?_
    show (s.sent ++ [(m, _)]).map Prod.fst ++ messages = _
    rw [List.map_append, List.append_assoc]
    rfl

/-- Messages that are sent one after the other. -/
theorem Carried.foldl_send (earlier : List (Message × Bool)) {messages : List Message}
    (hne : ∀ m ∈ messages, m.data ≠ []) {s : Sending}
    (h : Carried s.transport (earlier ++ s.sent)) :
    Carried (messages.foldl Sending.send s).transport
      (earlier ++ (messages.foldl Sending.send s).sent) := by
  induction messages generalizing s with
  | nil => exact h
  | cons m messages ih =>
    have hsent := h.send (hne m List.mem_cons_self) (a := s.world 0) rfl
    rw [List.append_assoc] at hsent
    exact ih (fun m' hm' => hne m' (List.mem_cons_of_mem _ hm')) (s := s.send m) hsent

/-- The messages of one export are those of its points. -/
theorem export_messages (casts : UndefinedCasts) (e : Exporter) (data : ResourceMetrics) :
    (e.export casts data).2.2 =
      if e.isShutdown then [] else data.points.filterMap (messageOf casts e.options) := by
  rw [export_sends, List.filterMap_eq_flatMap_toList]
  rfl

theorem exportLoop_same {α : Type} {body : Exporter → α → Exporter × List Message}
    (hsame : ∀ e x, SameButBuffer e (body e x).1) (xs : List α) (e : Exporter) :
    SameButBuffer e (exportLoop body e xs).1 := by
  induction xs generalizing e with
  | nil => exact ⟨rfl, rfl⟩
  | cons x xs ih =>
    obtain ⟨hoptions, hshutdown⟩ := hsame e x
    obtain ⟨hoptions', hshutdown'⟩ := ih (body e x).1
    exact ⟨hoptions'.trans hoptions, hshutdown'.trans hshutdown⟩

theorem export_same (e : Exporter) (data : ResourceMetrics) :
    SameButBuffer e (e.export casts data).2.1 := by
  rw [Exporter.export]
  split
  · exact ⟨rfl, rfl⟩
  · split
    · exact ⟨rfl, rfl⟩
    · exact exportLoop_same (fun e record => exportLoop_same (fun e metricData =>
        exportLoop_same (fun e point => exportPoint_same casts e metricData point) _ e) _ e) _ e

/-- What `Export` does to the exporter and its connection. -/
theorem step_export {s s' : System} {data : ResourceMetrics} {world : ℕ → Answers} {o : Outcome}
    (h : step casts s (.exportMetrics data world) = some (o, s')) :
    SameButBuffer s.exporter s'.exporter ∧
      o.sent.map Prod.fst = (if s.exporter.isShutdown then []
        else data.points.filterMap (messageOf casts s.exporter.options)) ∧
      ∀ earlier, Carried s.transport earlier → Carried s'.transport (earlier ++ o.sent) := by
  rw [step, export_eq] at h
  cases h
  have hmessages := export_messages casts s.exporter data
  have hne : ∀ m ∈ (s.exporter.export casts data).2.2, m.data ≠ [] := by
    intro m hm
    rw [hmessages] at hm
    split at hm
    · cases hm
    · exact messageOf_ne_nil hm
  have hsending := fun earlier => Carried.foldl_send earlier hne
    (s := ⟨(s.exporter.export casts data).2.1, world, s.transport, []⟩)
  refine ⟨?_, ?_, fun earlier hearlier => ?_⟩
  · rw [foldl_send_exporter]
    exact export_same s.exporter data
  · rw [← hmessages]
    exact foldl_send_messages _ _
  · exact (hsending earlier (by rwa [List.append_nil]))

/-- What holds of an exporter and its connection after the calls of a run. -/
structure Progress (casts : UndefinedCasts) (options : ExporterOptions)
    (ts : List (Transition System ExporterCall Outcome)) (s : System) : Prop where
  carried : Carried s.transport (sentBy ts)
  options_eq : s.exporter.options = options
  isShutdown_iff : s.exporter.isShutdown ↔ .shutdown ∈ ts.map Transition.call
  messages : (sentBy ts).map Prod.fst =
    (exportedPoints (ts.map Transition.call)).filterMap (messageOf casts options)

theorem run_progress {e : Exporter} {a : Answers}
    {ts : List (Transition System ExporterCall Outcome)} {s : System}
    (hrun : Run (step casts) (System.init e a) ts s) : Progress casts e.options ts s := by
  have hinit : Progress casts e.options [] (System.init e a) :=
    ⟨carried_connect a, rfl, by simp [System.init], rfl⟩
  refine hrun.invariant (Progress casts e.options) hinit ?_
  intro ts s call o s' h hstep
  have hsentBy : sentBy (ts ++ [⟨s, call, o, s'⟩]) = sentBy ts ++ o.sent := by
    rw [sentBy, List.flatMap_append, List.flatMap_singleton]
    rfl
  have hcalls : List.map Transition.call (ts ++ [⟨s, call, o, s'⟩]) =
    ts.map Transition.call ++ [call] := List.map_append
  cases call with
  | shutdown =>
    cases hstep
    have hpoints : exportedPoints (ts.map Transition.call ++ [.shutdown]) =
        exportedPoints (ts.map Transition.call) := by
      by_cases hshut : .shutdown ∈ ts.map Transition.call
      · exact exportedPoints_of_shutdown hshut _
      · rw [exportedPoints_of_running hshut]
        exact List.append_nil _
    refine ⟨?_, h.options_eq, ?_, ?_⟩
    · rw [hsentBy, List.append_nil]
      exact h.carried
    · rw [hcalls]
      simp
    · rw [hsentBy, hcalls, List.append_nil, hpoints]
      exact h.messages
  | exportMetrics data world =>
    obtain ⟨⟨hoptions, hshutdown⟩, hsent, hcarried⟩ := step_export hstep
    refine ⟨?_, hoptions.trans h.options_eq, ?_, ?_⟩
    · rw [hsentBy]
      exact hcarried _ h.carried
    · rw [hcalls, hshutdown, h.isShutdown_iff]
      simp
    · rw [hsentBy, hcalls, List.map_append, h.messages, hsent]
      by_cases hshut : s.exporter.isShutdown
      · rw [if_pos hshut, exportedPoints_of_shutdown (h.isShutdown_iff.mp hshut)]
        exact List.append_nil _
      · have hpoints : exportedPoints [.exportMetrics data world] = data.points :=
          List.append_nil _
        rw [if_neg hshut, exportedPoints_of_running (mt h.isShutdown_iff.mpr hshut),
          List.filterMap_append, h.options_eq, hpoints]

/-- What was handed to `Send` has the sections of a point that was exported. -/
theorem Progress.sectioned {e : Exporter} {ts : List (Transition System ExporterCall Outcome)}
    {s : System} (h : Progress casts e.options ts s) {m : Message × Bool} (hm : m ∈ sentBy ts) :
    ∃ x ∈ exportedPoints (ts.map Transition.call), messageOf casts e.options x = some m.1 ∧
      ∃ value histogram, pointSections casts x.2.1 x.2.2 = some (m.1.eventType, value, histogram) ∧
        Sectioned e x.1 x.2.2.attributes m.1 value histogram := by
  have hmem := List.mem_map_of_mem (f := Prod.fst) hm
  rw [h.messages] at hmem
  exact messageOf_sectioned hmem

/-- **Delivery of metrics.**  In every run of an exporter, whatever the system answers, the messages
that it handed to `Send` are those of the points that fit the buffer, of the batches exported before
the first `Shutdown`; the ones that `Send` reported to be sent are the ones that were written whole,
each once and in order; and they are the frames that an agent divides the connections into. -/
theorem delivery (casts : UndefinedCasts) (e : Exporter) (a : Answers)
    {ts : List (Transition System ExporterCall Outcome)} {s : System}
    (hrun : Run (step casts) (System.init e a) ts s) :
    (sentBy ts).map Prod.fst =
        (exportedPoints (ts.map Transition.call)).filterMap (messageOf casts e.options) ∧
      received s.transport = (delivered (sentBy ts)).map Message.data ∧
      readConnections IfxMetricsBin.frame s.transport =
        (delivered (sentBy ts)).map Message.frame := by
  have h := run_progress hrun
  have hframes : ∀ m ∈ sentBy ts, SelfDelimiting IfxMetricsBin.frame m.1.data m.1.frame := by
    intro m hm
    obtain ⟨x, -, -, value, histogram, -, hsectioned⟩ := h.sectioned hm
    exact hsectioned.selfDelimiting
  refine ⟨h.messages, h.carried.received_eq, ?_⟩
  rw [h.carried.read rfl fun m hm => ⟨_, hframes m hm⟩]
  exact Fluentd.valuesOf_delivered fun m hm => hframes _ (Fluentd.mem_delivered hm)

/-- Of the first message one byte is accepted, and of the second one everything. -/
def sampleWorld : ℕ → Answers
  | 0 => ⟨0, true, true, [some 1, none]⟩
  | _ => ⟨0, true, true, [some kBufferSize]⟩

/-- A batch of two points, a `Shutdown`, and the batch again. -/
def sampleCalls : List ExporterCall :=
  [.exportMetrics sampleBatch sampleWorld, .shutdown, .exportMetrics sampleBatch sampleWorld]

theorem sampleCalls_run :
    ∃ r, Run.ofCalls (step ⟨fun _ => 0, fun _ => 0⟩)
        (System.init (sampleExporter (.singleton (ascii "k") (ascii "v")) 0) ⟨0, true, true, []⟩)
        sampleCalls = some r ∧ (sentBy r.1).map Prod.snd = [false, true] := by
  have h : ((Run.ofCalls (step ⟨fun _ => 0, fun _ => 0⟩)
      (System.init (sampleExporter (.singleton (ascii "k") (ascii "v")) 0) ⟨0, true, true, []⟩)
      sampleCalls).map fun r => (sentBy r.1).map Prod.snd) = some [false, true] := by
    decide +kernel
  exact Option.map_eq_some_iff.mp h

theorem delivery_sample :
    ∃ ts s, Run (step ⟨fun _ => 0, fun _ => 0⟩)
        (System.init (sampleExporter (.singleton (ascii "k") (ascii "v")) 0)
          ⟨0, true, true, []⟩) ts s ∧
      (sentBy ts).map Prod.snd = [false, true] ∧
      readConnections IfxMetricsBin.frame s.transport =
        (delivered (sentBy ts)).map Message.frame := by
  obtain ⟨r, hr, hsent⟩ := sampleCalls_run
  exact ⟨r.1, r.2, Run.of_ofCalls hr, hsent, (delivery _ _ _ (Run.of_ofCalls hr)).2.2⟩

/-- What a decoded message says of a point. -/
def DecodedPoint (casts : UndefinedCasts) (e : Exporter) (x : NamedPoint)
    (m : IfxMetricsBin.Message) : Prop :=
  ∃ eventType value histogram, pointSections casts x.2.1 x.2.2 =
    some (eventType, value, histogram) ∧
    DecodedFields e eventType m.lenBody x.1 x.2.2.attributes m ∧
    m.body.valueSection = some value ∧ m.body.apContainer = some [] ∧ m.body.histogram = histogram

/-- Messages of some of the points are the messages of a part of the points. -/
theorem exists_sublist {α β : Type} {f : α → Option β} {xs : List α} {ys : List β}
    (h : ys.Sublist (xs.filterMap f)) :
    ∃ xs', xs'.Sublist xs ∧ List.Forall₂ (fun x y => f x = some y) xs' ys := by
  induction xs generalizing ys with
  | nil =>
    obtain rfl := List.sublist_nil.mp h
    exact ⟨[], .slnil, .nil⟩
  | cons x xs ih =>
    cases hx : f x with
    | none =>
      rw [List.filterMap_cons_none hx] at h
      obtain ⟨xs', hsublist, hall⟩ := ih h
      exact ⟨xs', hsublist.cons x, hall⟩
    | some y =>
      rw [List.filterMap_cons_some hx] at h
      cases h with
      | cons _ h =>
        obtain ⟨xs', hsublist, hall⟩ := ih h
        exact ⟨xs', hsublist.cons x, hall⟩
      | cons_cons _ h =>
        obtain ⟨xs', hsublist, hall⟩ := ih h
        exact ⟨x :: xs', hsublist.cons_cons x, .cons hx hall⟩

/-- What an agent reads from the message of a point. -/
theorem read_messageOf {e : Exporter} (hfilter : SameFilter e.options) {x : NamedPoint}
    {m : Message}
    (h : messageOf casts e.options x = some m) :
    ∃ d, SelfDelimiting IfxMetricsBin.read m.data d ∧ DecodedPoint casts e x d := by
  obtain ⟨value, histogram, hpoint, hsectioned⟩ := pointMessage_sectioned h
  obtain ⟨d, hread, hfields, hsections⟩ := hsectioned.decodes hfilter
  refine ⟨d, hread, m.eventType, value, histogram, hpoint, ?_, hsections⟩
  rw [hfields.lenBody]
  exact hfields

theorem forall₂_decoded {e : Exporter} (hfilter : SameFilter e.options) {points : List NamedPoint}
    {messages : List Message}
    (h : List.Forall₂ (fun x m => messageOf casts e.options x = some m) points messages) :
    List.Forall₂ (DecodedPoint casts e) points
      (valuesOf IfxMetricsBin.read (messages.map Message.data)) := by
  induction h with
  | nil => exact .nil
  | cons hm _ ih =>
    obtain ⟨d, hread, hdecoded⟩ := read_messageOf hfilter hm
    rw [List.map_cons, valuesOf_cons hread]
    exact .cons hdecoded ih

/-- **Points are decoded.**  Where both loops over the prepopulated dimensions keep the same
entries, what an agent reads from the connections with the decoder of the repository are points
that were exported, in order, each decoded to what was exported of it: those whose messages `Send`
reported to be sent. -/
theorem points_decoded (casts : UndefinedCasts) (e : Exporter) (a : Answers)
    (hfilter : SameFilter e.options)
    {ts : List (Transition System ExporterCall Outcome)} {s : System}
    (hrun : Run (step casts) (System.init e a) ts s) :
    ∃ points, points.Sublist (exportedPoints (ts.map Transition.call)) ∧
      List.Forall₂ (fun x m => messageOf casts e.options x = some m) points
        (delivered (sentBy ts)) ∧
      List.Forall₂ (DecodedPoint casts e) points
        (readConnections IfxMetricsBin.read s.transport) := by
  have h := run_progress hrun
  have hsublist := Fluentd.delivered_sublist (sentBy ts)
  rw [h.messages] at hsublist
  obtain ⟨points, hpoints, hmessages⟩ := exists_sublist hsublist
  refine ⟨points, hpoints, hmessages, ?_⟩
  rw [h.carried.read rfl fun m hm => ?_]
  · exact forall₂_decoded hfilter hmessages
  · obtain ⟨x, -, hx, -⟩ := h.sectioned hm
    obtain ⟨d, hread, -⟩ := read_messageOf hfilter hx
    exact ⟨d, hread⟩

theorem sampleExporter_sameFilter :
    SameFilter (sampleExporter (.singleton (ascii "k") (ascii "v")) 0).options := by
  rw [SameFilter]
  decide +kernel

theorem points_decoded_sample :
    ∃ ts s points, Run (step ⟨fun _ => 0, fun _ => 0⟩)
        (System.init (sampleExporter (.singleton (ascii "k") (ascii "v")) 0)
          ⟨0, true, true, []⟩) ts s ∧
      (sentBy ts).map Prod.snd = [false, true] ∧
      List.Forall₂ (DecodedPoint ⟨fun _ => 0, fun _ => 0⟩
          (sampleExporter (.singleton (ascii "k") (ascii "v")) 0))
        points (readConnections IfxMetricsBin.read s.transport) := by
  obtain ⟨r, hr, hsent⟩ := sampleCalls_run
  obtain ⟨points, -, -, hdecoded⟩ :=
    points_decoded ⟨fun _ => 0, fun _ => 0⟩ (sampleExporter (.singleton (ascii "k") (ascii "v")) 0)
      ⟨0, true, true, []⟩ sampleExporter_sameFilter (Run.of_ofCalls hr)
  exact ⟨r.1, r.2, points, Run.of_ofCalls hr, hsent, hdecoded⟩

/-! ### After failures -/

/-- The system has no error to report, connects, and accepts what the exporter writes. -/
structure Usable (a : Answers) : Prop where
  soError : a.soError = 0
  socket : a.socket = true
  connect : a.connect = true
  accepts : ∀ message : Bytes, message.length ≤ kBufferSize →
    Fluentd.writeall a.sends message = message.length

theorem send_usable {t : Transport} {a : Answers} {message : Bytes} (I : Healthy t) (ha : Usable a)
    (hlength : message.length ≤ kBufferSize) : (send message a t).1 = true := by
  obtain ⟨error_code, t₁, ht₁⟩ : ∃ error_code t₁, (if t.connected then (a.soError, t)
      else (0, (UnixDomainSocketDataTransport.connect a t).2)) = (error_code, t₁) := ⟨_, _, rfl⟩
  have hready : error_code = 0 ∧ t₁.connected = true ∧ t₁.socket.isSome := by
    split at ht₁
    next hconnected =>
      cases ht₁
      exact ⟨ha.soError, hconnected, I.sound.valid hconnected⟩
    next hdisconnected =>
      have hreopened : (t.reopen a).connected = true := by
        rw [Transport.reopen, ha.socket, ha.connect]
        rfl
      rw [UnixDomainSocketDataTransport.connect, if_neg hdisconnected, if_pos hreopened] at ht₁
      cases ht₁
      refine ⟨rfl, hreopened, ?_⟩
      rw [Transport.reopen, Transport.openSocket, ha.socket]
      rfl
  obtain ⟨rfl, hconnected, hsocket⟩ := hready
  obtain ⟨c, hc⟩ := Option.isSome_iff_exists.mp hsocket
  rw [send]
  simp only [ht₁, hconnected, not_true_eq_false, ne_eq, or_self, if_false,
    Transport.writePacket, hc, ha.accepts message hlength]

/-- When the system is usable, all messages that are sent are reported to be sent. -/
theorem foldl_send_usable (earlier : List (Message × Bool)) {messages : List Message}
    (hne : ∀ m ∈ messages, m.data ≠ [])
    (hlength : ∀ m ∈ messages, m.data.length ≤ kBufferSize) {s : Sending}
    (h : Carried s.transport (earlier ++ s.sent)) (hworld : ∀ i, Usable (s.world i)) :
    (messages.foldl Sending.send s).sent = s.sent ++ messages.map fun m => (m, true) := by
  induction messages generalizing s with
  | nil => exact (List.append_nil _).symm
  | cons m messages ih =>
    have hone : (s.send m).sent = s.sent ++ [(m, true)] :=
      congrArg (fun ok => s.sent ++ [(m, ok)])
        (send_usable h.healthy (hworld 0) (hlength m List.mem_cons_self))
    have hsent := h.send (hne m List.mem_cons_self) (a := s.world 0) rfl
    rw [List.append_assoc] at hsent
    have hothers := ih (fun m' hm' => hne m' (List.mem_cons_of_mem _ hm'))
      (fun m' hm' => hlength m' (List.mem_cons_of_mem _ hm')) (s := s.send m) hsent
      fun i => hworld (i + 1)
    rw [List.foldl_cons, hothers, hone, List.append_assoc]
    rfl

/-- **Delivery after failures.**  Whatever happened on the connections before, an exporter that
was not shut down and whose system is usable again delivers every message of a batch, and the agent
receives them behind what it received before. -/
theorem delivers_after_failures (casts : UndefinedCasts) (e : Exporter) (a : Answers)
    {ts : List (Transition System ExporterCall Outcome)} {s : System}
    (hrun : Run (step casts) (System.init e a) ts s) (hrunning : .shutdown ∉ ts.map Transition.call)
    (data : ResourceMetrics) (world : ℕ → Answers) (hworld : ∀ i, Usable (world i)) :
    ∃ s', step casts s (.exportMetrics data world) =
        some (⟨some .kSuccess, (data.points.filterMap (messageOf casts e.options)).map
          fun m => (m, true)⟩, s') ∧
      received s'.transport = received s.transport ++
        (data.points.filterMap (messageOf casts e.options)).map Message.data := by
  have h := run_progress hrun
  have hopen : s.exporter.isShutdown = false :=
    Bool.eq_false_iff.mpr (mt h.isShutdown_iff.mp hrunning)
  obtain ⟨o, s', hstep⟩ : ∃ o s', step casts s (.exportMetrics data world) = some (o, s') :=
    ⟨_, _, rfl⟩
  obtain ⟨-, -, hcarried⟩ := step_export hstep
  have hmessages : (s.exporter.export casts data).2.2 =
      data.points.filterMap (messageOf casts e.options) := by
    rw [export_messages, hopen, h.options_eq]
    rfl
  have hspec : ∀ m ∈ data.points.filterMap (messageOf casts e.options),
      m.data ≠ [] ∧ m.data.length ≤ kBufferSize := by
    intro m hm
    obtain ⟨x, -, -, value, histogram, -, hsectioned⟩ := messageOf_sectioned hm
    exact ⟨messageOf_ne_nil hm, hsectioned.fits⟩
  have hsuccess : (s.exporter.export casts data).1 = .kSuccess := by
    rw [Exporter.export, hopen]
    split
    · contradiction
    · split <;> rfl
  have ho : o = ⟨some .kSuccess, (data.points.filterMap (messageOf casts e.options)).map
      fun m => (m, true)⟩ := by
    rw [step, export_eq] at hstep
    cases hstep
    rw [hmessages, hsuccess]
    refine congrArg (Outcome.mk _) ?_
    rw [foldl_send_usable (sentBy ts) (fun m hm => (hspec m hm).1) (fun m hm => (hspec m hm).2)
      (by rw [List.append_nil]; exact h.carried) hworld]
    rfl
  refine ⟨s', ho ▸ hstep, ?_⟩
  rw [(hcarried _ h.carried).received_eq, h.carried.received_eq, Fluentd.delivered_append,
    List.map_append, ho, Fluentd.delivered_all]

theorem delivers_after_failures_sample :
    ∃ ts s s', Run (step ⟨fun _ => 0, fun _ => 0⟩)
        (System.init (sampleExporter (.singleton (ascii "k") (ascii "v")) 0) ⟨0, false, false, []⟩)
        ts s ∧ received s.transport = [] ∧
      step ⟨fun _ => 0, fun _ => 0⟩ s
        (.exportMetrics sampleBatch fun _ => ⟨0, true, true, [some kBufferSize]⟩) =
          some (⟨some .kSuccess, (sampleBatch.points.filterMap
            (messageOf ⟨fun _ => 0, fun _ => 0⟩
              (sampleExporter (.singleton (ascii "k") (ascii "v")) 0).options)).map
                fun m => (m, true)⟩, s') := by
  have hrun : ∃ ts s, Run (step ⟨fun _ => 0, fun _ => 0⟩)
        (System.init (sampleExporter (.singleton (ascii "k") (ascii "v")) 0) ⟨0, false, false, []⟩)
        ts s ∧
      ts.map Transition.call = [.exportMetrics sampleBatch fun _ => ⟨0, false, true, []⟩] ∧
      received s.transport = [] :=
    ⟨_, _, Run.single rfl, rfl, by decide +kernel⟩
  obtain ⟨ts, s, hrun, hcalls, hreceived⟩ := hrun
  obtain ⟨s', hstep, -⟩ := delivers_after_failures _ _ _ hrun (by rw [hcalls]; simp) sampleBatch
    (fun _ => ⟨0, true, true, [some kBufferSize]⟩)
    fun _ => ⟨rfl, rfl, rfl, fun message hlength => by
      rw [Fluentd.writeall, Nat.min_eq_right hlength]
      simp⟩
  exact ⟨ts, s, s', hrun, hreceived, hstep⟩

end Geneva

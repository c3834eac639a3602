/-
The construction of the Geneva exporter, and its uses of `data_transport_`.

The constructor creates a transport for the protocol `kUNIX` alone, and connects it whether it
created one or not.

* `transportProtocol_ofString` — the protocol is that of the last endpoint with a known scheme;
* `never_null_iff` — a null pointer is never dereferenced just when that scheme is `unix`.
-/
import OtelContrib.Geneva.Exporter

open BoundedWriter

namespace Geneva

/-! ### The construction -/

/-- What `data_transport_` points to. -/
inductive DataTransport
  | unixDomainSocket (connectionString : List UInt8)
  deriving DecidableEq

/-- The transport that the constructor creates, if any. -/
def createTransport (p : ConnectionStringParser) : Option DataTransport :=
  if p.isValid then
    if p.transportProtocol = .kUNIX then some (.unixDomainSocket p.connectionString) else none
  else none

theorem createTransport_isSome_iff {p : ConnectionStringParser} :
    (createTransport p).isSome = true ↔ p.transportProtocol = .kUNIX := by
  rw [createTransport, ConnectionStringParser.isValid]
  cases p.transportProtocol <;> simp

/-- The exporter that is there after the constructor; there is none when the constructor connects
a transport through a null pointer. -/
def Exporter.construct (options : ExporterOptions) (buffer : Memory) : Option Exporter :=
  let p := ConnectionStringParser.ofString options.connectionString
  if h : (createTransport p).isSome = true then
    some ⟨options, p, false, buffer, rfl, createTransport_isSome_iff.mp h⟩
  else none

/-- Calls of `Export`, with the messages that are handed to `Send`. -/
def Exporter.exports (casts : UndefinedCasts) (e : Exporter) (batches : List ResourceMetrics) :
    List Message :=
  (exportLoop (fun e data => (e.export casts data).2) e batches).2

/-- The pointer `data_transport_` each time that it is dereferenced. -/
def pointerUses (casts : UndefinedCasts) (options : ExporterOptions) (buffer : Memory)
    (batches : List ResourceMetrics) : List (Option DataTransport) :=
  let data_transport_ := createTransport (.ofString options.connectionString)
  -- `data_transport_->Connect()` stands behind the branches that create one
  data_transport_ :: match Exporter.construct options buffer with
    | none => []
    | some e => (e.exports casts batches).map fun _ => data_transport_

/-! ### The protocol of a connection string -/

/-- The fields that the parser's loop reads, each with its key. -/
def fieldsFrom (s : List UInt8) : ℕ → ℕ → List (List UInt8 × List UInt8)
  | 0, _ => []
  | fuel + 1, keyPos =>
    match find s kEqual keyPos with
    | none => []
    | some keyEnd =>
      match findFirstNotOf s kEqual keyEnd with
      | none => []
      | some valPos =>
        let valEnd := find s kSemicolon valPos
        (substr s keyPos (some keyEnd), substr s valPos valEnd) ::
          match valEnd with
          | none => []
          | some e => fieldsFrom s fuel (e + 1)

def fieldsOf (s : List UInt8) : List (List UInt8 × List UInt8) := fieldsFrom s (s.length + 1) 0

/-- The protocol of a scheme that is known. -/
def knownScheme (scheme : List UInt8) : Option TransportProtocol :=
  if scheme = ascii "unix" then some .kUNIX
  else if scheme = ascii "tcp" then some .kTCP
  else if scheme = ascii "udp" then some .kUDP
  else none

/-- The protocol of a field, if it is an endpoint with a scheme that is known. -/
def endpointProtocol (field : List UInt8 × List UInt8) : Option TransportProtocol :=
  if field.1 = kEndpoint then
    (findString (ascii "://") field.2).bind fun pos => knownScheme (field.2.take pos)
  else none

section Protocol

variable {s : List UInt8} {p : ConnectionStringParser}

theorem parseFields_eq_foldl (fuel keyPos : ℕ) :
    ConnectionStringParser.parseFields s fuel keyPos p =
      (fieldsFrom s fuel keyPos).foldl (fun p f => p.setField f.1 f.2) p := by
  induction fuel generalizing keyPos p with
  | zero => rfl
  | succ fuel ih =>
    rw [ConnectionStringParser.parseFields, fieldsFrom]
    cases find s kEqual keyPos with
    | none => rfl
    | some keyEnd =>
      cases hval : findFirstNotOf s kEqual keyEnd with
      | none => simp only [hval, List.foldl_nil]
      | some valPos =>
        cases hend : find s kSemicolon valPos with
        | none => simp only [hval, hend, List.foldl_cons, List.foldl_nil]
        | some e => simp only [hval, hend, List.foldl_cons, ih]

theorem transportProtocol_setField (field : List UInt8 × List UInt8) :
    (p.setField field.1 field.2).transportProtocol =
      (endpointProtocol field).getD p.transportProtocol := by
  obtain ⟨key, value⟩ := field
  rw [ConnectionStringParser.setField, endpointProtocol]
  by_cases hnamespace : key = kNamespace
  · subst hnamespace
    rfl
  · by_cases haccount : key = kAccount
    · subst haccount
      rfl
    · by_cases hendpoint : key = kEndpoint
      · subst hendpoint
        rw [if_neg hnamespace, if_neg haccount, if_pos rfl, if_pos rfl,
          ConnectionStringParser.setEndpoint]
        cases findString (ascii "://") value with
        | none => rfl
        | some pos =>
          simp only [knownScheme, Option.bind_some]
          split_ifs <;> simp_all [ascii]
      · rw [if_neg hnamespace, if_neg haccount, if_neg hendpoint, if_neg hendpoint]
        rfl

/-- The last endpoint with a scheme that is known decides. -/
theorem transportProtocol_foldl (fields : List (List UInt8 × List UInt8)) :
    (fields.foldl (fun p f => p.setField f.1 f.2) p).transportProtocol =
      (fields.filterMap endpointProtocol).getLast?.getD p.transportProtocol := by
  induction fields generalizing p with
  | nil => rfl
  | cons f fields ih =>
    rw [List.foldl_cons, ih, transportProtocol_setField]
    cases hf : endpointProtocol f with
    | none => rw [List.filterMap_cons_none hf, Option.getD_none]
    | some protocol =>
      rw [List.filterMap_cons_some hf, List.getLast?_cons, Option.getD_some, Option.getD_some]

theorem transportProtocol_ofString :
    (ConnectionStringParser.ofString s).transportProtocol =
      ((fieldsOf s).filterMap endpointProtocol).getLast?.getD .kUnknown := by
  rw [ConnectionStringParser.ofString, parseFields_eq_foldl, transportProtocol_foldl]
  rfl

theorem transportProtocol_eq_kUNIX_iff :
    (ConnectionStringParser.ofString s).transportProtocol = .kUNIX ↔
      ((fieldsOf s).filterMap endpointProtocol).getLast? = some .kUNIX := by
  rw [transportProtocol_ofString]
  cases ((fieldsOf s).filterMap endpointProtocol).getLast? with
  | none => decide
  | some protocol => rw [Option.getD_some, Option.some_inj]

end Protocol

/-! ### Null pointers -/

/-- No null pointer is dereferenced, whatever is exported, when the last endpoint with a known
scheme is that of a Unix-domain socket. -/
theorem never_null_iff (options : ExporterOptions) :
    (∀ casts buffer batches, none ∉ pointerUses casts options buffer batches) ↔
      ((fieldsOf options.connectionString).filterMap endpointProtocol).getLast? = some .kUNIX := by
  rw [← transportProtocol_eq_kUNIX_iff, ← createTransport_isSome_iff]
  constructor
  · intro h
    have hconnect : createTransport (.ofString options.connectionString) ≠ none := fun hnone =>
      h ⟨fun _ => 0, fun _ => 0⟩ ⟨fun _ => 0, []⟩ [] (by
        rw [pointerUses, hnone]
        exact List.mem_cons_self)
    exact Option.isSome_iff_ne_none.mpr hconnect
  · intro hsome casts buffer batches hmem
    have hpointer : createTransport (.ofString options.connectionString) ≠ none :=
      Option.isSome_iff_ne_none.mp hsome
    rw [pointerUses] at hmem
    cases List.mem_cons.mp hmem with
    | inl hconnect => exact hpointer hconnect.symm
    | inr hsend =>
      cases he : Exporter.construct options buffer with
      | none =>
        rw [he] at hsend
        exact List.not_mem_nil hsend
      | some e =>
        rw [he] at hsend
        obtain ⟨_, _, hnone⟩ := List.mem_map.mp hsend
        exact hpointer hnone

/-- A TCP endpoint is parsed, and its transport connected without having been created. -/
theorem tcp_is_null :
    (ConnectionStringParser.ofString (ascii "Endpoint=tcp://127.0.0.1:5000;Account=a")).isValid
        = true ∧
      ∀ casts buffer dimensions batches, none ∈ pointerUses casts
        ⟨ascii "Endpoint=tcp://127.0.0.1:5000;Account=a", dimensions⟩ buffer batches := by
  refine ⟨by decide +kernel, fun casts buffer dimensions batches => ?_⟩
  have hnone : createTransport
      (.ofString (ascii "Endpoint=tcp://127.0.0.1:5000;Account=a")) = none := by decide +kernel
  rw [pointerUses, hnone]
  exact List.mem_cons_self

end Geneva

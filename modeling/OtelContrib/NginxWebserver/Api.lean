/-
The payloads that the webserver module for nginx hands to the agent
(`opentelemetry_ngx_api.cpp`).

They are copied from those that the module has filled.  Texts are C strings; a null one that is
copied is undefined, as is a read outside of an array, and `none` here.

* `getline_intercalate` — the names of a directive are those between its commas;
* `populated` — what the agent is given of a request;
* `populatePayload_isSome_iff` — a payload that is filled can be copied unless its operation name
  is null;
* `converted` — what the agent is given of a response.
-/
import OtelContrib.Lib.LastSome
import OtelContrib.NginxWebserver.ResponsePayload
import OtelContrib.Webserver.RequestProcessingEngine
import Mathlib.Data.Finset.Insert

open Allocation LastSome
open Otel.Common (cString)
open Webserver (RequestPayload ResponsePayload)

namespace NginxWebserver

/-! ### The headers to capture -/

/-- `requestHeadersToCapture` and `responseHeadersToCapture`. -/
structure CapturedHeaders where
  requestHeadersToCapture : Finset Bytes
  responseHeadersToCapture : Finset Bytes

/-- A comma. -/
def apiDelimiter : UInt8 := 44

/-- The tokens that `getline` gives one after the other, when some of the first is read.  At the
end of the text there is only a token if something is left. -/
def getline (token : Bytes) : Bytes → List Bytes
  | [] => if token = [] then [] else [token]
  | b :: text => if b = apiDelimiter then token :: getline [] text else getline (token ++ [b]) text

/-- `setRequestResponseHeaders`, which only adds names. -/
def setRequestResponseHeaders (c : CapturedHeaders) (request response : Bytes) :
    CapturedHeaders where
  requestHeadersToCapture :=
    (getline [] (cString request)).foldl (fun names token => insert token names)
    c.requestHeadersToCapture
  responseHeadersToCapture :=
    (getline [] (cString response)).foldl (fun names token => insert token names)
    c.responseHeadersToCapture

theorem getline_append {token name : Bytes} (h : apiDelimiter ∉ name) (text : Bytes) :
    getline token (name ++ text) = getline (token ++ name) text := by
  induction name generalizing token with
  | nil => rw [List.nil_append, List.append_nil]
  | cons b name ih =>
    rw [List.mem_cons, not_or] at h
    rw [List.cons_append, getline, if_neg (Ne.symm h.1), ih h.2, List.append_assoc,
      List.singleton_append]

/-- Names without commas, and the last one not empty, are read as they are. -/
theorem getline_intercalate {names : List Bytes} (h : ∀ name ∈ names, apiDelimiter ∉ name)
    (hlast : names.getLast? ≠ some []) :
    getline [] ([apiDelimiter].intercalate names) = names := by
  induction names with
  | nil => rfl
  | cons name names ih =>
    have hname := @getline_append [] name (h name List.mem_cons_self)
    cases names with
    | nil =>
      have hne : name ≠ [] := fun hnil => hlast (by rw [hnil]; rfl)
      rw [List.intercalate_singleton, ← List.append_nil name, hname, List.nil_append, getline,
        if_neg hne, List.append_nil]
    | cons next names =>
      have hrest := ih (fun other hother => h other (List.mem_cons_of_mem _ hother))
        (by rwa [List.getLast?_cons_cons] at hlast)
      rw [List.intercalate_cons_cons, List.append_assoc, hname, List.nil_append,
        List.singleton_append, getline, if_pos rfl, hrest]

theorem mem_foldl_insert (tokens : List Bytes) (names : Finset Bytes) (name : Bytes) :
    name ∈ tokens.foldl (fun names token => insert token names) names ↔
      name ∈ tokens ∨ name ∈ names := by
  induction tokens generalizing names with
  | nil => simp
  | cons token tokens ih =>
    rw [List.foldl_cons, ih, Finset.mem_insert, List.mem_cons]
    tauto

theorem mem_requestHeadersToCapture (c : CapturedHeaders) (request response name : Bytes) :
    name ∈ (setRequestResponseHeaders c request response).requestHeadersToCapture ↔
      name ∈ getline [] (cString request) ∨ name ∈ c.requestHeadersToCapture :=
  mem_foldl_insert _ _ name

theorem mem_responseHeadersToCapture (c : CapturedHeaders) (request response name : Bytes) :
    name ∈ (setRequestResponseHeaders c request response).responseHeadersToCapture ↔
      name ∈ getline [] (cString response) ∨ name ∈ c.responseHeadersToCapture :=
  mem_foldl_insert _ _ name

/-! ### Payloads -/

/-- `propagationsHeaderParse`. -/
def propagationsHeaderParse : List (Bytes × Bytes) :=
  [(ascii "x-b3-traceid", ascii "X-B3-TraceId"), (ascii "x-b3-spanid", ascii "X-B3-SpanId"),
    (ascii "x-b3-sampled", ascii "X-B3-Sampled")]

/-- The name under which a propagation header is passed on. -/
def propagationName (name : Bytes) : Bytes :=
  (propagationsHeaderParse.lookup (name.map tolower)).getD name

/-- A pass of a loop that copies names and values, the names renamed. -/
def copyHeader (rename : Bytes → Bytes) (headers : OrderedMap Bytes Bytes) (h : HttpHeader) :
    Option (OrderedMap Bytes Bytes) := do
  let name ← h.name
  let value ← h.value
  some (headers.insert (rename (cString name)) (cString value))

/-- For the propagation headers. -/
def setHttpHeader := copyHeader propagationName

/-- For the attributes. -/
def setOtelAttribute := copyHeader id

/-- A pass of a loop over headers of which some are captured. -/
def captureHeader (names : Finset Bytes) (headers : OrderedMap Bytes Bytes) (h : HttpHeader) :
    Option (OrderedMap Bytes Bytes) := do
  let name ← h.name
  if cString name ∈ names then
    let value ← h.value
    some (headers.insert (cString name) (cString value))
  else some headers

/-- `populatePayload`, less the parameters, which nothing reads. -/
def populatePayload (requestHeadersToCapture : Finset Bytes) (req_payload : NgxRequestPayload) :
    Option RequestPayload := do
  let operation_name ← req_payload.operation_name
  let propagation ← readAt req_payload.propagation_headers 0 req_payload.propagation_count
  let httpHeaders ← propagation.foldlM setHttpHeader ∅
  let request ← readAt req_payload.request_headers 0 req_payload.request_headers_count
  let requestHeaders ← request.foldlM (captureHeader requestHeadersToCapture) ∅
  some {
    httpHeaders, requestHeaders
    uri := cString req_payload.uri
    scheme := cString req_payload.scheme
    flavor := cString req_payload.flavor
    target := cString req_payload.uri
    host := cString req_payload.hostname
    serverName := cString req_payload.server_name
    requestProtocol := cString req_payload.protocol
    httpRequestMethod := cString req_payload.request_method
    clientIp := cString req_payload.client_ip
    userAgent := cString req_payload.user_agent
    peerPort := Int64.ofNat req_payload.peer_port
    operationName := cString operation_name
    port := 80 }

/-- The payload that `endRequest` makes of the module's and its status. -/
def responsePayload (responseHeadersToCapture : Finset Bytes) (payload : NgxResponsePayload)
    (status_code : UInt32) : Option ResponsePayload := do
  let response ← readAt payload.response_headers 0 payload.response_headers_count
  let responseHeaders ← response.foldlM (captureHeader responseHeadersToCapture) ∅
  let attributes ← readAt payload.otel_attributes 0 payload.otel_attributes_count
  let otelAttributes ← attributes.foldlM setOtelAttribute ∅
  some { responseHeaders, otelAttributes, statusCode := status_code }

/-! ### What is copied -/

/-- The value of a header of the client, or of a response, if it has the name. -/
def headerNamed (name : Bytes) (h : NgxTableElt) : Option Bytes :=
  if cString h.key = name then some (cString h.valueData) else none

/-- The value of the last header with the name. -/
def lastHeader (name : Bytes) (hs : List NgxTableElt) : Option Bytes :=
  lastSome (headerNamed name) hs

section

variable {names : Finset Bytes} {hs : List NgxTableElt} {m : OrderedMap Bytes Bytes}

/-- A loop over a map that is empty at first. -/
theorem find?_of_foldlM {α : Type} {step : OrderedMap Bytes Bytes → α →
    Option (OrderedMap Bytes Bytes)}
    {f : α → Option Bytes} {l : List α} {key : Bytes}
    (hstep : ∀ m a m', step m a = some m' → m'.find? key = (f a).or (m.find? key))
    (h : l.foldlM step ∅ = some m) : m.find? key = lastSome f l :=
  @foldlM_or _ _ _ _ _ _ _ _ (fun m => m.find? key) hstep h rfl

theorem capture_isSome (names : Finset Bytes) (hs : List NgxTableElt) (m : OrderedMap Bytes Bytes) :
    ∃ m', (hs.map NgxTableElt.httpHeader).foldlM (captureHeader names) m = some m' := by
  induction hs generalizing m with
  | nil => exact ⟨m, rfl⟩
  | cons h hs ih =>
    rw [List.map_cons, List.foldlM_cons]
    show ∃ m', (captureHeader names m ⟨some h.key, some h.valueData⟩).bind _ = some m'
    by_cases hmem : cString h.key ∈ names
    · obtain ⟨m', hm'⟩ := ih (m.insert (cString h.key) (cString h.valueData))
      exact ⟨m', by simpa [captureHeader, hmem] using hm'⟩
    · obtain ⟨m', hm'⟩ := ih m
      exact ⟨m', by simpa [captureHeader, hmem] using hm'⟩

/-- Of the headers with a name that is captured the last one counts. -/
theorem find?_capture (h : (hs.map NgxTableElt.httpHeader).foldlM (captureHeader names) ∅ = some m)
    (name : Bytes) : m.find? name = if name ∈ names then lastHeader name hs else none := by
  rw [List.foldlM_map] at h
  have hlast : m.find? name =
      lastSome (fun h => if name ∈ names then headerNamed name h else none) hs := by
    refine find?_of_foldlM (fun m h m' hm' => ?_) h
    dsimp only [captureHeader, NgxTableElt.httpHeader, Option.bind_eq_bind, Option.bind_some] at hm'
    dsimp only [headerNamed]
    by_cases hmem : cString h.key ∈ names
    · rw [if_pos hmem] at hm'
      obtain rfl := Option.some.inj hm'
      by_cases hkey : cString h.key = name
      · rw [← hkey, if_pos hmem, if_pos rfl, OrderedMap.find?_insert_self, Option.some_or]
      · rw [OrderedMap.find?_insert_of_ne _ hkey, if_neg hkey, ite_self, Option.none_or]
    · rw [if_neg hmem] at hm'
      obtain rfl := Option.some.inj hm'
      by_cases hname : name ∈ names
      · have hkey : cString h.key ≠ name := fun heq => hmem (heq ▸ hname)
        rw [if_pos hname, if_neg hkey, Option.none_or]
      · rw [if_neg hname, Option.none_or]
  rw [hlast]
  by_cases hname : name ∈ names
  · simp only [if_pos hname]
    rfl
  · simp only [if_neg hname]
    exact lastSome_eq_none_iff.mpr fun _ _ => rfl

/-- What is under a key after one header was copied. -/
def copied (rename : Bytes → Bytes) (key : Bytes) (h : HttpHeader) : Option Bytes :=
  if h.name.map (fun name => rename (cString name)) = some key then h.value.map cString else none

theorem copied_mk (rename : Bytes → Bytes) (key name value : Bytes) :
    copied rename key ⟨some name, some value⟩ =
      if rename (cString name) = key then some (cString value) else none := by
  simp [copied]

theorem copyHeader_eq_some {rename : Bytes → Bytes} {h : HttpHeader} {m m' : OrderedMap Bytes Bytes}
    (hcopy : copyHeader rename m h = some m') :
    ∃ name value, h = ⟨some name, some value⟩ ∧
      m' = m.insert (rename (cString name)) (cString value) := by
  obtain ⟨name, hname, hcopy⟩ := Option.bind_eq_some_iff.mp hcopy
  obtain ⟨value, hvalue, hcopy⟩ := Option.bind_eq_some_iff.mp hcopy
  obtain ⟨name', value'⟩ := h
  cases hname
  cases hvalue
  exact ⟨name, value, rfl, (Option.some.inj hcopy).symm⟩

/-- Headers can be copied that have a name and a value. -/
theorem copy_isSome_iff {rename : Bytes → Bytes} {array : List HttpHeader}
    (m : OrderedMap Bytes Bytes) :
    (∃ m', array.foldlM (copyHeader rename) m = some m') ↔ ∀ h ∈ array, h.Complete := by
  induction array generalizing m with
  | nil => exact iff_of_true ⟨m, rfl⟩ nofun
  | cons h array ih =>
    rw [List.foldlM_cons, List.forall_mem_cons]
    constructor
    · rintro ⟨m', hm'⟩
      obtain ⟨between, hfirst, hrest⟩ := Option.bind_eq_some_iff.mp hm'
      obtain ⟨name, value, rfl, -⟩ := copyHeader_eq_some hfirst
      exact ⟨⟨name, value, rfl⟩, (ih between).mp ⟨m', hrest⟩⟩
    · rintro ⟨⟨name, value, rfl⟩, hrest⟩
      exact (ih _).mpr hrest

theorem find?_copy {rename : Bytes → Bytes} {array : List HttpHeader}
    (h : array.foldlM (copyHeader rename) ∅ = some m) (key : Bytes) :
    m.find? key = lastSome (copied rename key) array := by
  refine find?_of_foldlM (fun m h m' hm' => ?_) h
  obtain ⟨name, value, rfl, rfl⟩ := copyHeader_eq_some hm'
  rw [copied_mk]
  by_cases hkey : rename (cString name) = key
  · rw [if_pos hkey, hkey, OrderedMap.find?_insert_self, Option.some_or]
  · rw [if_neg hkey, OrderedMap.find?_insert_of_ne _ hkey, Option.none_or]

/-! ### Requests -/

/-- The names of the table are told apart by what they are passed on as. -/
theorem propagationName_inj : ∀ name ∈ httpHeaders, ∀ name' ∈ httpHeaders,
    propagationName name = propagationName name' → name = name' := by decide

theorem cString_httpHeaders : ∀ name ∈ httpHeaders, cString name = name := by decide

/-- What is passed on of a header of the client. -/
theorem copied_propagationEntry {name : Bytes} (hname : name ∈ httpHeaders) (h : NgxTableElt) :
    (propagationEntry strcmp h).bind (copied propagationName (propagationName name)) =
      headerNamed name h := by
  cases hentry : propagationEntry strcmp h with
  | none =>
    rw [headerNamed, if_neg, Option.bind_none]
    intro hkey
    rw [propagationEntry_strcmp hname hkey] at hentry
    cases hentry
  | some entry =>
    obtain ⟨name', hname', hsame, rfl⟩ := propagationEntry_some hentry
    have hkey : cString h.key = name' := of_decide_eq_true hsame
    rw [Option.bind_some, copied_mk, headerNamed, cString_httpHeaders name' hname']
    by_cases heq : name' = name
    · rw [if_pos (congrArg _ heq), if_pos (hkey.trans heq)]
    · rw [if_neg fun h => heq (propagationName_inj name' hname' name hname h),
        if_neg fun h => heq (hkey.symm.trans h)]

/-- What the agent is given of a request: of the headers with the spelling of a name that is
captured or propagates the last one counts, of those that are captured only among the headers of
the first part. -/
structure Populated (names : Finset Bytes) (r : PayloadRequest) (payload : RequestPayload) :
    Prop where
  requestHeaders : ∀ name, payload.requestHeaders.find? name =
    if name ∈ names then lastHeader name r.headers.first else none
  httpHeaders : ∀ name ∈ httpHeaders, payload.httpHeaders.find? (propagationName name) =
    if r.trusted then lastHeader name r.headers.toList else none
  noOther : ∀ key, (∀ name ∈ NginxWebserver.httpHeaders, propagationName name ≠ key) →
    payload.httpHeaders.find? key = none
  operationName : (r.locConf.str .operationName).map cString = some payload.operationName
  uri : payload.uri = r.uri.viewed
  target : payload.target = r.uri.viewed
  requestProtocol : payload.requestProtocol = r.http_protocol.viewed
  flavor : payload.flavor = r.http_protocol.viewed
  httpRequestMethod : payload.httpRequestMethod = r.method_name.viewed
  serverName : payload.serverName = cString r.server_name
  host : payload.host = r.hostname.viewed
  scheme : payload.scheme = if r.ssl then ascii "https" else ascii "http"
  clientIp : payload.clientIp = r.addr_text.viewed
  userAgent : r.user_agent.map cString = some payload.userAgent
  peerPort : payload.peerPort = Int64.ofNat (remotePort r.sockaddr)
  port : payload.port = 80

theorem cString_viewed (s : NgxText) : cString s.viewed = s.viewed :=
  List.takeWhile_eq_self_iff.mpr fun b hb => decide_eq_true (s.noNul b hb)

theorem populated {r : PayloadRequest} {p : NgxRequestPayload} {payload : RequestPayload}
    (hfill : fillRequestPayload r = some p) (h : populatePayload names p = some payload) :
    Populated names r payload := by
  simp only [fillRequestPayload, NgxText.copy_eq, Option.bind_eq_bind, Option.bind_some,
    Option.bind_eq_some_iff] at hfill
  obtain ⟨user_agent, huser, user_agent', hcopy, ⟨count, array⟩, hrequest, ⟨count', array'⟩,
    hpropagation, hp⟩ := hfill
  cases hp
  simp only [populatePayload, Option.bind_eq_bind, Option.bind_eq_some_iff] at h
  obtain ⟨operation_name, hoperation, propagation, hread, carrier, hcarrier, request, hread',
    captured, hcaptured, h⟩ := h
  obtain ⟨-, rfl⟩ := readAt_zero_iff.mp hread
  obtain ⟨-, rfl⟩ := readAt_zero_iff.mp hread'
  -- the arrays, up to the counts
  obtain ⟨headers, hfilled, htake⟩ := fill_httpHeaders r.headers.first
  cases hrequest.symm.trans hfilled
  obtain ⟨-, -, hpropagated⟩ := fill_eq_some hpropagation
  rw [htake] at hcaptured
  rw [hpropagated] at hcarrier
  have hagent : (cString user_agent).length < user_agent.length + 1 :=
    Nat.lt_succ_of_le (List.takeWhile_prefix _).length_le
  rw [copyText_eq (cString_noNul user_agent) hagent (Nat.lt_succ_self _),
    List.take_of_length_le (Nat.le_of_lt_succ hagent)] at hcopy
  cases hcopy
  cases h
  constructor
  · exact find?_capture hcaptured
  · intro name hname
    refine (find?_copy hcarrier _).trans ?_
    rw [lastSome_filterMap]
    by_cases htrusted : r.trusted = true
    · simp only [if_pos htrusted]
      exact congrArg (fun f => lastSome f r.headers.toList) (funext (copied_propagationEntry hname))
    · simp only [if_neg htrusted]
      exact lastSome_eq_none_iff.mpr fun _ _ => rfl
  · intro key hkey
    refine (find?_copy hcarrier _).trans (lastSome_eq_none_iff.mpr fun entry hentry => ?_)
    obtain ⟨h, -, hentry⟩ := List.mem_filterMap.mp hentry
    split at hentry
    next =>
      obtain ⟨name, hname, -, rfl⟩ := propagationEntry_some hentry
      rw [copied_mk, cString_httpHeaders name hname]
      exact if_neg (hkey name hname)
    next => cases hentry
  · exact congrArg (Option.map cString) hoperation
  · exact cString_viewed r.uri
  · exact cString_viewed r.uri
  · exact cString_viewed r.http_protocol
  · exact cString_viewed r.http_protocol
  · exact cString_viewed r.method_name
  · rfl
  · exact cString_viewed r.hostname
  · dsimp only
    split
    next => rfl
    next => rfl
  · exact cString_viewed r.addr_text
  · rw [huser, Option.map_some]
    exact congrArg some (cString_cString user_agent).symm
  · rfl
  · rfl

/-- A payload that is filled can be copied, unless its operation name is null. -/
theorem populatePayload_isSome_iff (names : Finset Bytes) {r : PayloadRequest}
    {p : NgxRequestPayload}
    (hfill : fillRequestPayload r = some p) :
    (∃ payload, populatePayload names p = some payload) ↔
      (r.locConf.str .operationName).isSome = true := by
  obtain ⟨-, hrequest, hpropagation⟩ := fillRequestPayload_some hfill
  have hname : p.operation_name = r.locConf.str .operationName := by
    simp only [fillRequestPayload, Option.bind_eq_bind, Option.bind_eq_some_iff] at hfill
    obtain ⟨_, -, _, -, _, -, _, -, _, -, _, -, _, -, _, -, _, -, hp⟩ := hfill
    cases hp
    rfl
  constructor
  · rintro ⟨payload, h⟩
    obtain ⟨operation_name, hoperation, -⟩ := Option.bind_eq_some_iff.mp h
    rw [← hname, hoperation]
    rfl
  · intro hoperation
    obtain ⟨operation_name, hoperation⟩ := Option.isSome_iff_exists.mp hoperation
    obtain ⟨headers, hfilled, htake⟩ := fill_httpHeaders r.headers.first
    rw [fillRequestHeaders, hfilled] at hrequest
    obtain ⟨hcount, rfl⟩ := Prod.mk.inj (Option.some.inj hrequest)
    rw [hcount] at htake
    obtain ⟨hcount', -, htake'⟩ := fill_eq_some hpropagation
    have hread : readAt p.request_headers 0 p.request_headers_count =
        some (r.headers.first.map NgxTableElt.httpHeader) := by
      refine readAt_zero_iff.mpr ⟨?_, htake.symm⟩
      have hlength := congrArg List.length htake
      rw [List.length_take, List.length_map, hcount] at hlength
      omega
    have hread' : readAt p.propagation_headers 0 p.propagation_count =
        some (p.propagation_headers.take p.propagation_count) := by
      refine readAt_zero_iff.mpr ⟨?_, rfl⟩
      have hlength := congrArg List.length htake'
      rw [List.length_take, ← hcount'] at hlength
      omega
    -- all that were chosen have a name and a value
    have hcomplete : ∀ h ∈ p.propagation_headers.take p.propagation_count, h.Complete := by
      rw [htake']
      intro entry hentry
      obtain ⟨h, -, hentry⟩ := List.mem_filterMap.mp hentry
      split at hentry
      next =>
        obtain ⟨name, -, -, rfl⟩ := propagationEntry_some hentry
        exact ⟨name, h.valueData, rfl⟩
      next => cases hentry
    obtain ⟨carrier, hcarrier⟩ : ∃ carrier, (p.propagation_headers.take p.propagation_count).foldlM
        setHttpHeader ∅ = some carrier := (copy_isSome_iff ∅).mpr hcomplete
    obtain ⟨captured, hcaptured⟩ := capture_isSome names r.headers.first ∅
    rw [← hname] at hoperation
    simp only [populatePayload, hoperation, hread, hread', hcarrier, hcaptured, Option.bind_eq_bind,
      Option.bind_some]
    exact ⟨_, rfl⟩

/-! ### Responses -/

/-- What the agent is given of a response: the last of the headers of the first part with a name
that is captured, and the attributes, for a list of the documented form its pairs. -/
structure Converted (names : Finset Bytes) (ngxHttpGetVariable : Bytes → Option Bytes)
    (r : PayloadResponse)
    (payload : ResponsePayload) : Prop where
  responseHeaders : ∀ name, payload.responseHeaders.find? name =
    if name ∈ names then lastHeader name r.headers_out.first else none
  otelAttributes : ∀ pairs, r.locConf.attributes.getD [] = documentedForm pairs →
    ∀ key, payload.otelAttributes.find? key = lastSome (fun pair =>
      if attributeData ngxHttpGetVariable pair.1 = key then
        some (attributeData ngxHttpGetVariable pair.2)
      else none) pairs

theorem documentedForm_eq_nil {pairs : List (Bytes × Bytes)} (h : documentedForm pairs = []) :
    pairs = [] := by
  by_contra hne
  exact documentedForm_ne_nil hne h

theorem cString_attributeData (ngxHttpGetVariable : Bytes → Option Bytes) (token : Bytes) :
    cString (attributeData ngxHttpGetVariable token) = attributeData ngxHttpGetVariable token := by
  rw [attributeData]
  split
  next => exact cString_cString _
  next => exact cString_cString _

/-- Attributes that can be copied, of a list of the documented form, are its pairs. -/
theorem take_otelAttributes {ngxHttpGetVariable : Bytes → Option Bytes}
    {attributes : Option (List Bytes)}
    {count : ℕ} {slots : List HttpHeader}
    (hattributes : NginxWebserver.otelAttributes ngxHttpGetVariable attributes =
      some (count, slots))
    (hle : count ≤ slots.length) (hcomplete : ∀ h ∈ slots.take count, h.Complete)
    {pairs : List (Bytes × Bytes)} (hpairs : attributes.getD [] = documentedForm pairs) :
    slots.take count = pairs.map (attributeOf ngxHttpGetVariable) := by
  match attributes with
  | none | some [] =>
    cases hattributes
    rw [documentedForm_eq_nil hpairs.symm]
    rfl
  | some (token :: tokens) =>
    have hslots : ∀ i < count, ∃ name value, slots[i]? = some ⟨some name, some value⟩ := by
      intro i hi
      have hslot : slots[i]? = some slots[i] := List.getElem?_eq_getElem (Nat.lt_of_lt_of_le hi hle)
      have hmem : slots[i] ∈ slots.take count :=
        List.mem_iff_getElem?.mpr ⟨i, (List.getElem?_take_of_lt hi).trans hslot⟩
      obtain ⟨name, value, heq⟩ := hcomplete _ hmem
      exact ⟨name, value, heq ▸ hslot⟩
    have hgroups := fillAttributes_complete_iff.mp ⟨count, slots, hattributes, hslots⟩
    have hfits := attributeGroups_fit hgroups
    have hne : pairs ≠ [] := by
      rintro rfl
      cases hpairs
    have htokens : token :: tokens = documentedForm pairs := hpairs
    unfold NginxWebserver.otelAttributes at hattributes
    dsimp only at hattributes
    rw [htokens] at hattributes hgroups hfits
    exact (fillAttributes_documentedForm hne hgroups hattributes hfits).1

theorem converted {ngxHttpGetVariable : Bytes → Option Bytes} {r : PayloadResponse}
    (hpool : r.pool = true)
    {p : NgxResponsePayload} (hfill : fillResponsePayload ngxHttpGetVariable r = some p)
    {status_code : UInt32} {payload : ResponsePayload}
    (h : responsePayload names p status_code = some payload) :
    Converted names ngxHttpGetVariable r payload := by
  rw [fillResponsePayload, if_neg (by simp [hpool])] at hfill
  simp only [Option.bind_eq_bind, Option.bind_eq_some_iff] at hfill
  obtain ⟨⟨count, slots⟩, hattributes, ⟨count', headers⟩, hheaders, hp⟩ := hfill
  cases hp
  simp only [responsePayload, Option.bind_eq_bind, Option.bind_eq_some_iff] at h
  obtain ⟨response, hread, captured, hcaptured, attributes, hread', copies, hcopies, h⟩ := h
  obtain ⟨-, rfl⟩ := readAt_zero_iff.mp hread
  obtain ⟨hle, rfl⟩ := readAt_zero_iff.mp hread'
  cases h
  obtain ⟨headers', hfilled, htake⟩ := fill_httpHeaders r.headers_out.first
  cases hheaders.symm.trans hfilled
  rw [htake] at hcaptured
  refine ⟨find?_capture hcaptured, fun pairs hpairs key => (find?_copy hcopies key).trans ?_⟩
  have htaken := take_otelAttributes hattributes hle
    ((copy_isSome_iff ∅).mp ⟨copies, hcopies⟩) hpairs
  rw [htaken, lastSome_map]
  refine congrArg (fun f => lastSome f pairs) (funext fun pair => ?_)
  rw [attributeOf, copied_mk, id, cString_attributeData, cString_attributeData]

end

end NginxWebserver

/-
What the webserver module for nginx collects of a request (`fillRequestPayload`).

Two arrays are allocated for as many headers as the first part of the list has.  One is filled
from that part, the other from all of them.

* `copyText_eq` — a text is copied up to its length;
* `request_collected_iff` — the payload is filled, with all headers of the request, exactly
  when there is a `User-Agent`, the headers are in one part, and the propagation headers are
  spelled as in the table.
-/
import OtelContrib.Lib.Allocation
import OtelContrib.NginxWebserver.Headers
import OtelContrib.NginxWebserver.LocConf
import Mathlib.Data.List.Infix

open Allocation
open Otel.Common (cString StringView)

namespace NginxWebserver

/-! ### The request -/

/-- An `ngx_str_t` of a request, which nginx lets no NUL into. -/
structure NgxText extends StringView where
  noNul : ∀ b ∈ viewed, b ≠ 0

/-- What is read of a `struct sockaddr`, with the port in host order. -/
structure Sockaddr where
  sa_family : UInt16
  port : UInt16

/-- What the function reads of a request, and of the host.  The value of the `User-Agent` is
`none` where the request has none. -/
structure PayloadRequest where
  uri : NgxText
  server_name : Bytes
  ssl : Bool
  http_protocol : NgxText
  method_name : NgxText
  user_agent : Option Bytes
  sockaddr : Sockaddr
  hostname : NgxText
  args : NgxText
  addr_text : NgxText
  headers : PartList NgxTableElt
  locConf : LocConf

/-! ### The payload -/

/-- `http_headers`: both pointers are null in a new allocation. -/
structure HttpHeader where
  name : Option Bytes
  value : Option Bytes
  deriving DecidableEq

/-- `request_payload`. -/
structure NgxRequestPayload where
  uri : Bytes
  server_name : Bytes
  scheme : Bytes
  flavor : Bytes
  hostname : Bytes
  protocol : Bytes
  http_get_param : Bytes
  http_post_param : Bytes
  request_method : Bytes
  client_ip : Bytes
  user_agent : Bytes
  operation_name : Option Bytes
  propagation_headers : List HttpHeader
  request_headers : List HttpHeader
  propagation_count : ℕ
  request_headers_count : ℕ
  peer_port : ℕ

/-- The names of propagation headers. -/
def httpHeaders : List Bytes :=
  [ascii "x-b3-traceid", ascii "x-b3-spanid", ascii "x-b3-sampled", ascii "traceparent",
    ascii "tracestate"]

/-- `ngx_pcalloc(capacity)`, `strcpy`, and a NUL at `len`. -/
def copyText (capacity len : ℕ) (text : Bytes) : Option Bytes := do
  let temp ← writeAt (List.replicate capacity 0) 0 (text ++ [0])
  let temp ← writeAt temp len [0]
  some (cString temp)

/-- The copy of a text of the request. -/
def NgxText.copy (s : NgxText) : Option Bytes :=
  copyText (s.data.length + 1) s.viewed.length s.data

/-- The port, for the families of IPv4 and IPv6. -/
def remotePort (s : Sockaddr) : ℕ :=
  if s.sa_family = 2 then s.port.toNat
  else if s.sa_family = 10 ∨ s.sa_family = 23 then s.port.toNat
  else 0

/-- The parameters of a `GET` and of a `POST`. -/
def httpParams (request_method : Bytes) (args : NgxText) : Bytes × Bytes :=
  let param := if args.viewed = [] then ascii "No param" else args.data
  if ascii "GET" <:+: request_method then (param, ascii "No param")
  else if ascii "POST" <:+: request_method then (ascii "No param", param)
  else ([], [])

/-- The data of a value that is null is an empty text. -/
def NgxTableElt.valueData (h : NgxTableElt) : Bytes := h.value.getD []

def NgxTableElt.httpHeader (h : NgxTableElt) : HttpHeader := ⟨some h.key, some h.valueData⟩

/-- The entry of a header in `propagation_headers`, if it has a name that `same` accepts. -/
def propagationEntry (same : Bytes → Bytes → Bool) (h : NgxTableElt) : Option HttpHeader :=
  (httpHeaders.find? fun name => same name h.key).map fun name => ⟨some name, some h.valueData⟩

/-- Whether `strcmp` gives zero, for a name of the table. -/
def strcmp (name key : Bytes) : Bool := cString key = name

/-- Spans are trusted unless that is turned off. -/
def PayloadRequest.trusted (r : PayloadRequest) : Bool :=
  r.locConf.flag .trustIncomingSpans ≠ some false

/-- A new array of `http_headers`. -/
def newHeaders (nelts : ℕ) : List HttpHeader := List.replicate nelts ⟨none, none⟩

/-- The loop over the first part. -/
def fillRequestHeaders (r : PayloadRequest) : Option (ℕ × List HttpHeader) :=
  fill (fun h => some h.httpHeader) 0 (newHeaders r.headers.first.length) r.headers.first

/-- The loop over all parts. -/
def fillPropagationHeaders (r : PayloadRequest) : Option (ℕ × List HttpHeader) :=
  fill (fun h => if r.trusted then propagationEntry strcmp h else none) 0
    (newHeaders r.headers.first.length) r.headers.toList

/-- `fillRequestPayload`, `none` where it reads a header that is not there, or writes outside
of what it allocated. -/
def fillRequestPayload (r : PayloadRequest) : Option NgxRequestPayload := do
  let uri ← r.uri.copy
  let protocol ← r.http_protocol.copy
  let request_method ← r.method_name.copy
  let user_agent ← r.user_agent
  let user_agent ← copyText (user_agent.length + 1) user_agent.length (cString user_agent)
  let hostname ← r.hostname.copy
  let params := httpParams request_method r.args
  let client_ip ← r.addr_text.copy
  let (request_headers_count, request_headers) ← fillRequestHeaders r
  let (propagation_count, propagation_headers) ← fillPropagationHeaders r
  some {
    uri, protocol, request_method, user_agent, hostname, client_ip
    request_headers, request_headers_count, propagation_headers, propagation_count
    server_name := r.server_name
    scheme := if r.ssl then ascii "https" else ascii "http"
    flavor := protocol
    http_get_param := params.1
    http_post_param := params.2
    operation_name := r.locConf.str .operationName
    peer_port := remotePort r.sockaddr }

/-! ### What should be collected -/

/-- The payload has all headers of the request, and those of them that propagate. -/
structure Collected (r : PayloadRequest) (p : NgxRequestPayload) : Prop where
  request : p.request_headers.take p.request_headers_count =
    r.headers.toList.map NgxTableElt.httpHeader
  requestCount : p.request_headers_count = r.headers.toList.length
  propagation : r.trusted = true → p.propagation_headers.take p.propagation_count =
    r.headers.toList.filterMap (propagationEntry strcasecmp)
  propagationCount : r.trusted = true →
    p.propagation_count = (r.headers.toList.filterMap (propagationEntry strcasecmp)).length

/-- A header with the name of a propagation header has it as in the table. -/
def SpelledAsInTable (hs : List NgxTableElt) : Prop :=
  ∀ h ∈ hs, ∀ name ∈ httpHeaders, strcasecmp name h.key = true → cString h.key = name

/-! ### Copies of texts -/

theorem cString_append_zero {text : Bytes} (h : ∀ b ∈ text, b ≠ 0) (rest : Bytes) :
    cString (text ++ 0 :: rest) = text := by
  rw [cString, List.takeWhile_append_of_pos (by simpa using h),
    List.takeWhile_cons_of_neg (by simp), List.append_nil]

theorem cString_noNul (memory : Bytes) : ∀ b ∈ cString memory, b ≠ 0 := by
  intro b hb
  simpa using List.mem_takeWhile_imp hb

/-- A text is copied up to a length, if both are within the allocation. -/
theorem copyText_eq {capacity len : ℕ} {text : Bytes} (htext : ∀ b ∈ text, b ≠ 0)
    (hcapacity : text.length < capacity) (hlen : len < capacity) :
    copyText capacity len text = some (text.take len) := by
  obtain ⟨free, rfl⟩ := Nat.exists_eq_add_of_lt hcapacity
  have hzeros : List.replicate (text.length + free + 1) (0 : UInt8) =
      List.replicate (text.length + 1) 0 ++ List.replicate free 0 := by
    rw [List.replicate_append_replicate, Nat.add_right_comm]
  have hcopy : writeAt (List.replicate (text.length + free + 1) 0) 0 (text ++ [0]) =
      some (text ++ 0 :: List.replicate free 0) := by
    rw [hzeros]
    have hlength :
        (text ++ [0]).length = (List.replicate (text.length + 1) (0 : UInt8)).length := by
      rw [List.length_append, List.length_replicate]
      rfl
    refine (@writeAt_append _ [] _ _ _ 0 rfl hlength).trans (congrArg some ?_)
    rw [List.nil_append, List.append_assoc]
    rfl
  have hwrite : writeAt (text ++ 0 :: List.replicate free 0) len [0] =
      some ((text ++ 0 :: List.replicate free 0).take len ++
        0 :: (text ++ 0 :: List.replicate free 0).drop (len + 1)) :=
    if_pos (by simp; omega)
  rw [copyText, hcopy, Option.bind_eq_bind, Option.bind_some, hwrite, Option.bind_some,
    Option.some.injEq]
  by_cases hle : len ≤ text.length
  · -- the text is cut
    rw [List.take_append_of_le_length hle]
    exact cString_append_zero (fun b hb => htext b (List.mem_of_mem_take hb)) _
  · obtain ⟨more, rfl⟩ := Nat.exists_eq_add_of_lt (Nat.lt_of_not_le hle)
    rw [Nat.add_assoc, List.take_length_add_append, List.take_succ_cons, List.append_assoc,
      List.take_of_length_le (Nat.le_add_right _ _)]
    exact cString_append_zero htext _

theorem NgxText.copy_eq (s : NgxText) : s.copy = some s.viewed := by
  have hdata : s.data = s.viewed ++ cString s.beyond := by
    rw [StringView.data, cString, List.takeWhile_append_of_pos (by simpa using s.noNul)]
    rfl
  have hlength : s.viewed.length < s.data.length + 1 := by
    rw [hdata, List.length_append]
    omega
  have hcopy := copyText_eq (cString_noNul (s.viewed ++ s.beyond)) (Nat.lt_succ_self _) hlength
  rw [copy]
  refine hcopy.trans (congrArg some ?_)
  show s.data.take _ = _
  rw [hdata, List.take_left]

/-! ### Names -/

theorem httpHeaders_distinct : ∀ name ∈ httpHeaders, ∀ name' ∈ httpHeaders,
    strcasecmp name name' = true → name = name' := by decide

theorem find?_of_unique {names : List Bytes} {same : Bytes → Bool} {name : Bytes}
    (hmem : name ∈ names) (hsame : same name = true)
    (hunique : ∀ name' ∈ names, same name' = true → name' = name) :
    names.find? same = some name := by
  cases hfind : names.find? same with
  | none => exact absurd hsame (List.find?_eq_none.mp hfind name hmem)
  | some name' => rw [hunique name' (List.mem_of_find?_eq_some hfind) (List.find?_some hfind)]

/-- A name of the table that a header has in any case. -/
theorem propagationEntry_strcasecmp {h : NgxTableElt} {name : Bytes} (hmem : name ∈ httpHeaders)
    (hsame : strcasecmp name h.key = true) :
    propagationEntry strcasecmp h = some ⟨some name, some h.valueData⟩ := by
  have hfind : httpHeaders.find? (fun name => strcasecmp name h.key) = some name := by
    refine find?_of_unique hmem hsame fun name' hmem' hsame' => ?_
    rw [strcasecmp_comm] at hsame
    exact httpHeaders_distinct name' hmem' name hmem (strcasecmp_trans hsame' hsame)
  rw [propagationEntry, hfind]
  rfl

theorem propagationEntry_strcmp {h : NgxTableElt} {name : Bytes} (hmem : name ∈ httpHeaders)
    (hsame : cString h.key = name) :
    propagationEntry strcmp h = some ⟨some name, some h.valueData⟩ := by
  have hfind : httpHeaders.find? (fun name => strcmp name h.key) = some name :=
    find?_of_unique hmem (decide_eq_true hsame) fun name' _ hsame' =>
      (of_decide_eq_true hsame').symm.trans hsame
  rw [propagationEntry, hfind]
  rfl

theorem strcasecmp_of_strcmp {name key : Bytes} (h : strcmp name key = true) :
    strcasecmp name key = true := by
  obtain rfl := of_decide_eq_true h
  rw [strcasecmp, cString_cString]
  exact decide_eq_true rfl

/-- A header that is chosen has its name in the table. -/
theorem propagationEntry_some {same : Bytes → Bytes → Bool} {h : NgxTableElt} {entry : HttpHeader}
    (hentry : propagationEntry same h = some entry) :
    ∃ name ∈ httpHeaders, same name h.key = true ∧ entry = ⟨some name, some h.valueData⟩ := by
  obtain ⟨name, hfind, rfl⟩ := Option.map_eq_some_iff.mp hentry
  have hsame := List.find?_some hfind
  exact ⟨name, List.mem_of_find?_eq_some hfind, hsame, rfl⟩

theorem propagationEntry_refines {h : NgxTableElt} {entry : HttpHeader}
    (hentry : propagationEntry strcmp h = some entry) :
    propagationEntry strcasecmp h = some entry := by
  obtain ⟨name, hmem, hsame, rfl⟩ := propagationEntry_some hentry
  exact propagationEntry_strcasecmp hmem (strcasecmp_of_strcmp hsame)

/-- The two ways to compare choose the same of the headers that are spelled as in the table. -/
theorem propagationEntry_eq_iff (hs : List NgxTableElt) :
    (∀ h ∈ hs, propagationEntry strcmp h = propagationEntry strcasecmp h) ↔
      SpelledAsInTable hs := by
  refine forall₂_congr fun h _ => ⟨fun heq name hmem hsame => ?_, fun hspelled => ?_⟩
  · rw [propagationEntry_strcasecmp hmem hsame] at heq
    obtain ⟨name', -, hsame', hentry⟩ := propagationEntry_some heq
    cases hentry
    exact of_decide_eq_true hsame'
  · cases hentry : propagationEntry strcasecmp h with
    | none =>
      cases hentry' : propagationEntry strcmp h with
      | none => rfl
      | some entry => rw [propagationEntry_refines hentry'] at hentry; cases hentry
    | some entry =>
      obtain ⟨name, hmem, hsame, rfl⟩ := propagationEntry_some hentry
      exact propagationEntry_strcmp hmem (hspelled name hmem hsame)

/-! ### The arrays -/

variable {r : PayloadRequest}

theorem fillRequestPayload_some {p : NgxRequestPayload} (h : fillRequestPayload r = some p) :
    r.user_agent.isSome = true ∧
      fillRequestHeaders r = some (p.request_headers_count, p.request_headers) ∧
      fillPropagationHeaders r = some (p.propagation_count, p.propagation_headers) := by
  simp only [fillRequestPayload, Option.bind_eq_bind, Option.bind_eq_some_iff] at h
  obtain ⟨_, -, _, -, _, -, user_agent, huser, _, -, _, -, _, -, request, hrequest, propagation,
    hpropagation, h⟩ := h
  cases h
  exact ⟨Option.isSome_iff_exists.mpr ⟨_, huser⟩, hrequest, hpropagation⟩

/-- The texts never fail, so that the payload is filled where the arrays are. -/
theorem fillRequestPayload_of_arrays {request propagation : ℕ × List HttpHeader}
    (huser : r.user_agent.isSome = true) (hrequest : fillRequestHeaders r = some request)
    (hpropagation : fillPropagationHeaders r = some propagation) :
    ∃ p, fillRequestPayload r = some p ∧ p.request_headers_count = request.1 ∧
      p.request_headers = request.2 ∧ p.propagation_count = propagation.1 ∧
      p.propagation_headers = propagation.2 := by
  obtain ⟨user_agent, huser⟩ := Option.isSome_iff_exists.mp huser
  have hlength : (cString user_agent).length < user_agent.length + 1 :=
    Nat.lt_succ_of_le (List.takeWhile_prefix _).length_le
  have hcopy := copyText_eq (cString_noNul user_agent) hlength (Nat.lt_succ_self _)
  simp only [fillRequestPayload, NgxText.copy_eq, huser, hcopy, hrequest, hpropagation,
    Option.bind_eq_bind, Option.bind_some]
  exact ⟨_, rfl, rfl, rfl, rfl, rfl⟩

/-- An array for some headers is filled with them. -/
theorem fill_httpHeaders (hs : List NgxTableElt) :
    ∃ array, fill (fun h => some h.httpHeader) 0 (newHeaders hs.length) hs =
      some (hs.length, array) ∧
      array.take hs.length = hs.map NgxTableElt.httpHeader := by
  have hmap : hs.filterMap (fun h => some h.httpHeader) = hs.map NgxTableElt.httpHeader :=
    congrFun List.filterMap_eq_map _
  have hfits : (fill (fun h => some h.httpHeader) 0 (newHeaders hs.length) hs).isSome := by
    rw [fill_isSome_iff, hmap, List.length_map, newHeaders, List.length_replicate]
  obtain ⟨⟨count, array⟩, hfill⟩ := Option.isSome_iff_exists.mp hfits
  obtain ⟨hcount, -, htake⟩ := fill_eq_some hfill
  rw [hmap, List.length_map] at hcount
  rw [hmap] at htake
  subst hcount
  exact ⟨array, hfill, htake⟩

/-- The headers are all in the array exactly when there is one part. -/
theorem request_headers_iff {count : ℕ} {request : List HttpHeader}
    (h : fillRequestHeaders r = some (count, request)) :
    request.take count = r.headers.toList.map NgxTableElt.httpHeader ∧
        count = r.headers.toList.length ↔ r.headers.parts.tail = [] := by
  obtain ⟨array, hfill, htake⟩ := fill_httpHeaders r.headers.first
  cases h.symm.trans hfill
  rw [← r.headers.length_first_eq_iff]
  refine ⟨fun h => h.2, fun h => ⟨?_, h⟩⟩
  rw [htake, r.headers.toList_of_tail (r.headers.length_first_eq_iff.mp h)]

/-- In one part, what is chosen fits. -/
theorem fillPropagationHeaders_isSome (htail : r.headers.parts.tail = []) :
    (fillPropagationHeaders r).isSome := by
  rw [fillPropagationHeaders, fill_isSome_iff, newHeaders, List.length_replicate,
    r.headers.toList_of_tail htail]
  exact List.length_filterMap_le ..

theorem propagation_headers_iff {count : ℕ} {propagation : List HttpHeader}
    (h : fillPropagationHeaders r = some (count, propagation)) (htrusted : r.trusted = true) :
    propagation.take count = r.headers.toList.filterMap (propagationEntry strcasecmp) ∧
        count = (r.headers.toList.filterMap (propagationEntry strcasecmp)).length ↔
      SpelledAsInTable r.headers.toList := by
  obtain ⟨hcount, -, htake⟩ := fill_eq_some h
  simp only [htrusted, if_true] at hcount htake
  rw [htake, ← propagationEntry_eq_iff]
  constructor
  · rintro ⟨-, hlength⟩
    exact filterMap_eq_of_length_eq (fun _ _ => propagationEntry_refines)
      (hcount.symm.trans hlength)
  · intro hsame
    have heq := List.filterMap_congr hsame
    exact ⟨heq, hcount.trans (congrArg _ heq)⟩

/-- **The payload of a request is filled**, without reading a header that is not there or
writing outside of an array, and has all headers of the request and all that propagate, exactly
when there is a `User-Agent`, the headers are in one part, and, if spans are trusted, those that
propagate are spelled as in the table. -/
theorem request_collected_iff (r : PayloadRequest) :
    (∃ p, fillRequestPayload r = some p ∧ Collected r p) ↔
      r.user_agent.isSome = true ∧ r.headers.parts.tail = [] ∧
        (r.trusted = true → SpelledAsInTable r.headers.toList) := by
  constructor
  · rintro ⟨p, hfill, hcollected⟩
    obtain ⟨huser, hrequest, hpropagation⟩ := fillRequestPayload_some hfill
    refine ⟨huser, ?_, fun htrusted => ?_⟩
    · exact (request_headers_iff hrequest).mp ⟨hcollected.request, hcollected.requestCount⟩
    · exact (propagation_headers_iff hpropagation htrusted).mp
        ⟨hcollected.propagation htrusted, hcollected.propagationCount htrusted⟩
  · rintro ⟨huser, htail, hspelled⟩
    obtain ⟨request, hrequest, -⟩ := fill_httpHeaders r.headers.first
    obtain ⟨propagation, hpropagation⟩ :=
      Option.isSome_iff_exists.mp (fillPropagationHeaders_isSome htail)
    obtain ⟨p, hfill, hcount, harray, hcount', harray'⟩ :=
      fillRequestPayload_of_arrays huser hrequest hpropagation
    obtain ⟨hall, hnumber⟩ := (request_headers_iff hrequest).mpr htail
    refine ⟨p, hfill, ?_, ?_, fun htrusted => ?_, fun htrusted => ?_⟩
    · rw [harray, hcount, hall]
    · rw [hcount, hnumber]
    · rw [harray', hcount']
      exact ((propagation_headers_iff hpropagation htrusted).mpr (hspelled htrusted)).1
    · rw [hcount']
      exact ((propagation_headers_iff hpropagation htrusted).mpr (hspelled htrusted)).2

theorem noNul_of_all {text : Bytes} (h : text.all (· ≠ 0) = true) : ∀ b ∈ text, b ≠ 0 :=
  fun b hb => of_decide_eq_true (List.all_eq_true.mp h b hb)

/-- A request for `/`, with the value of its `User-Agent` and its headers. -/
def samplePayloadRequest (user_agent : Option Bytes) (headers : PartList NgxTableElt) :
    PayloadRequest where
  uri := ⟨⟨ascii "/", ascii " HTTP/1.1" ++ [0]⟩, noNul_of_all rfl⟩
  server_name := ascii "localhost"
  ssl := false
  http_protocol := ⟨⟨ascii "HTTP/1.1", [0]⟩, noNul_of_all rfl⟩
  method_name := ⟨⟨ascii "GET", ascii " / HTTP/1.1" ++ [0]⟩, noNul_of_all rfl⟩
  user_agent := user_agent
  sockaddr := ⟨2, 5000⟩
  hostname := ⟨⟨ascii "host", [0]⟩, noNul_of_all rfl⟩
  args := ⟨⟨[], [0]⟩, noNul_of_all rfl⟩
  addr_text := ⟨⟨ascii "127.0.0.1", [0]⟩, noNul_of_all rfl⟩
  headers := headers
  locConf := .create

/-- Parts for one header each. -/
def twoParts (first second : NgxTableElt) : PartList NgxTableElt where
  nalloc := 1
  parts := [[first], [second]]
  parts_ne := List.cons_ne_nil _ _
  nonempty := by simp

/-- Without a `User-Agent` a null pointer is read; with two parts the second header is missing,
or is written outside of the array. -/
theorem request_not_collected :
    let traceparent : NgxTableElt := ⟨ascii "traceparent", some (ascii "00")⟩
    let tracestate : NgxTableElt := ⟨ascii "tracestate", some (ascii "a=b")⟩
    let host : NgxTableElt := ⟨ascii "Host", some (ascii "h")⟩
    fillRequestPayload (samplePayloadRequest none (twoParts host traceparent)) = none ∧
      fillRequestPayload (samplePayloadRequest (some []) (twoParts traceparent tracestate)) = none ∧
      (fillRequestPayload (samplePayloadRequest (some []) (twoParts host traceparent))).map
          NgxRequestPayload.request_headers = some [host.httpHeader] ∧
      ¬∃ p, fillRequestPayload (samplePayloadRequest none (twoParts host traceparent)) = some p ∧
        Collected (samplePayloadRequest none (twoParts host traceparent)) p := by
  refine ⟨rfl, by decide +kernel, by decide +kernel, ?_⟩
  rintro ⟨p, hfill, -⟩
  cases hfill

end NginxWebserver

/-
The headers that a request of the nginx module hands to its upstream (`trace_context.cpp`).

A trace context has two slots.  Keys are copied without a NUL behind them; a key that is set
again is looked for with `ngx_strcmp`, which goes on behind both keys, and a key that is read
with `ngx_strncmp`.  What lies behind a key is what it is when a call reads it.

* `trace_headers_iff` — the slots are the map of the last successful `Set` of each key, and
  hold what the propagators inject, exactly when every `Set` that succeeds has a key without
  an inner NUL and finds the slot its key is in, and every injected header finds a slot;
* `inject_new_iff` — in a new trace context that is so exactly for up to two headers.
-/
import OtelContrib.Lib.Runs
import OtelContrib.Nginx.OtelModule
import OtelContrib.Sdk.AttributeValue
import Mathlib.Data.List.TakeWhile

open Otel.Common

namespace Nginx

/-! ### The slots -/

/-- An unused slot has an empty key. -/
structure TraceHeader where
  key : Bytes
  value : Bytes
  deriving DecidableEq

/-- `Set` as it is called: what lies behind the view of the key and behind the key of each slot,
and whether `ngx_palloc` gives memory for the key and for the value. -/
structure SetCall where
  traceType : StringView
  traceValue : Bytes
  beyond : ℕ → Bytes
  keyAllocated : Bool
  valueAllocated : Bool

/-- The name of the header. -/
def SetCall.name (call : SetCall) : Bytes := call.traceType.viewed

/-- `ngx_strcmp` finds the key of a slot equal, after their lengths are. -/
def SetCall.sees (call : SetCall) (i : ℕ) (key : Bytes) : Bool :=
  key.length = call.name.length ∧
    (StringView.mk key (call.beyond i)).data = call.traceType.data

/-- `FindEmptyOrExistingSlot`. -/
def findEmptyOrExistingSlot (traceHeader : List TraceHeader) (call : SetCall) : Option ℕ :=
  (traceHeader.zipIdx.find? fun slot => slot.1.key = [] ∨ call.sees slot.2 slot.1.key).map Prod.snd

/-- `CreatePooledString`, which is empty where there is no memory. -/
def createPooledString (allocated : Bool) (value : Bytes) : Bytes := if allocated then value else []

def traceContextSetTraceHeader (traceHeader : List TraceHeader) (call : SetCall) :
    Bool × List TraceHeader :=
  if call.name = [] then (false, traceHeader)
  else
    match findEmptyOrExistingSlot traceHeader call with
    | none => (false, traceHeader)
    | some i =>
      let key := createPooledString call.keyAllocated call.name
      if key = [] then (false, traceHeader)
      else
        let value := createPooledString call.valueAllocated call.traceValue
        if value = [] then (false, traceHeader)
        else (true, traceHeader.set i ⟨key, value⟩)

/-- The value of the header that is found; `ngx_strncmp` ends at the length or at a NUL. -/
def traceContextFindTraceHeader (traceHeader : List TraceHeader) (key : Bytes) : Option Bytes :=
  if key = [] then none
  else
    (traceHeader.find? fun slot =>
      slot.key.length = key.length ∧ cString slot.key = cString key).map TraceHeader.value

/-! ### Operations on one trace context -/

/-- The headers that a propagator may set, in its order. -/
def TracePropagationType.headerNames : TracePropagationType → List Bytes
  | .TracePropagationW3C => [ascii "traceparent", ascii "tracestate"]
  | .TracePropagationB3 => [ascii "b3"]
  | .TracePropagationB3Multi => [ascii "X-B3-TraceId", ascii "X-B3-SpanId", ascii "X-B3-Sampled"]
  | .TracePropagationUnset => []

/-- `InjectContext`: the calls of the carrier's `Set` that the configured propagator makes. -/
structure Injection where
  propagationType : TracePropagationType
  headers : List SetCall
  documented : List.Sublist (headers.map SetCall.name) propagationType.headerNames

inductive HeaderOp
  | set (call : SetCall)
  | find (key : Bytes)
  | inject (injection : Injection)

/-- The calls of `Set` in an operation. -/
def HeaderOp.calls : HeaderOp → List SetCall
  | .set call => [call]
  | .find _ => []
  | .inject injection => injection.headers

/-- The slots, and the value of the last successful `Set` of each key. -/
structure HeaderState where
  traceHeader : List TraceHeader
  lastSet : Bytes → Option Bytes

namespace HeaderState

/-- A new trace context. -/
def new : HeaderState := ⟨[⟨[], []⟩, ⟨[], []⟩], fun _ => none⟩

def set (s : HeaderState) (call : SetCall) : HeaderState :=
  let result := traceContextSetTraceHeader s.traceHeader call
  ⟨result.2,
    if result.1 then Function.update s.lastSet call.name (some call.traceValue) else s.lastSet⟩

/-- The state after some calls of `Set`. -/
def after (calls : List SetCall) : HeaderState := calls.foldl set new

/-- Stored keys are distinct, and each key is found with the value that was set last. -/
structure Good (s : HeaderState) : Prop where
  distinct : ((s.traceHeader.map TraceHeader.key).filter (· ≠ [])).Nodup
  found : ∀ key, traceContextFindTraceHeader s.traceHeader key = s.lastSet key

end HeaderState

open HeaderState (after)

/-- What a trace context is meant to be, in every state that it reaches. -/
structure KeepsHeaders (ops : List HeaderOp) : Prop where
  good : ∀ calls, calls <+: ops.flatMap HeaderOp.calls → (after calls).Good
  refused : ∀ calls call, calls ++ [call] <+: ops.flatMap HeaderOp.calls →
    (traceContextSetTraceHeader (after calls).traceHeader call).1 = false →
      (traceContextSetTraceHeader (after calls).traceHeader call).2 = (after calls).traceHeader
  injected : ∀ before injection, before ++ [.inject injection] <+: ops →
    ∀ call ∈ injection.headers, call.traceValue ≠ [] →
      traceContextFindTraceHeader
        (after ((before ++ [.inject injection]).flatMap HeaderOp.calls)).traceHeader call.name =
        some call.traceValue

/-! ### Which calls go well -/

/-- No NUL comes before the last byte. -/
def Plain (key : Bytes) : Prop := 0 ∉ key.dropLast

/-- There is memory and a slot for a header. -/
structure SetCall.Accepted (call : SetCall) (traceHeader : List TraceHeader) : Prop where
  name_ne : call.name ≠ []
  value_ne : call.traceValue ≠ []
  keyAllocated : call.keyAllocated = true
  valueAllocated : call.valueAllocated = true
  slot : ∃ i slot, traceHeader[i]? = some slot ∧ (slot.key = [] ∨ call.sees i slot.key = true)

/-- A header that gets a slot has a key without an inner NUL, and `ngx_strcmp` sees the slot its
key is in already, if there is a free one too. -/
def SetCall.Ok (traceHeader : List TraceHeader) (call : SetCall) : Prop :=
  call.Accepted traceHeader → Plain call.name ∧
    ∀ i slot, traceHeader[i]? = some slot → slot.key = call.name →
      call.sees i slot.key = true ∨ ∀ slot ∈ traceHeader, slot.key ≠ []

/-- An injected header gets a slot, unless it is empty or stored already. -/
def SetCall.Fits (traceHeader : List TraceHeader) (call : SetCall) : Prop :=
  call.traceValue ≠ [] →
    call.Accepted traceHeader ∨ ⟨call.name, call.traceValue⟩ ∈ traceHeader

structure SetsWell (ops : List HeaderOp) : Prop where
  ok : ∀ calls call, calls ++ [call] <+: ops.flatMap HeaderOp.calls →
    call.Ok (after calls).traceHeader
  fits : ∀ before injection, before ++ [.inject injection] <+: ops →
    ∀ calls call, calls ++ [call] <+: injection.headers →
      call.Fits (after (before.flatMap HeaderOp.calls ++ calls)).traceHeader

/-! ### Keys as C strings -/

theorem eq_of_plain {a b : Bytes} (ha : Plain a) (hlength : a.length = b.length)
    (h : cString a = cString b) : a = b := by
  induction a generalizing b with
  | nil => exact (List.length_eq_zero_iff.mp hlength.symm).symm
  | cons x a ih =>
    cases b with
    | nil => cases hlength
    | cons y b =>
      have hlength' : a.length = b.length := Nat.succ.inj hlength
      rw [cString, cString, List.takeWhile_cons, List.takeWhile_cons] at h
      cases a with
      | nil =>
        obtain rfl := List.length_eq_zero_iff.mp hlength'.symm
        by_cases hx : x = 0 <;> by_cases hy : y = 0 <;> simp_all
      | cons x' a =>
        rw [Plain, List.dropLast_cons_of_ne_nil (List.cons_ne_nil x' a), List.mem_cons,
          not_or] at ha
        have hx : x ≠ 0 := Ne.symm ha.1
        have hy : y ≠ 0 := by
          rintro rfl
          simp [hx] at h
        simp only [ne_eq, hx, hy, not_false_eq_true, decide_true, if_true, List.cons.injEq] at h
        rw [h.1, ih ha.2 hlength' h.2]

/-- What lies behind a text does not change where its first NUL is. -/
theorem take_cString_append (a m : Bytes) : (cString (a ++ m)).take a.length = cString a := by
  rw [cString, cString, List.takeWhile_append]
  split
  case isTrue h =>
    have hall : a.takeWhile (fun x => decide (x ≠ 0)) = a :=
      (List.takeWhile_prefix _).eq_of_length h
    rw [List.take_left, hall]
  case isFalse =>
    exact List.take_of_length_le (List.takeWhile_prefix _).length_le

/-- With an inner NUL there is another key that no C function tells from this one. -/
theorem exists_same_of_not_plain {a : Bytes} (ha : ¬Plain a) :
    ∃ b, b ≠ a ∧ b ≠ [] ∧ ¬Plain b ∧ a.length = b.length ∧ cString a = cString b := by
  have hmem : (0 : UInt8) ∈ a.dropLast := not_not.mp ha
  have hne : a ≠ [] := by
    rintro rfl
    cases hmem
  have hstring : ∀ x : UInt8, cString (a.dropLast ++ [x]) = cString a.dropLast := by
    intro x
    rw [cString, cString, List.takeWhile_append, if_neg]
    intro hlength
    have hall := (List.takeWhile_prefix _).eq_of_length hlength
    rw [← hall] at hmem
    have hall : ∀ x ∈ (a.dropLast).takeWhile (fun x => decide (x ≠ 0)), decide (x ≠ 0) = true :=
      fun x hx => List.all_eq_true.mp List.all_takeWhile x hx
    exact absurd (hall 0 hmem) Bool.false_ne_true
  have hlast : a.dropLast ++ [a.getLast hne] = a := List.dropLast_append_getLast hne
  refine ⟨a.dropLast ++ [a.getLast hne + 1], fun h => ?_, List.append_ne_nil_of_right_ne_nil _
    (List.cons_ne_nil _ _), ?_, ?_, ?_⟩
  · have heq := List.append_cancel_left (h.trans hlast.symm)
    have hself : a.getLast hne + 1 = a.getLast hne := List.singleton_inj.mp heq
    have hnat := congrArg UInt8.toNat hself
    rw [UInt8.toNat_add] at hnat
    have hlt := (a.getLast hne).toNat_lt
    simp only [UInt8.reduceToNat] at hnat
    omega
  · rw [Plain, List.dropLast_concat, not_not]
    exact hmem
  · conv_lhs => rw [← hlast]
    rw [List.length_append, List.length_append]
    rfl
  · conv_lhs => rw [← hlast]
    rw [hstring, hstring]

theorem eq_of_sees {call : SetCall} {i : ℕ} {key : Bytes} (hname : Plain call.name)
    (h : call.sees i key = true) : key = call.name := by
  obtain ⟨hlength, hdata⟩ := of_decide_eq_true h
  have htake := congrArg (List.take call.name.length) hdata
  rw [StringView.data, StringView.data, ← hlength, take_cString_append, hlength] at htake
  exact (eq_of_plain hname hlength.symm (htake.trans (take_cString_append _ _)).symm).symm

/-! ### What one call does -/

theorem findEmptyOrExistingSlot_eq_some {traceHeader : List TraceHeader} {call : SetCall} {i : ℕ}
    (h : findEmptyOrExistingSlot traceHeader call = some i) :
    (∃ slot, traceHeader[i]? = some slot ∧ (slot.key = [] ∨ call.sees i slot.key = true)) ∧
      ∀ j slot, j < i → traceHeader[j]? = some slot →
        slot.key ≠ [] ∧ call.sees j slot.key = false := by
  obtain ⟨⟨slot, i'⟩, hfind, rfl⟩ := Option.map_eq_some_iff.mp h
  obtain ⟨hslot, k, hk, hget, hfirst⟩ := List.find?_eq_some_iff_getElem.mp hfind
  rw [List.getElem_zipIdx, Prod.mk.injEq, Nat.zero_add] at hget
  obtain ⟨hget, rfl⟩ := hget
  rw [List.length_zipIdx] at hk
  refine ⟨⟨slot, hget ▸ List.getElem?_eq_getElem hk, of_decide_eq_true hslot⟩,
    fun j slot' hj hslot' => ?_⟩
  have hnot := hfirst j hj
  rw [List.getElem_zipIdx, Nat.zero_add] at hnot
  obtain ⟨_, rfl⟩ := List.getElem?_eq_some_iff.mp hslot'
  have hnot := of_decide_eq_false (Bool.not_eq_true' _ |>.mp hnot)
  rw [not_or] at hnot
  exact ⟨hnot.1, Bool.eq_false_iff.mpr hnot.2⟩

theorem findEmptyOrExistingSlot_isSome {traceHeader : List TraceHeader} {call : SetCall} {i : ℕ}
    {slot : TraceHeader} (hslot : traceHeader[i]? = some slot)
    (h : slot.key = [] ∨ call.sees i slot.key = true) :
    ∃ i', findEmptyOrExistingSlot traceHeader call = some i' := by
  rw [← Option.isSome_iff_exists, findEmptyOrExistingSlot, Option.isSome_map, List.find?_isSome]
  refine ⟨(slot, i), ?_, decide_eq_true h⟩
  rw [List.mem_zipIdx_iff_getElem?]
  exact hslot

theorem set_of_accepted {traceHeader : List TraceHeader} {call : SetCall}
    (h : call.Accepted traceHeader) :
    ∃ i, findEmptyOrExistingSlot traceHeader call = some i ∧
      traceContextSetTraceHeader traceHeader call =
        (true, traceHeader.set i ⟨call.name, call.traceValue⟩) := by
  obtain ⟨j, slot, hslot, hfree⟩ := h.slot
  obtain ⟨i, hi⟩ := findEmptyOrExistingSlot_isSome hslot hfree
  refine ⟨i, hi, ?_⟩
  rw [traceContextSetTraceHeader, if_neg h.name_ne, hi]
  simp only [createPooledString, h.keyAllocated, h.valueAllocated, if_true, h.name_ne, h.value_ne,
    if_false]

theorem set_of_not_accepted {traceHeader : List TraceHeader} {call : SetCall}
    (h : ¬call.Accepted traceHeader) :
    traceContextSetTraceHeader traceHeader call = (false, traceHeader) := by
  rw [traceContextSetTraceHeader]
  split_ifs with hname
  · rfl
  split
  case h_1 => rfl
  case h_2 i hi =>
    obtain ⟨⟨slot, hslot, hfree⟩, -⟩ := findEmptyOrExistingSlot_eq_some hi
    cases hkey : call.keyAllocated with
    | false => rfl
    | true =>
      cases hvalue : call.valueAllocated with
      | false => exact if_neg hname
      | true =>
        by_cases hempty : call.traceValue = []
        · exact (if_neg hname).trans (if_pos hempty)
        · exact absurd ⟨hname, hempty, hkey, hvalue, i, slot, hslot, hfree⟩ h

/-! ### The invariant -/

/-- The slots are a map with distinct plain keys, the free ones last. -/
structure Slots (s : HeaderState) : Prop where
  distinct : ∀ (i j : ℕ) (a b : TraceHeader), s.traceHeader[i]? = some a →
    s.traceHeader[j]? = some b → a.key = b.key → a.key ≠ [] → i = j
  plain : ∀ slot ∈ s.traceHeader, Plain slot.key
  front : ∀ (i j : ℕ) (a b : TraceHeader), i < j → s.traceHeader[i]? = some a →
    s.traceHeader[j]? = some b → a.key = [] → b.key = []
  found : ∀ key v, s.lastSet key = some v ↔ key ≠ [] ∧ ⟨key, v⟩ ∈ s.traceHeader

theorem nodup_keys_iff (traceHeader : List TraceHeader) :
    ((traceHeader.map TraceHeader.key).filter (· ≠ [])).Nodup ↔
      ∀ (i j : ℕ) (a b : TraceHeader), traceHeader[i]? = some a → traceHeader[j]? = some b →
        a.key = b.key → a.key ≠ [] → i = j := by
  rw [List.Nodup, List.pairwise_filter, List.pairwise_map, List.pairwise_iff_getElem]
  constructor
  · intro h i j a b ha hb hkey hne
    obtain ⟨hi, rfl⟩ := List.getElem?_eq_some_iff.mp ha
    obtain ⟨hj, rfl⟩ := List.getElem?_eq_some_iff.mp hb
    rcases Nat.lt_trichotomy i j with hij | hij | hij
    · exact absurd hkey (h i j hi hj hij (decide_eq_true hne) (decide_eq_true (hkey ▸ hne)))
    · exact hij
    · exact absurd hkey.symm
        (h j i hj hi hij (decide_eq_true (hkey ▸ hne)) (decide_eq_true hne))
  · intro h i j hi hj hij hne _ hkey
    exact absurd (h i j _ _ (List.getElem?_eq_getElem hi) (List.getElem?_eq_getElem hj) hkey
      (of_decide_eq_true hne)) (Nat.ne_of_lt hij)

theorem slots_new : Slots .new where
  distinct i j a b ha _ _ hne := by
    have hmem : a ∈ HeaderState.new.traceHeader := List.mem_of_getElem? ha
    simp only [HeaderState.new, List.mem_cons, List.not_mem_nil, or_false, or_self] at hmem
    exact absurd (congrArg TraceHeader.key hmem) hne
  plain slot hslot := by
    simp only [HeaderState.new, List.mem_cons, List.not_mem_nil, or_false, or_self] at hslot
    rw [hslot]
    exact List.not_mem_nil
  front i j a b _ _ hb _ := by
    have hmem : b ∈ HeaderState.new.traceHeader := List.mem_of_getElem? hb
    simp only [HeaderState.new, List.mem_cons, List.not_mem_nil, or_false, or_self] at hmem
    exact congrArg TraceHeader.key hmem
  found key v := by
    refine ⟨nofun, fun ⟨hne, hmem⟩ => ?_⟩
    simp only [HeaderState.new, List.mem_cons, List.not_mem_nil, or_false, or_self] at hmem
    exact absurd (congrArg TraceHeader.key hmem) hne

section

variable {s : HeaderState} {call : SetCall}

theorem of_find {traceHeader : List TraceHeader} {key : Bytes} {slot : TraceHeader}
    (h : (traceHeader.find? fun slot =>
      decide (slot.key.length = key.length ∧ cString slot.key = cString key)) = some slot) :
    slot ∈ traceHeader ∧ slot.key.length = key.length ∧ cString slot.key = cString key := by
  have hslot := List.find?_some h
  exact ⟨List.mem_of_find?_eq_some h, of_decide_eq_true hslot⟩

theorem Slots.find_eq_lastSet (h : Slots s) (key : Bytes) :
    traceContextFindTraceHeader s.traceHeader key = s.lastSet key := by
  refine Option.ext fun v => ?_
  rw [h.found, traceContextFindTraceHeader]
  split_ifs with hkey
  · exact ⟨nofun, fun hmem => absurd hkey hmem.1⟩
  refine ⟨fun hfind => ⟨hkey, ?_⟩, fun ⟨_, hmem⟩ => ?_⟩
  · obtain ⟨slot, hslot, rfl⟩ := Option.map_eq_some_iff.mp hfind
    obtain ⟨hmem, hlength, hstring⟩ := of_find hslot
    obtain rfl := eq_of_plain (h.plain slot hmem) hlength hstring
    exact hmem
  · have hsome : (s.traceHeader.find? fun slot =>
        decide (slot.key.length = key.length ∧ cString slot.key = cString key)).isSome := by
      rw [List.find?_isSome]
      exact ⟨_, hmem, decide_eq_true ⟨rfl, rfl⟩⟩
    obtain ⟨slot, hfind⟩ := Option.isSome_iff_exists.mp hsome
    obtain ⟨hmem', hlength, hstring⟩ := of_find hfind
    have hslot : slot.key = key := eq_of_plain (h.plain slot hmem') hlength hstring
    obtain ⟨i, hi⟩ := List.mem_iff_getElem?.mp hmem
    obtain ⟨j, hj⟩ := List.mem_iff_getElem?.mp hmem'
    obtain rfl := h.distinct i j _ _ hi hj hslot.symm hkey
    obtain rfl := Option.some.inj (hi.symm.trans hj)
    exact Option.map_eq_some_iff.mpr ⟨_, hfind, rfl⟩

theorem Slots.good (h : Slots s) : s.Good :=
  ⟨(nodup_keys_iff s.traceHeader).mpr h.distinct, h.find_eq_lastSet⟩

theorem next_of_accepted (h : call.Accepted s.traceHeader) :
    ∃ i, findEmptyOrExistingSlot s.traceHeader call = some i ∧
      s.set call = ⟨s.traceHeader.set i ⟨call.name, call.traceValue⟩,
        Function.update s.lastSet call.name (some call.traceValue)⟩ := by
  obtain ⟨i, hi, hset⟩ := set_of_accepted h
  refine ⟨i, hi, ?_⟩
  rw [HeaderState.set, hset]
  rfl

theorem set_of_refused (h : ¬call.Accepted s.traceHeader) : s.set call = s := by
  rw [HeaderState.set, set_of_not_accepted h]
  rfl

theorem getElem?_set_iff {xs : List TraceHeader} {i j : ℕ} {x a : TraceHeader}
    (hi : i < xs.length) :
    (xs.set i x)[j]? = some a ↔ (j = i ∧ a = x) ∨ (j ≠ i ∧ xs[j]? = some a) := by
  rw [List.getElem?_set]
  by_cases hij : i = j
  · subst hij
    rw [if_pos rfl, if_pos hi]
    simp [eq_comm]
  · rw [if_neg hij]
    simp [Ne.symm hij]

/-- The slot that an accepted header gets: it has its key, or is free while no slot has it. -/
theorem Slots.slot_of_ok (h : Slots s) (hok : call.Ok s.traceHeader)
    (hacc : call.Accepted s.traceHeader) {i : ℕ}
    (hi : findEmptyOrExistingSlot s.traceHeader call = some i) :
    ∃ slot, s.traceHeader[i]? = some slot ∧ (slot.key = [] ∨ slot.key = call.name) ∧
      ∀ j other, j ≠ i → s.traceHeader[j]? = some other → other.key ≠ call.name := by
  obtain ⟨⟨slot, hslot, hfree⟩, hfirst⟩ := findEmptyOrExistingSlot_eq_some hi
  obtain ⟨hplain, hseen⟩ := hok hacc
  by_cases hkey : slot.key = []
  · refine ⟨slot, hslot, Or.inl hkey, fun j other hj hother hname => ?_⟩
    rcases hseen j other hother hname with hsees | hfull
    · rcases Nat.lt_or_gt_of_ne hj with hlt | hlt
      · exact Bool.false_ne_true ((hfirst j other hlt hother).2.symm.trans hsees)
      · exact hacc.name_ne (hname.symm.trans (h.front i j slot other hlt hslot hother hkey))
    · exact hfull slot (List.mem_of_getElem? hslot) hkey
  · have hname : slot.key = call.name := eq_of_sees hplain (hfree.resolve_left hkey)
    refine ⟨slot, hslot, Or.inr hname, fun j other hj hother hother' => hj ?_⟩
    exact h.distinct j i other slot hother hslot (hother'.trans hname.symm)
      (hother' ▸ hacc.name_ne)

/-- The value that was set last is in the slot that the header got, and the others stay. -/
theorem Slots.found_set (h : Slots s) (hname : call.name ≠ []) {i : ℕ} {slot : TraceHeader}
    (hslot : s.traceHeader[i]? = some slot) (hkey : slot.key = [] ∨ slot.key = call.name)
    (hother : ∀ j other, j ≠ i → s.traceHeader[j]? = some other → other.key ≠ call.name)
    (key v : Bytes) :
    Function.update s.lastSet call.name (some call.traceValue) key = some v ↔
      key ≠ [] ∧ ⟨key, v⟩ ∈ s.traceHeader.set i ⟨call.name, call.traceValue⟩ := by
  obtain ⟨hlt, -⟩ := List.getElem?_eq_some_iff.mp hslot
  rw [List.mem_iff_getElem?]
  by_cases hset : key = call.name
  · subst hset
    rw [Function.update_self]
    refine ⟨fun hv => ⟨hname, i, (getElem?_set_iff hlt).mpr (Or.inl ⟨rfl, ?_⟩)⟩,
      fun ⟨_, j, hj⟩ => ?_⟩
    · rw [Option.some.inj hv]
    · rcases (getElem?_set_iff hlt).mp hj with ⟨-, hnew⟩ | ⟨hne, hj'⟩
      · have hv : v = call.traceValue := congrArg TraceHeader.value hnew
        rw [hv]
      · exact absurd rfl (hother j _ hne hj')
  · rw [Function.update_of_ne hset, h.found, List.mem_iff_getElem?]
    refine and_congr_right fun hne => ⟨fun ⟨j, hj⟩ => ⟨j, ?_⟩, fun ⟨j, hj⟩ => ⟨j, ?_⟩⟩
    · refine (getElem?_set_iff hlt).mpr (Or.inr ⟨?_, hj⟩)
      rintro rfl
      obtain rfl := Option.some.inj (hslot.symm.trans hj)
      exact hkey.elim hne hset
    · rcases (getElem?_set_iff hlt).mp hj with ⟨-, hnew⟩ | ⟨-, hj'⟩
      · exact absurd (congrArg TraceHeader.key hnew) hset
      · exact hj'

/-- The step lemma. -/
theorem Slots.set (h : Slots s) (hok : call.Ok s.traceHeader) : Slots (s.set call) := by
  by_cases hacc : call.Accepted s.traceHeader
  case neg =>
    rw [set_of_refused hacc]
    exact h
  obtain ⟨i, hi, hnext⟩ := next_of_accepted hacc
  obtain ⟨slot, hslot, hkey, hother⟩ := h.slot_of_ok hok hacc hi
  have hfirst := (findEmptyOrExistingSlot_eq_some hi).2
  obtain ⟨hlt, -⟩ := List.getElem?_eq_some_iff.mp hslot
  rw [hnext]
  refine ⟨fun j k a b ha hb hab hne => ?_, fun a ha => ?_, fun j k a b hjk ha hb hfree => ?_,
    h.found_set hacc.name_ne hslot hkey hother⟩
  · rcases (getElem?_set_iff hlt).mp ha with ⟨hj, hnew⟩ | ⟨hj, ha'⟩ <;>
      rcases (getElem?_set_iff hlt).mp hb with ⟨hk, hnew'⟩ | ⟨hk, hb'⟩
    · rw [hj, hk]
    · rw [hnew] at hab
      exact absurd hab.symm (hother k b hk hb')
    · rw [hnew'] at hab
      exact absurd hab (hother j a hj ha')
    · exact h.distinct j k a b ha' hb' hab hne
  · obtain ⟨j, hj⟩ := List.mem_iff_getElem?.mp ha
    rcases (getElem?_set_iff hlt).mp hj with ⟨-, rfl⟩ | ⟨-, hj'⟩
    · exact (hok hacc).1
    · exact h.plain a (List.mem_of_getElem? hj')
  · rcases (getElem?_set_iff hlt).mp ha with ⟨-, hnew⟩ | ⟨-, ha'⟩
    · rw [hnew] at hfree
      exact absurd hfree hacc.name_ne
    rcases (getElem?_set_iff hlt).mp hb with ⟨hk, -⟩ | ⟨-, hb'⟩
    · exact absurd hfree (hfirst j a (hk ▸ hjk) ha').1
    · exact h.front j k a b hjk ha' hb' hfree

/-- A call that does not go well leads to two slots with one key, or to a key that is found and
was never set. -/
theorem Slots.ok_of_good (h : Slots s) (hgood : (s.set call).Good) : call.Ok s.traceHeader := by
  intro hacc
  obtain ⟨i, hi, hnext⟩ := next_of_accepted hacc
  obtain ⟨⟨slot, hslot, hfree⟩, -⟩ := findEmptyOrExistingSlot_eq_some hi
  obtain ⟨hlt, -⟩ := List.getElem?_eq_some_iff.mp hslot
  rw [hnext] at hgood
  have hplain : Plain call.name := by
    by_contra hnot
    obtain ⟨key, hne, hnil, hnot', hlength, hstring⟩ := exists_same_of_not_plain hnot
    have hunset : s.lastSet key = none := by
      rw [Option.eq_none_iff_forall_ne_some]
      intro v hv
      exact hnot' (h.plain _ ((h.found key v).mp hv).2)
    have hfound : traceContextFindTraceHeader
        (s.traceHeader.set i ⟨call.name, call.traceValue⟩) key =
          Function.update s.lastSet call.name (some call.traceValue) key := hgood.found key
    rw [Function.update_of_ne hne, hunset, traceContextFindTraceHeader, if_neg hnil,
      Option.map_eq_none_iff, List.find?_eq_none] at hfound
    exact hfound _ (List.mem_of_getElem? ((getElem?_set_iff hlt).mpr (Or.inl ⟨rfl, rfl⟩)))
      (decide_eq_true ⟨hlength, hstring⟩)
  refine ⟨hplain, fun j other hother hname => ?_⟩
  by_contra hbad
  rw [not_or] at hbad
  rcases hfree with hkey | hsees
  · have hij : j ≠ i := by
      rintro rfl
      obtain rfl := Option.some.inj (hslot.symm.trans hother)
      exact hacc.name_ne (hname.symm.trans hkey)
    refine hij ((nodup_keys_iff _).mp hgood.distinct j i other _
      ((getElem?_set_iff hlt).mpr (Or.inr ⟨hij, hother⟩))
      ((getElem?_set_iff hlt).mpr (Or.inl ⟨rfl, rfl⟩)) hname (hname ▸ hacc.name_ne))
  · have hslotname : slot.key = call.name := eq_of_sees hplain hsees
    obtain rfl := h.distinct i j slot other hslot hother (hslotname.trans hname.symm)
      (hslotname ▸ hacc.name_ne)
    obtain rfl := Option.some.inj (hslot.symm.trans hother)
    exact hbad.1 hsees

/-! ### Injected headers -/

theorem Slots.lastSet_set_iff (h : Slots s) (hname : call.name ≠ []) :
    (s.set call).lastSet call.name = some call.traceValue ↔
      call.Accepted s.traceHeader ∨ ⟨call.name, call.traceValue⟩ ∈ s.traceHeader := by
  by_cases hacc : call.Accepted s.traceHeader
  · obtain ⟨i, -, hnext⟩ := next_of_accepted hacc
    rw [hnext]
    exact ⟨fun _ => Or.inl hacc, fun _ => Function.update_self _ _ _⟩
  · rw [set_of_refused hacc, h.found]
    exact ⟨fun hmem => Or.inr hmem.2, fun hor => ⟨hname, hor.resolve_left hacc⟩⟩

theorem lastSet_set_of_ne {key : Bytes} (hne : key ≠ call.name) :
    (s.set call).lastSet key = s.lastSet key := by
  show (if (traceContextSetTraceHeader s.traceHeader call).1 then
    Function.update s.lastSet call.name (some call.traceValue) else s.lastSet) key = _
  split
  · exact Function.update_of_ne hne _ _
  · rfl

theorem lastSet_foldl_of_not_mem {key : Bytes} {calls : List SetCall}
    (hkey : key ∉ calls.map SetCall.name) :
    (calls.foldl HeaderState.set s).lastSet key = s.lastSet key := by
  induction calls generalizing s with
  | nil => rfl
  | cons call calls ih =>
    rw [List.map_cons, List.mem_cons, not_or] at hkey
    exact (ih hkey.2).trans (lastSet_set_of_ne hkey.1)

theorem after_append (calls calls' : List SetCall) :
    after (calls ++ calls') = calls'.foldl HeaderState.set (after calls) := List.foldl_append

theorem headerNames_nodup (type : TracePropagationType) : type.headerNames.Nodup := by
  cases type <;> decide

theorem headerNames_plain (type : TracePropagationType) :
    ∀ name ∈ type.headerNames, name ≠ [] ∧ 0 ∉ name.dropLast := by
  cases type <;> decide

/-- The headers of an injection can be found after it exactly when each got a slot in it. -/
theorem injected_iff (injection : Injection) {calls : List SetCall}
    (hslots : ∀ pre, pre <+: calls ++ injection.headers → Slots (after pre)) :
    (∀ call ∈ injection.headers, call.traceValue ≠ [] →
      traceContextFindTraceHeader (after (calls ++ injection.headers)).traceHeader call.name =
        some call.traceValue) ↔
      ∀ pre call, pre ++ [call] <+: injection.headers →
        call.Fits (after (calls ++ pre)).traceHeader := by
  have hnodup : (injection.headers.map SetCall.name).Nodup :=
    injection.documented.nodup (headerNames_nodup _)
  have hplain : ∀ call ∈ injection.headers, call.name ≠ [] := fun call hcall =>
    (headerNames_plain _ _ (injection.documented.subset (List.mem_map_of_mem hcall))).1
  -- a header that was set stays, as no other one of the injection has its name
  have hcall : ∀ pre call post, injection.headers = pre ++ call :: post →
      (traceContextFindTraceHeader (after (calls ++ injection.headers)).traceHeader call.name =
          some call.traceValue ↔
        call.Accepted (after (calls ++ pre)).traceHeader ∨
          ⟨call.name, call.traceValue⟩ ∈ (after (calls ++ pre)).traceHeader) := by
    intro pre call post heq
    have hpre : Slots (after (calls ++ pre)) := by
      refine hslots _ ?_
      rw [heq, List.prefix_append_right_inj]
      exact List.prefix_append pre _
    have hpost : call.name ∉ post.map SetCall.name := by
      rw [heq, List.map_append, List.map_cons] at hnodup
      exact (List.nodup_cons.mp (List.nodup_append.mp hnodup).2.1).1
    rw [(hslots _ (List.prefix_refl _)).find_eq_lastSet, heq, ← List.append_assoc, after_append,
      List.foldl_cons, lastSet_foldl_of_not_mem hpost]
    exact hpre.lastSet_set_iff (hplain call (heq ▸ List.mem_append_right pre List.mem_cons_self))
  constructor
  · rintro hall pre call ⟨post, heq⟩ hvalue
    rw [List.append_assoc, List.singleton_append] at heq
    have hmem : call ∈ injection.headers := heq ▸ List.mem_append_right pre List.mem_cons_self
    exact (hcall pre call post heq.symm).mp (hall call hmem hvalue)
  · intro hall call hmem hvalue
    obtain ⟨pre, post, heq⟩ := List.append_of_mem hmem
    refine (hcall pre call post heq).mpr (hall pre call ⟨post, ?_⟩ hvalue)
    rw [heq, List.append_assoc, List.singleton_append]

end

theorem flatMap_calls_initial {before ops : List HeaderOp} {injection : Injection}
    (h : before ++ [.inject injection] <+: ops) :
    before.flatMap HeaderOp.calls ++ injection.headers <+: ops.flatMap HeaderOp.calls := by
  obtain ⟨rest, rfl⟩ := h
  rw [List.flatMap_append, List.flatMap_append, List.flatMap_singleton]
  exact List.prefix_append _ _

/-- The slots are what they are meant to be in every state exactly when every call goes well. -/
theorem trace_headers_iff (ops : List HeaderOp) : KeepsHeaders ops ↔ SetsWell ops := by
  have hgood : (∀ calls, calls <+: ops.flatMap HeaderOp.calls → (after calls).Good) ↔
      ∀ calls call, calls ++ [call] <+: ops.flatMap HeaderOp.calls →
        call.Ok (after calls).traceHeader :=
    Run.foldl_good_iff slots_new (fun _ h => h.good) (fun _ _ h hok => h.set hok)
      fun _ _ h hgood => h.ok_of_good hgood
  have hslots (hok : ∀ calls call, calls ++ [call] <+: ops.flatMap HeaderOp.calls →
      call.Ok (after calls).traceHeader) (calls : List SetCall)
      (hcalls : calls <+: ops.flatMap HeaderOp.calls) : Slots (after calls) :=
    Run.foldl_inv_of_ok slots_new (fun _ _ h hok => h.set hok) hok calls hcalls
  constructor
  · intro h
    have hok := hgood.mp h.good
    refine ⟨hok, fun before injection hinitial => ?_⟩
    refine (injected_iff injection fun pre hpre =>
      hslots hok pre (hpre.trans (flatMap_calls_initial hinitial))).mp ?_
    have hinjected := h.injected before injection hinitial
    rw [List.flatMap_append, List.flatMap_singleton] at hinjected
    exact hinjected
  · intro h
    refine ⟨hgood.mpr h.ok, fun calls call _ hrefused => ?_, fun before injection hinitial => ?_⟩
    · by_cases hacc : call.Accepted (after calls).traceHeader
      · obtain ⟨i, -, hset⟩ := set_of_accepted hacc
        rw [hset] at hrefused
        cases hrefused
      · rw [set_of_not_accepted hacc]
    · rw [List.flatMap_append, List.flatMap_singleton]
      exact (injected_iff injection fun pre hpre =>
        hslots h.ok pre (hpre.trans (flatMap_calls_initial hinitial))).mpr
          (h.fits before injection hinitial)

/-! ### Injecting into a new trace context -/

/-- What a header leaves in its slot. -/
def SetCall.stored (call : SetCall) : TraceHeader := ⟨call.name, call.traceValue⟩

/-- A header with memory for it that is not stored gets the first free slot. -/
theorem set_next {s : HeaderState} {call : SetCall} {used rest : List TraceHeader}
    {slot : TraceHeader} (hslots : s.traceHeader = used ++ slot :: rest) (hfree : slot.key = [])
    (hused : ∀ other ∈ used, other.key ≠ [] ∧ other.key ≠ call.name) (hplain : Plain call.name)
    (hacc : call.Accepted s.traceHeader) :
    (s.set call).traceHeader = used ++ call.stored :: rest := by
  obtain ⟨i, hi, hnext⟩ := next_of_accepted hacc
  obtain ⟨⟨found, hfound, hempty⟩, hfirst⟩ := findEmptyOrExistingSlot_eq_some hi
  have hget : s.traceHeader[used.length]? = some slot := by
    rw [hslots, List.getElem?_append_right (Nat.le_refl _), Nat.sub_self]
    rfl
  have hindex : i = used.length := by
    rcases Nat.lt_trichotomy i used.length with hlt | heq | hgt
    · rw [hslots, List.getElem?_append_left hlt] at hfound
      obtain ⟨hne, hname⟩ := hused found (List.mem_of_getElem? hfound)
      exact absurd (eq_of_sees hplain (hempty.resolve_left hne)) hname
    · exact heq
    · exact absurd hfree (hfirst used.length slot hgt hget).1
  rw [hnext, hindex, hslots, List.set_append_right _ _ (Nat.le_refl _), Nat.sub_self]
  rfl

/-- A header that has all it needs but a slot. -/
structure SetCall.Ready (call : SetCall) : Prop where
  name_ne : call.name ≠ []
  plain : Plain call.name
  value_ne : call.traceValue ≠ []
  keyAllocated : call.keyAllocated = true
  valueAllocated : call.valueAllocated = true

/-- The slots after some headers with different names. -/
def filled (calls : List SetCall) : List TraceHeader :=
  calls.map SetCall.stored ++ List.replicate (2 - calls.length) ⟨[], []⟩

theorem filled_of_lt {calls : List SetCall} (hlength : calls.length < 2) :
    filled calls = calls.map SetCall.stored ++
      ⟨[], []⟩ :: List.replicate (2 - (calls.length + 1)) ⟨[], []⟩ := by
  obtain ⟨k, hk⟩ : ∃ k, 2 - calls.length = k + 1 := ⟨1 - calls.length, by omega⟩
  rw [filled, show 2 - (calls.length + 1) = k by omega, hk, List.replicate_succ]

theorem SetCall.Ready.accepted {call : SetCall} (h : call.Ready) {calls : List SetCall}
    (hlength : calls.length < 2) : call.Accepted (filled calls) := by
  refine ⟨h.name_ne, h.value_ne, h.keyAllocated, h.valueAllocated, calls.length, ⟨[], []⟩, ?_,
    Or.inl rfl⟩
  have hlen : (calls.map SetCall.stored).length = calls.length := List.length_map _
  rw [filled_of_lt hlength, List.getElem?_append_right (hlen ▸ Nat.le_refl _), hlen, Nat.sub_self]
  rfl

/-- As long as there are slots, each new header takes the next one. -/
theorem after_eq {calls : List SetCall} (hlength : calls.length ≤ 2)
    (hnodup : (calls.map SetCall.name).Nodup) (hready : ∀ call ∈ calls, call.Ready) :
    (after calls).traceHeader = filled calls := by
  induction calls using List.reverseRecOn with
  | nil => rfl
  | append_singleton calls call ih =>
    rw [List.length_append, List.length_singleton] at hlength
    rw [List.map_append, List.nodup_append] at hnodup
    have hbefore := ih (by omega) hnodup.1 fun c hc => hready c (List.mem_append_left _ hc)
    have hcall : call.Ready := hready call (List.mem_append_right _ List.mem_cons_self)
    have hacc : call.Accepted (after calls).traceHeader := hbefore ▸ hcall.accepted hlength
    rw [filled_of_lt hlength] at hbefore
    have hnext := set_next hbefore rfl (fun other hother => ?_) hcall.plain hacc
    · rw [after_append, filled, List.length_append, List.length_singleton, List.map_append,
        List.append_assoc]
      exact hnext
    · obtain ⟨c, hc, rfl⟩ := List.mem_map.mp hother
      exact ⟨(hready c (List.mem_append_left _ hc)).name_ne,
        hnodup.2.2 _ (List.mem_map_of_mem hc) _ List.mem_cons_self⟩

section

variable {headers pre : List SetCall} {call : SetCall}

/-- The slots before the header at a place, none of which has its name. -/
theorem slots_before (hnodup : (headers.map SetCall.name).Nodup)
    (hready : ∀ call ∈ headers, call.Ready) (h : pre ++ [call] <+: headers)
    (hlength : pre.length ≤ 2) :
    (after pre).traceHeader = filled pre ∧ ∀ slot ∈ filled pre, slot.key ≠ call.name := by
  obtain ⟨post, rfl⟩ := h
  rw [List.map_append, List.map_append, List.append_assoc, List.nodup_append] at hnodup
  have hname : call.name ∉ pre.map SetCall.name := fun hmem =>
    hnodup.2.2 _ hmem _ (List.mem_append_left _ List.mem_cons_self) rfl
  refine ⟨after_eq hlength hnodup.1 fun c hc =>
    hready c (List.mem_append_left _ (List.mem_append_left _ hc)), fun slot hslot heq => ?_⟩
  rcases List.mem_append.mp hslot with hslot | hslot
  · obtain ⟨c, hc, rfl⟩ := List.mem_map.mp hslot
    exact hname (heq ▸ List.mem_map_of_mem hc)
  · rw [List.eq_of_mem_replicate hslot] at heq
    exact (hready call
      (List.mem_append_left _ (List.mem_append_right _ List.mem_cons_self))).name_ne heq.symm

/-- With two headers stored there is no place for another one. -/
theorem not_fits_third (hnodup : (headers.map SetCall.name).Nodup)
    (hready : ∀ call ∈ headers, call.Ready) (h : pre ++ [call] <+: headers)
    (hlength : pre.length = 2) : ¬call.Fits (after pre).traceHeader := by
  have hcall : call.Ready := hready call (h.subset (List.mem_append_right _ List.mem_cons_self))
  obtain ⟨hslots, hother⟩ := slots_before hnodup hready h (Nat.le_of_eq hlength)
  have hused : ∀ slot ∈ filled pre, slot.key ≠ [] := by
    intro slot hslot
    rw [filled, hlength, Nat.sub_self, List.replicate_zero, List.append_nil] at hslot
    obtain ⟨c, hc, rfl⟩ := List.mem_map.mp hslot
    exact (hready c (h.subset (List.mem_append_left _ hc))).name_ne
  intro hfits
  rw [hslots] at hfits
  rcases hfits hcall.value_ne with hacc | hstored
  · obtain ⟨i, slot, hslot, hfree⟩ := hacc.slot
    have hmem := List.mem_of_getElem? hslot
    exact hother slot hmem (eq_of_sees hcall.plain (hfree.resolve_left (hused slot hmem)))
  · exact hother _ hstored rfl

end

/-- With memory for all of them, and no empty one, the headers that are injected into a new
trace context can be found exactly when there are no more than two. -/
theorem inject_new_iff (injection : Injection)
    (hgiven : ∀ call ∈ injection.headers, call.traceValue ≠ [] ∧ call.keyAllocated = true ∧
      call.valueAllocated = true) :
    SetsWell [.inject injection] ↔ injection.headers.length ≤ 2 := by
  have hnodup : (injection.headers.map SetCall.name).Nodup :=
    injection.documented.nodup (headerNames_nodup _)
  have hready : ∀ call ∈ injection.headers, call.Ready := by
    intro call hcall
    obtain ⟨hname, hplain⟩ :=
      headerNames_plain _ _ (injection.documented.subset (List.mem_map_of_mem hcall))
    obtain ⟨hvalue, hkey, hmemory⟩ := hgiven call hcall
    exact ⟨hname, hplain, hvalue, hkey, hmemory⟩
  constructor
  · intro h
    by_contra hlong
    have hlt : 2 < injection.headers.length := Nat.lt_of_not_le hlong
    have hinitial : injection.headers.take 2 ++ [injection.headers[2]] <+: injection.headers := by
      rw [List.take_append_getElem]
      exact List.take_prefix _ _
    have htwo : (injection.headers.take 2).length = 2 := by
      rw [List.length_take]
      omega
    exact not_fits_third hnodup hready hinitial htwo
      (h.fits [] injection (List.prefix_refl _) _ _ hinitial)
  · intro hshort
    have hlt : ∀ pre call, pre ++ [call] <+: injection.headers → pre.length < 2 := by
      intro pre call hinitial
      have hle := hinitial.length_le
      rw [List.length_append, List.length_singleton] at hle
      omega
    constructor
    · intro pre call hinitial hacc
      rw [List.flatMap_singleton] at hinitial
      obtain ⟨hslots, hother⟩ :=
        slots_before hnodup hready hinitial (Nat.le_of_lt (hlt pre call hinitial))
      refine ⟨(hready call (hinitial.subset (List.mem_append_right _ List.mem_cons_self))).plain,
        fun i slot hslot hname => ?_⟩
      rw [hslots] at hslot
      exact absurd hname (hother slot (List.mem_of_getElem? hslot))
    · rintro before inj ⟨rest, heq⟩ pre call hinitial _
      cases before with
      | nil =>
        obtain rfl := HeaderOp.inject.inj (List.cons.inj heq).1
        have hslots :=
          (slots_before hnodup hready hinitial (Nat.le_of_lt (hlt pre call hinitial))).1
        refine Or.inl ?_
        rw [List.flatMap_nil, List.nil_append, hslots]
        exact (hready call (hinitial.subset (List.mem_append_right _ List.mem_cons_self))).accepted
          (hlt pre call hinitial)
      | cons op before =>
        have hlength := congrArg List.length heq
        simp only [List.cons_append, List.length_cons, List.length_append, List.length_nil]
          at hlength
        omega

/-! ### What goes wrong -/

/-- A `Set` with a NUL behind every key, and memory. -/
def plainSet (name value : String) : SetCall :=
  ⟨⟨ascii name, [0]⟩, ascii value, fun _ => [0], true, true⟩

def sampleB3Multi : Injection where
  propagationType := .TracePropagationB3Multi
  headers := [plainSet "X-B3-TraceId" "0af7651916cd43dd8448eb211c80319c",
    plainSet "X-B3-SpanId" "b7ad6b7169203331", plainSet "X-B3-Sampled" "1"]
  documented := List.Sublist.refl _

/-- A key that is set twice, with `x` behind the copy in its slot. -/
def sampleSetTwice : List SetCall :=
  [plainSet "traceparent" "1",
    ⟨⟨ascii "traceparent", [0]⟩, ascii "2", fun _ => [120, 0], true, true⟩]

/-- The third header of B3 has no slot, and a key that `ngx_strcmp` does not see is stored twice. -/
theorem headers_lost :
    ¬KeepsHeaders [.inject sampleB3Multi] ∧ ¬KeepsHeaders (sampleSetTwice.map .set) := by
  constructor
  · intro h
    have hsampled := h.injected [] sampleB3Multi (List.prefix_refl _)
      (plainSet "X-B3-Sampled" "1")
      (List.mem_cons_of_mem _ (List.mem_cons_of_mem _ List.mem_cons_self)) (List.cons_ne_nil _ _)
    revert hsampled
    decide +kernel
  · intro h
    have hdistinct := (h.good sampleSetTwice (List.prefix_refl _)).distinct
    revert hdistinct
    decide +kernel

end Nginx

/-
What the webserver module for nginx reports of a response (`fillResponsePayload`).

The tokens of the attribute directive are names and values in turn, and a comma leads to the
next attribute.  A token that starts with `$` stands for the value of a variable, which is a
parameter.

* `fillAttributes_eq` — each group of tokens between commas makes one attribute;
* `attributes_reported_iff` — all that are reported have a name and a value, and are within
  the array, exactly when no group has less than two tokens.
-/
import OtelContrib.NginxWebserver.RequestPayload
import Mathlib.Algebra.Order.Ring.Nat

open Allocation
open Otel.Common (cString)

namespace NginxWebserver

/-! ### The function -/

/-- What the function reads of a request. -/
structure PayloadResponse where
  pool : Bool
  headers_out : PartList NgxTableElt
  locConf : LocConf

/-- `response_payload`, less the status, which is set later. -/
structure NgxResponsePayload where
  response_headers : List HttpHeader
  response_headers_count : ℕ
  otel_attributes : List HttpHeader
  otel_attributes_count : ℕ

/-- A payload that was allocated. -/
def NgxResponsePayload.new : NgxResponsePayload := ⟨[], 0, [], 0⟩

def NGINX_VARIABLE_IDENTIFIER : UInt8 := 36

/-- The token that leads to the next attribute. -/
def isComma (data : Bytes) : Bool := data = ascii ","

section

variable (ngxHttpGetVariable : Bytes → Option Bytes)

/-- The data of a token, a C string: a variable that is not found stays as it is. -/
def attributeData (token : Bytes) : Bytes :=
  if token.head? = some NGINX_VARIABLE_IDENTIFIER then
    cString ((ngxHttpGetVariable token.tail).getD token)
  else cString token

/-- The loop over the tokens, with the number of attributes at its end. -/
def fillAttributes (otel_attributes_idx : ℕ) (isKey : Bool) (otel_attributes : List HttpHeader) :
    List Bytes → Option (ℕ × List HttpHeader)
  | [] => some (otel_attributes_idx + 1, otel_attributes)
  | token :: tokens =>
    let data := attributeData ngxHttpGetVariable token
    if isComma data then fillAttributes (otel_attributes_idx + 1) isKey otel_attributes tokens
    else do
      let otel_attributes ← modifyAt otel_attributes otel_attributes_idx fun slot =>
        if isKey then { slot with name := some data } else { slot with value := some data }
      fillAttributes otel_attributes_idx (!isKey) otel_attributes tokens

/-- The attributes of a request, none without a token. -/
def otelAttributes (attributes : Option (List Bytes)) : Option (ℕ × List HttpHeader) :=
  match attributes with
  | none | some [] => some (0, [])
  | some (token :: tokens) =>
    fillAttributes ngxHttpGetVariable 0 true (newHeaders (((token :: tokens).length + 1) / 3))
      (token :: tokens)

/-- `fillResponsePayload`, `none` where it writes outside of what it allocated. -/
def fillResponsePayload (r : PayloadResponse) : Option NgxResponsePayload :=
  if ¬r.pool then some .new
  else do
    let nelts := r.headers_out.first.length
    let (otel_attributes_count, otel_attributes) ←
      otelAttributes ngxHttpGetVariable r.locConf.attributes
    let (response_headers_count, response_headers) ←
      fill (fun h => some h.httpHeader) 0 (newHeaders nelts) r.headers_out.first
    some ⟨response_headers, response_headers_count, otel_attributes, otel_attributes_count⟩

/-! ### What should be reported -/

/-- `k1 v1 , k2 v2 , ... , kn vn`. -/
def documentedForm : List (Bytes × Bytes) → List Bytes
  | [] => []
  | [(k, v)] => [k, v]
  | (k, v) :: next :: pairs => k :: v :: ascii "," :: documentedForm (next :: pairs)

/-- The attribute of a pair. -/
def attributeOf (pair : Bytes × Bytes) : HttpHeader :=
  ⟨some (attributeData ngxHttpGetVariable pair.1), some (attributeData ngxHttpGetVariable pair.2)⟩

/-- All attributes that are reported are there, with a name and a value, and are the pairs of a
list of the documented form. -/
structure Reported (tokens : List Bytes) (otel_attributes_count : ℕ)
    (otel_attributes : List HttpHeader) : Prop where
  complete : ∀ i < otel_attributes_count, ∃ name value,
    otel_attributes[i]? = some ⟨some name, some value⟩
  documented : ∀ pairs, tokens = documentedForm pairs →
    otel_attributes.take otel_attributes_count = pairs.map (attributeOf ngxHttpGetVariable) ∧
      otel_attributes_count = pairs.length

/-- The tokens between commas, as their data. -/
def attributeGroups (tokens : List Bytes) : List (List Bytes) :=
  (tokens.map (attributeData ngxHttpGetVariable)).splitOnP isComma

/-! ### One group -/

/-- What a token writes, and what the next one is. -/
def writeToken (s : Bool × HttpHeader) (data : Bytes) : Bool × HttpHeader :=
  (!s.1, if s.1 then { s.2 with name := some data } else { s.2 with value := some data })

/-- What a group writes. -/
def writeGroup (isKey : Bool) (group : List Bytes) : Bool × HttpHeader :=
  group.foldl writeToken (isKey, ⟨none, none⟩)

/-- The attributes of some groups. -/
def groupAttributes (isKey : Bool) : List (List Bytes) → List HttpHeader
  | [] => []
  | group :: groups =>
    (writeGroup isKey group).2 :: groupAttributes (writeGroup isKey group).1 groups

end

/-- An attribute with a name and a value. -/
def HttpHeader.Complete (h : HttpHeader) : Prop := ∃ name value, h = ⟨some name, some value⟩

theorem complete_writeToken {s : Bool × HttpHeader} (h : s.2.Complete) (data : Bytes) :
    (writeToken s data).2.Complete := by
  obtain ⟨isKey, slot⟩ := s
  obtain ⟨name, value, rfl⟩ := h
  cases isKey
  · exact ⟨name, data, rfl⟩
  · exact ⟨data, value, rfl⟩

theorem complete_foldl {s : Bool × HttpHeader} (h : s.2.Complete) (group : List Bytes) :
    (group.foldl writeToken s).2.Complete := by
  induction group generalizing s with
  | nil => exact h
  | cons data group ih => exact ih (complete_writeToken h data)

/-- Of two tokens one is a name and one a value. -/
theorem complete_writeGroup_iff (isKey : Bool) (group : List Bytes) :
    (writeGroup isKey group).2.Complete ↔ 2 ≤ group.length := by
  match group with
  | [] => exact iff_of_false nofun (by simp)
  | [data] => cases isKey <;> exact iff_of_false nofun (by simp)
  | data :: data' :: group =>
    refine iff_of_true (complete_foldl ?_ group) (by simp)
    cases isKey
    · exact ⟨data', data, rfl⟩
    · exact ⟨data, data', rfl⟩

theorem length_groupAttributes (isKey : Bool) (groups : List (List Bytes)) :
    (groupAttributes isKey groups).length = groups.length := by
  induction groups generalizing isKey with
  | nil => rfl
  | cons group groups ih => exact congrArg Nat.succ (ih _)

theorem complete_groupAttributes_iff (isKey : Bool) (groups : List (List Bytes)) :
    (∀ h ∈ groupAttributes isKey groups, h.Complete) ↔ ∀ group ∈ groups, 2 ≤ group.length := by
  induction groups generalizing isKey with
  | nil => simp [groupAttributes]
  | cons group groups ih =>
    rw [groupAttributes, List.forall_mem_cons, List.forall_mem_cons, complete_writeGroup_iff, ih]

/-- A name and a value make one attribute. -/
theorem groupAttributes_pairs (pairs : List (Bytes × Bytes)) :
    groupAttributes true (pairs.map fun pair => [pair.1, pair.2]) =
      pairs.map fun pair => ⟨some pair.1, some pair.2⟩ := by
  induction pairs with
  | nil => rfl
  | cons pair pairs ih => exact congrArg (_ :: ·) ih

/-! ### The loop -/

section

variable {ngxHttpGetVariable : Bytes → Option Bytes} {isKey : Bool} {tokens : List Bytes}

theorem attributeGroups_comma {token : Bytes}
    (h : isComma (attributeData ngxHttpGetVariable token) = true) (tokens : List Bytes) :
    attributeGroups ngxHttpGetVariable (token :: tokens) =
      [] :: attributeGroups ngxHttpGetVariable tokens := by
  rw [attributeGroups, List.map_cons, List.splitOnP_cons_eq_if_modifyHead, if_pos h]
  rfl

theorem attributeGroups_cons {token : Bytes}
    (h : isComma (attributeData ngxHttpGetVariable token) = false) (tokens : List Bytes) :
    attributeGroups ngxHttpGetVariable (token :: tokens) =
      (attributeGroups ngxHttpGetVariable tokens).modifyHead
        (attributeData ngxHttpGetVariable token :: ·) := by
  rw [attributeGroups, List.map_cons, List.splitOnP_cons_eq_if_modifyHead, if_neg (by simp [h])]
  rfl

theorem attributeGroups_ne_nil (ngxHttpGetVariable : Bytes → Option Bytes) (tokens : List Bytes) :
    ∃ group groups, attributeGroups ngxHttpGetVariable tokens = group :: groups :=
  List.exists_cons_of_ne_nil (List.splitOnP_ne_nil _ _)

/-- Where the groups fit, the attributes of the rest of a group and of the groups behind it are
written. -/
theorem fillAttributes_eq {group : List Bytes} {groups : List (List Bytes)}
    (hgroups : attributeGroups ngxHttpGetVariable tokens = group :: groups) {idx n : ℕ}
    (written : List HttpHeader) (slot : HttpHeader) (hidx : idx = written.length)
    (hfits : groups.length ≤ n) :
    fillAttributes ngxHttpGetVariable idx isKey (written ++ slot :: newHeaders n) tokens =
      some (idx + 1 + groups.length, written ++ (group.foldl writeToken (isKey, slot)).2 ::
        (groupAttributes (group.foldl writeToken (isKey, slot)).1 groups ++
          newHeaders (n - groups.length))) := by
  induction tokens generalizing isKey group groups idx n written slot with
  | nil =>
    cases hgroups
    rfl
  | cons token tokens ih =>
    obtain ⟨next, rest, hnext⟩ := attributeGroups_ne_nil ngxHttpGetVariable tokens
    rw [fillAttributes]
    cases hcomma : isComma (attributeData ngxHttpGetVariable token) with
    | true =>
      rw [attributeGroups_comma hcomma, hnext] at hgroups
      cases hgroups
      -- the next group is written into the next slot
      obtain ⟨m, rfl⟩ := Nat.exists_eq_succ_of_ne_zero (Nat.ne_zero_of_lt (Nat.lt_of_succ_le hfits))
      have hrest : fillAttributes ngxHttpGetVariable (idx + 1) isKey
          (written ++ [slot] ++ ⟨none, none⟩ :: newHeaders m) tokens = _ :=
        ih hnext (written ++ [slot]) ⟨none, none⟩ (by rw [hidx, List.length_append]; rfl)
          (Nat.le_of_succ_le_succ hfits)
      rw [List.append_assoc, List.append_assoc] at hrest
      refine (if_pos rfl).trans (hrest.trans ?_)
      rw [List.length_cons, Nat.succ_sub_succ, Nat.add_right_comm (idx + 1),
        Nat.add_assoc (idx + 1)]
      rfl
    | false =>
      rw [attributeGroups_cons hcomma, hnext] at hgroups
      cases hgroups
      refine (if_neg Bool.false_ne_true).trans ?_
      rw [modifyAt_append hidx]
      exact ih hnext written _ hidx hfits

/-- The number of attributes is the number of groups, whether or not they fit. -/
theorem fillAttributes_some {idx count : ℕ} {slots slots' : List HttpHeader}
    (h : fillAttributes ngxHttpGetVariable idx isKey slots tokens = some (count, slots')) :
    count = idx + (attributeGroups ngxHttpGetVariable tokens).length ∧
      slots'.length = slots.length := by
  induction tokens generalizing idx isKey slots with
  | nil =>
    cases h
    exact ⟨rfl, rfl⟩
  | cons token tokens ih =>
    rw [fillAttributes] at h
    cases hcomma : isComma (attributeData ngxHttpGetVariable token) with
    | true =>
      rw [hcomma] at h
      obtain ⟨hcount, hlength⟩ := ih h
      rw [attributeGroups_comma hcomma, List.length_cons]
      exact ⟨by omega, hlength⟩
    | false =>
      rw [hcomma] at h
      obtain ⟨slots₁, hslots₁, hrest⟩ := Option.bind_eq_some_iff.mp h
      obtain ⟨hcount, hlength⟩ := ih hrest
      rw [attributeGroups_cons hcomma, List.length_modifyHead]
      exact ⟨hcount, hlength.trans (length_modifyAt hslots₁)⟩

/-- Every token is in a group, or is a comma between two. -/
theorem sum_attributeGroups (ngxHttpGetVariable : Bytes → Option Bytes) (tokens : List Bytes) :
    ((attributeGroups ngxHttpGetVariable tokens).map List.length).sum +
      (attributeGroups ngxHttpGetVariable tokens).length = tokens.length + 1 := by
  induction tokens with
  | nil => rfl
  | cons token tokens ih =>
    cases hcomma : isComma (attributeData ngxHttpGetVariable token) with
    | true =>
      rw [attributeGroups_comma hcomma, List.map_cons, List.sum_cons, List.length_cons,
        List.length_cons, ← ih, List.length_nil]
      omega
    | false =>
      obtain ⟨group, groups, hgroups⟩ := attributeGroups_ne_nil ngxHttpGetVariable tokens
      rw [attributeGroups_cons hcomma, hgroups, List.length_cons, ← ih, hgroups,
        List.modifyHead_cons, List.map_cons, List.map_cons, List.sum_cons, List.sum_cons,
        List.length_cons, List.length_cons, List.length_cons]
      omega

/-- There is room for as many groups as have two tokens each. -/
theorem attributeGroups_fit
    (h : ∀ group ∈ attributeGroups ngxHttpGetVariable tokens, 2 ≤ group.length) :
    (attributeGroups ngxHttpGetVariable tokens).length ≤ (tokens.length + 1) / 3 := by
  have htokens := sum_attributeGroups ngxHttpGetVariable tokens
  have hsum : 2 * (attributeGroups ngxHttpGetVariable tokens).length ≤
      ((attributeGroups ngxHttpGetVariable tokens).map List.length).sum := by
    generalize attributeGroups ngxHttpGetVariable tokens = groups at h
    induction groups with
    | nil => exact Nat.le_refl _
    | cons group groups ih =>
      obtain ⟨hgroup, hgroups⟩ := List.forall_mem_cons.mp h
      have hle := ih hgroups
      rw [List.map_cons, List.sum_cons, List.length_cons]
      omega
  omega

/-- The attributes of groups that fit, in a new array. -/
theorem fillAttributes_new {n : ℕ}
    (hfits : (attributeGroups ngxHttpGetVariable tokens).length ≤ n) :
    fillAttributes ngxHttpGetVariable 0 isKey (newHeaders n) tokens =
      some ((attributeGroups ngxHttpGetVariable tokens).length,
        groupAttributes isKey (attributeGroups ngxHttpGetVariable tokens) ++
          newHeaders (n - (attributeGroups ngxHttpGetVariable tokens).length)) := by
  obtain ⟨group, groups, hgroups⟩ := attributeGroups_ne_nil ngxHttpGetVariable tokens
  rw [hgroups] at hfits ⊢
  obtain ⟨m, rfl⟩ := Nat.exists_eq_succ_of_ne_zero (Nat.ne_zero_of_lt (Nat.lt_of_succ_le hfits))
  have hfill : fillAttributes ngxHttpGetVariable 0 isKey ([] ++ ⟨none, none⟩ :: newHeaders m)
      tokens =
      _ := fillAttributes_eq hgroups [] ⟨none, none⟩ rfl (Nat.le_of_succ_le_succ hfits)
  refine hfill.trans ?_
  rw [List.length_cons, Nat.succ_sub_succ, Nat.zero_add, Nat.add_comm 1]
  rfl

/-- Every attribute below a count is complete: those of all groups, which fit. -/
theorem fillAttributes_complete_iff :
    (∃ count slots, fillAttributes ngxHttpGetVariable 0 isKey
        (newHeaders ((tokens.length + 1) / 3)) tokens = some (count, slots) ∧
      ∀ i < count, ∃ name value, slots[i]? = some ⟨some name, some value⟩) ↔
      ∀ group ∈ attributeGroups ngxHttpGetVariable tokens, 2 ≤ group.length := by
  constructor
  · rintro ⟨count, slots, hfill, hcomplete⟩
    obtain ⟨hcount, hlength⟩ := fillAttributes_some hfill
    rw [Nat.zero_add] at hcount
    have hfits : count ≤ (tokens.length + 1) / 3 := by
      by_contra hover
      obtain ⟨name, value, hslot⟩ := hcomplete ((tokens.length + 1) / 3) (Nat.lt_of_not_le hover)
      obtain ⟨hlt, -⟩ := List.getElem?_eq_some_iff.mp hslot
      rw [hlength, newHeaders, List.length_replicate] at hlt
      exact Nat.lt_irrefl _ hlt
    subst hcount
    rw [fillAttributes_new hfits] at hfill
    obtain ⟨-, rfl⟩ := Prod.mk.inj (Option.some.inj hfill)
    rw [← complete_groupAttributes_iff isKey]
    intro h hmem
    obtain ⟨i, hi, rfl⟩ := List.getElem_of_mem hmem
    have hlt := hi
    rw [length_groupAttributes] at hlt
    obtain ⟨name, value, hslot⟩ := hcomplete i hlt
    rw [List.getElem?_append_left hi, List.getElem?_eq_getElem hi] at hslot
    exact ⟨name, value, Option.some.inj hslot⟩
  · intro hgroups
    refine ⟨_, _, fillAttributes_new (attributeGroups_fit hgroups), fun i hi => ?_⟩
    rw [← length_groupAttributes isKey] at hi
    obtain ⟨name, value, hslot⟩ :=
      (complete_groupAttributes_iff isKey _).mpr hgroups _ (List.getElem_mem hi)
    rw [List.getElem?_append_left hi, List.getElem?_eq_getElem hi, hslot]
    exact ⟨name, value, rfl⟩

/-! ### Lists of the documented form -/

theorem isComma_comma : isComma (attributeData ngxHttpGetVariable (ascii ",")) = true := rfl

/-- Of groups with two tokens each, the first one starts with the first two tokens. -/
theorem attributeGroups_cons_cons {k v : Bytes}
    (h : ∀ group ∈ attributeGroups ngxHttpGetVariable (k :: v :: tokens), 2 ≤ group.length) :
    attributeGroups ngxHttpGetVariable (k :: v :: tokens) =
      ((attributeGroups ngxHttpGetVariable tokens).modifyHead
        (attributeData ngxHttpGetVariable v :: ·)).modifyHead
          (attributeData ngxHttpGetVariable k :: ·) := by
  cases hk : isComma (attributeData ngxHttpGetVariable k) with
  | true =>
    rw [attributeGroups_comma hk] at h
    exact absurd (h [] List.mem_cons_self) (by simp)
  | false =>
    rw [attributeGroups_cons hk] at h ⊢
    cases hv : isComma (attributeData ngxHttpGetVariable v) with
    | true =>
      rw [attributeGroups_comma hv, List.modifyHead_cons] at h
      exact absurd (h _ List.mem_cons_self) (by simp)
    | false => rw [attributeGroups_cons hv]

/-- The groups of such a list are the pairs, if there are no commas where there should be none. -/
theorem attributeGroups_documentedForm {pairs : List (Bytes × Bytes)} (hne : pairs ≠ [])
    (h : ∀ group ∈ attributeGroups ngxHttpGetVariable (documentedForm pairs), 2 ≤ group.length) :
    attributeGroups ngxHttpGetVariable (documentedForm pairs) =
      pairs.map fun pair =>
        [attributeData ngxHttpGetVariable pair.1, attributeData ngxHttpGetVariable pair.2] := by
  induction pairs with
  | nil => exact absurd rfl hne
  | cons pair pairs ih =>
    obtain ⟨k, v⟩ := pair
    cases pairs with
    | nil =>
      rw [documentedForm] at h ⊢
      rw [attributeGroups_cons_cons h]
      rfl
    | cons next pairs =>
      rw [documentedForm] at h ⊢
      have hgroups := attributeGroups_cons_cons h
      rw [attributeGroups_comma isComma_comma] at hgroups
      rw [hgroups] at h ⊢
      rw [ih (List.cons_ne_nil _ _) fun group hmem => h group (List.mem_cons_of_mem _ hmem)]
      rfl

/-- A list of pairs in its documented form is reported as the pairs. -/
theorem fillAttributes_documentedForm {pairs : List (Bytes × Bytes)} (hne : pairs ≠ []) {n : ℕ}
    (h : ∀ group ∈ attributeGroups ngxHttpGetVariable (documentedForm pairs), 2 ≤ group.length)
    {count : ℕ} {slots : List HttpHeader}
    (hfill : fillAttributes ngxHttpGetVariable 0 true (newHeaders n) (documentedForm pairs) =
      some (count, slots))
    (hfits : (attributeGroups ngxHttpGetVariable (documentedForm pairs)).length ≤ n) :
    slots.take count = pairs.map (attributeOf ngxHttpGetVariable) ∧ count = pairs.length := by
  have hgroups := attributeGroups_documentedForm hne h
  rw [fillAttributes_new hfits] at hfill
  obtain ⟨rfl, rfl⟩ := Prod.mk.inj (Option.some.inj hfill)
  have hpairs : groupAttributes true (attributeGroups ngxHttpGetVariable (documentedForm pairs)) =
      pairs.map (attributeOf ngxHttpGetVariable) := by
    have hmap := groupAttributes_pairs (pairs.map fun pair =>
      (attributeData ngxHttpGetVariable pair.1, attributeData ngxHttpGetVariable pair.2))
    rw [List.map_map, List.map_map] at hmap
    rw [hgroups]
    exact hmap
  refine ⟨?_, by rw [hgroups, List.length_map]⟩
  rw [← length_groupAttributes true, List.take_left, hpairs]

end

/-! ### The payload -/

/-- The headers of the first part are always filled in, so that the payload is filled where
the attributes are. -/
theorem fillResponsePayload_iff {ngxHttpGetVariable : Bytes → Option Bytes} {r : PayloadResponse}
    (hpool : r.pool = true) (P : ℕ → List HttpHeader → Prop) :
    (∃ p, fillResponsePayload ngxHttpGetVariable r = some p ∧
        P p.otel_attributes_count p.otel_attributes) ↔
      ∃ count slots, otelAttributes ngxHttpGetVariable r.locConf.attributes = some (count, slots) ∧
        P count slots := by
  rw [fillResponsePayload, if_neg (by simp [hpool])]
  obtain ⟨array, hheaders, -⟩ := fill_httpHeaders r.headers_out.first
  constructor
  · rintro ⟨p, h, hP⟩
    obtain ⟨attributes, hattributes, h⟩ := Option.bind_eq_some_iff.mp h
    obtain ⟨headers, -, h⟩ := Option.bind_eq_some_iff.mp h
    cases h
    exact ⟨_, _, hattributes, hP⟩
  · rintro ⟨count, slots, hattributes, hP⟩
    simp only [hattributes, hheaders, Option.bind_eq_bind, Option.bind_some]
    exact ⟨_, rfl, hP⟩

theorem documentedForm_ne_nil {pairs : List (Bytes × Bytes)} (h : pairs ≠ []) :
    documentedForm pairs ≠ [] := by
  match pairs, h with
  | [(k, v)], _ => exact List.cons_ne_nil _ _
  | (k, v) :: next :: pairs, _ => exact List.cons_ne_nil _ _

/-- **The attributes of a response are reported** within the array, each with a name and a
value, and as the pairs of a list of the documented form, exactly when there are at least two
tokens before, between and behind the commas, as the variables stand. -/
theorem attributes_reported_iff (ngxHttpGetVariable : Bytes → Option Bytes) (r : PayloadResponse)
    {tokens : List Bytes} (hpool : r.pool = true) (htokens : r.locConf.attributes = some tokens) :
    (∃ p, fillResponsePayload ngxHttpGetVariable r = some p ∧
        Reported ngxHttpGetVariable tokens p.otel_attributes_count p.otel_attributes) ↔
      (tokens ≠ [] → ∀ group ∈ attributeGroups ngxHttpGetVariable tokens, 2 ≤ group.length) := by
  rw [fillResponsePayload_iff hpool (Reported ngxHttpGetVariable tokens), htokens]
  cases tokens with
  | nil =>
    refine iff_of_true ⟨0, [], rfl, nofun, fun pairs hpairs => ?_⟩ fun hne => absurd rfl hne
    obtain rfl : pairs = [] := by
      by_contra hne
      exact documentedForm_ne_nil hne hpairs.symm
    exact ⟨rfl, rfl⟩
  | cons token tokens =>
    rw [forall_prop_of_true (List.cons_ne_nil token tokens)]
    constructor
    · rintro ⟨count, slots, hfill, hreported⟩
      exact fillAttributes_complete_iff.mp ⟨count, slots, hfill, hreported.complete⟩
    · intro hgroups
      obtain ⟨count, slots, hfill, hcomplete⟩ := fillAttributes_complete_iff.mpr hgroups
      refine ⟨count, slots, hfill, hcomplete, fun pairs hpairs => ?_⟩
      have hfits := attributeGroups_fit hgroups
      have hne : pairs ≠ [] := by
        rintro rfl
        exact List.cons_ne_nil _ _ hpairs
      rw [hpairs] at hfill hgroups hfits
      exact fillAttributes_documentedForm hne hgroups hfill hfits

/-- A response without headers, for the tokens of an attribute directive. -/
def samplePayloadResponse (tokens : List Bytes) : PayloadResponse where
  pool := true
  headers_out := ⟨1, [[]], List.cons_ne_nil _ _, by simp⟩
  locConf := (Directive.attributes tokens).set .create

theorem attributes_reported_sample :
    let tokens := documentedForm [(ascii "k", ascii "$uri"), (ascii "l", ascii "w")]
    (∃ p, fillResponsePayload (fun _ => some (ascii "/")) (samplePayloadResponse tokens) = some p ∧
        Reported (fun _ => some (ascii "/")) tokens p.otel_attributes_count p.otel_attributes) ↔
      (tokens ≠ [] →
        ∀ group ∈ attributeGroups (fun _ => some (ascii "/")) tokens, 2 ≤ group.length) :=
  attributes_reported_iff _ _ rfl rfl

/-- A single token is written outside of the array, which has no slot; with a comma behind a
pair, an attribute is counted that is not there; and a variable may be a comma. -/
theorem attributes_not_reported :
    fillResponsePayload (fun _ => none) (samplePayloadResponse [ascii "k"]) = none ∧
      (fillResponsePayload (fun _ => none)
          (samplePayloadResponse [ascii "k", ascii "v", ascii ","])).map
            (fun p => (p.otel_attributes_count, p.otel_attributes)) =
        some (2, [⟨some (ascii "k"), some (ascii "v")⟩]) ∧
      (fillResponsePayload (fun _ => some (ascii ","))
          (samplePayloadResponse (documentedForm [(ascii "k", ascii "$v")]))).map
            (fun p => (p.otel_attributes_count, p.otel_attributes)) =
        some (2, [⟨some (ascii "k"), none⟩]) ∧
      ¬∃ p, fillResponsePayload (fun _ => none) (samplePayloadResponse [ascii "k"]) = some p ∧
        Reported (fun _ => none) [ascii "k"] p.otel_attributes_count p.otel_attributes := by
  refine ⟨by decide +kernel, by decide +kernel, by decide +kernel, ?_⟩
  rintro ⟨p, hfill, -⟩
  have hnone : fillResponsePayload (fun _ => none) (samplePayloadResponse [ascii "k"]) = none := by
    decide +kernel
  rw [hnone] at hfill
  cases hfill

end NginxWebserver

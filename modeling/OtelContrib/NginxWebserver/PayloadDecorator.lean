/-
How the webserver module for nginx passes headers on (`otel_payload_decorator`).

The propagation headers of an interaction are written into the headers of the request.  The
walk over the parts of these is not started anew for each of them.

* `decorated_iff` — what `Decorated` says of the headers is what putting one propagation
  header after the other gives;
* `payload_decorated_iff` — that is what happens exactly when no header stands before the part
  where the walk for its name starts.
-/
import OtelContrib.NginxWebserver.Headers
import Mathlib.Data.List.Induction

open Otel.Common (cString)

namespace NginxWebserver

/-! ### The function -/

/-- The request header that a propagation header is written into. -/
def PropagationHeader.named (record : PropagationHeader) (h : NgxTableElt) : Bool :=
  strcasecmp record.name h.key

/-- The request header it becomes. -/
def PropagationHeader.header (record : PropagationHeader) : NgxTableElt :=
  ⟨cString record.name, some (cString record.value)⟩

section

variable (headersInHandler : NgxTableElt → Bool)

/-- The loop of `otel_payload_decorator`, which stops where a handler of nginx fails.  `part`
is where the last walk ended. -/
def decorate (part : ℕ) (headers : PartList NgxTableElt) :
    List PropagationHeader → Bool × PartList NgxTableElt
  | [] => (true, headers)
  | record :: records =>
    let (part, headers) := headers.putFrom record.named record.header part
    if headersInHandler record.header then decorate part headers records else (false, headers)

/-- `otel_payload_decorator`, with the propagation headers the context has after it. -/
def otelPayloadDecorator (headers : PartList NgxTableElt)
    (ctxPropagationHeaders propagationHeaders : List PropagationHeader) :
    PartList NgxTableElt × List PropagationHeader :=
  let (handled, headers) := decorate headersInHandler 0 headers propagationHeaders
  (headers, if handled then propagationHeaders else ctxPropagationHeaders)

end

/-! ### What should become of the headers -/

/-- The first header of each name is replaced, the others are kept, and what was not there is
appended. -/
structure Decorated (hs : List NgxTableElt) (records : List PropagationHeader)
    (hs' : List NgxTableElt) : Prop where
  replaced : ∀ record ∈ records, ∀ i, hs.findIdx? record.named = some i →
    hs'[i]? = some record.header
  kept : ∀ i h, hs[i]? = some h → (∀ record ∈ records, hs.findIdx? record.named ≠ some i) →
    hs'[i]? = some h
  appended : hs'.drop hs.length =
    (records.filter fun record => (hs.findIdx? record.named).isNone).map PropagationHeader.header

/-- One propagation header is put into the headers. -/
def putRecord (hs : List NgxTableElt) (record : PropagationHeader) : List NgxTableElt :=
  put record.named record.header hs

/-- The names are different, also in another case. -/
def DistinctNames (records : List PropagationHeader) : Prop :=
  records.Pairwise fun record record' => strcasecmp record.name record'.name = false

/-- None of the walks starts behind a header of the name it looks for, unless the header and
the one it finds are the propagation header already.  A walk starts in the part where the one
before it ended. -/
def Unhindered (part : ℕ) (headers : PartList NgxTableElt) : List PropagationHeader → Prop
  | [] => True
  | record :: records =>
    InPlace record.named record.header (headers.before part) (headers.after part) ∧
      Unhindered (headers.putFrom record.named record.header part).1
        (headers.putFrom record.named record.header 0).2 records

section

variable {record record' : PropagationHeader} {records : List PropagationHeader}
  {hs hs' : List NgxTableElt}

/-! ### One propagation header -/

theorem named_header (record : PropagationHeader) : record.named record.header = true := by
  rw [PropagationHeader.named, strcasecmp, PropagationHeader.header, cString_cString]
  exact decide_eq_true rfl

/-- A header has one name. -/
theorem not_named_of_named (hne : strcasecmp record.name record'.name = false) {h : NgxTableElt}
    (hnamed : record'.named h = true) : record.named h = false :=
  strcasecmp_of_ne hne hnamed

theorem findIdx?_putRecord (hne : strcasecmp record'.name record.name = false)
    (hs : List NgxTableElt) :
    (putRecord hs record).findIdx? record'.named = hs.findIdx? record'.named :=
  findIdx?_put_of_other (not_named_of_named hne (named_header record))
    (fun _ => not_named_of_named hne) hs

theorem filter_putRecord (hne : strcasecmp record'.name record.name = false)
    (hs : List NgxTableElt) :
    (putRecord hs record).filter record'.named = hs.filter record'.named :=
  filter_put_of_other (not_named_of_named hne (named_header record))
    (fun _ => not_named_of_named hne) hs

/-- Propagation headers of other names leave the headers of a name. -/
theorem filter_foldl_putRecord
    (hne : ∀ record ∈ records, strcasecmp record'.name record.name = false)
    (hs : List NgxTableElt) :
    (records.foldl putRecord hs).filter record'.named = hs.filter record'.named := by
  induction records generalizing hs with
  | nil => rfl
  | cons record records ih =>
    obtain ⟨hrecord, hrecords⟩ := List.forall_mem_cons.mp hne
    rw [List.foldl_cons, ih hrecords, filter_putRecord hrecord]

theorem findIdx?_foldl_putRecord
    (hne : ∀ record ∈ records, strcasecmp record'.name record.name = false)
    (hs : List NgxTableElt) :
    (records.foldl putRecord hs).findIdx? record'.named = hs.findIdx? record'.named := by
  induction records generalizing hs with
  | nil => rfl
  | cons record records ih =>
    obtain ⟨hrecord, hrecords⟩ := List.forall_mem_cons.mp hne
    rw [List.foldl_cons, ih hrecords, findIdx?_putRecord hrecord]

/-! ### All of them -/

theorem Decorated.length_le (h : Decorated hs records hs') : hs.length ≤ hs'.length := by
  by_contra hlt
  have hlast : hs'[hs.length - 1]? = none := List.getElem?_eq_none (by omega)
  have hsome := List.getElem?_eq_getElem (l := hs) (i := hs.length - 1) (by omega)
  by_cases hfound : ∃ record ∈ records, hs.findIdx? record.named = some (hs.length - 1)
  · obtain ⟨record, hmem, hi⟩ := hfound
    rw [h.replaced record hmem _ hi] at hlast
    cases hlast
  · rw [h.kept _ _ hsome fun record hmem hi => hfound ⟨record, hmem, hi⟩] at hlast
    cases hlast

/-- There is only one such list. -/
theorem Decorated.unique {hs'' : List NgxTableElt} (h : Decorated hs records hs')
    (h' : Decorated hs records hs'') : hs' = hs'' := by
  refine List.ext_getElem? fun i => ?_
  by_cases hi : i < hs.length
  · by_cases hfound : ∃ record ∈ records, hs.findIdx? record.named = some i
    · obtain ⟨record, hmem, hrecord⟩ := hfound
      rw [h.replaced record hmem i hrecord, h'.replaced record hmem i hrecord]
    · have hnot := fun record hmem hrecord => hfound ⟨record, hmem, hrecord⟩
      have hsome := List.getElem?_eq_getElem hi
      rw [h.kept i _ hsome hnot, h'.kept i _ hsome hnot]
  · obtain ⟨j, rfl⟩ := Nat.exists_eq_add_of_le (Nat.le_of_not_lt hi)
    rw [← List.getElem?_drop, ← List.getElem?_drop, h.appended, h'.appended]

theorem getElem?_append_of_eq_some {h : NgxTableElt} {i : ℕ} (hi : hs[i]? = some h) :
    (hs ++ hs')[i]? = some h := by
  obtain ⟨hlt, -⟩ := List.getElem?_eq_some_iff.mp hi
  rwa [List.getElem?_append_left hlt]

/-- A further propagation header without a header of its name. -/
theorem Decorated.concat_new (h : Decorated hs records hs')
    (hidx : hs.findIdx? record.named = none) :
    Decorated hs (records ++ [record]) (hs' ++ [record.header]) := by
  refine ⟨fun record' hmem i hi => ?_, fun i h' hi hnot => ?_, ?_⟩
  · rcases List.mem_append.mp hmem with hmem | hmem
    · exact getElem?_append_of_eq_some (h.replaced record' hmem i hi)
    · obtain rfl := List.mem_singleton.mp hmem
      rw [hidx] at hi
      cases hi
  · exact getElem?_append_of_eq_some
      (h.kept i h' hi fun record' hmem => hnot record' (List.mem_append_left _ hmem))
  · rw [List.drop_append_of_le_length h.length_le, h.appended, List.filter_append, List.map_append,
      List.filter_cons_of_pos (by rw [hidx]; rfl)]
    rfl

/-- A further propagation header with a header of its name. -/
theorem Decorated.concat_found (h : Decorated hs records hs') {k : ℕ}
    (hidx : hs.findIdx? record.named = some k)
    (hne : ∀ record' ∈ records, strcasecmp record.name record'.name = false) :
    Decorated hs (records ++ [record]) (hs'.set k record.header) := by
  obtain ⟨hk, hnamed, -⟩ := List.findIdx?_eq_some_iff_getElem.mp hidx
  refine ⟨fun record' hmem i hi => ?_, fun i h' hi hnot => ?_, ?_⟩
  · rcases List.mem_append.mp hmem with hmem | hmem
    · -- the element at one place does not have two names
      have hik : k ≠ i := by
        rintro rfl
        obtain ⟨_, hnamed', -⟩ := List.findIdx?_eq_some_iff_getElem.mp hi
        rw [not_named_of_named (hne record' hmem) hnamed'] at hnamed
        cases hnamed
      rw [List.getElem?_set_ne hik]
      exact h.replaced record' hmem i hi
    · obtain rfl := List.mem_singleton.mp hmem
      obtain rfl := Option.some.inj (hidx.symm.trans hi)
      exact List.getElem?_set_self (Nat.lt_of_lt_of_le hk h.length_le)
  · have hik : k ≠ i := by
      rintro rfl
      exact hnot record (by simp) hidx
    rw [List.getElem?_set_ne hik]
    exact h.kept i h' hi fun record' hmem => hnot record' (List.mem_append_left _ hmem)
  · rw [List.drop_set_of_lt hk, h.appended, List.filter_append,
      List.filter_cons_of_neg (by rw [hidx]; exact Bool.false_ne_true), List.filter_nil,
      List.append_nil]

/-- A further propagation header. -/
theorem Decorated.concat (h : Decorated hs records hs')
    (hfound : hs'.findIdx? record.named = hs.findIdx? record.named)
    (hne : ∀ record' ∈ records, strcasecmp record.name record'.name = false) :
    Decorated hs (records ++ [record]) (putRecord hs' record) := by
  cases hidx : hs.findIdx? record.named with
  | none =>
    have hput : putRecord hs' record = hs' ++ [record.header] := put_eq_append (hfound.trans hidx)
    exact hput ▸ h.concat_new hidx
  | some k =>
    have hput : putRecord hs' record = hs'.set k record.header := put_eq_set (hfound.trans hidx)
    exact hput ▸ h.concat_found hidx hne

theorem decorated_foldl (hnames : DistinctNames records) (hs : List NgxTableElt) :
    Decorated hs records (records.foldl putRecord hs) := by
  induction records using List.reverseRecOn with
  | nil =>
    refine ⟨nofun, fun i h hi _ => hi, ?_⟩
    rw [List.foldl_nil, List.drop_length]
    rfl
  | append_singleton records record ih =>
    obtain ⟨hrecords, -, hne⟩ := List.pairwise_append.mp hnames
    have hother : ∀ record' ∈ records, strcasecmp record.name record'.name = false := by
      intro record' hmem
      rw [strcasecmp_comm]
      exact hne record' hmem record (List.mem_singleton_self _)
    rw [List.foldl_append]
    exact (ih hrecords).concat (findIdx?_foldl_putRecord hother hs) hother

/-- What should become of the headers is what putting one after the other gives. -/
theorem decorated_iff (hnames : DistinctNames records) :
    Decorated hs records hs' ↔ hs' = records.foldl putRecord hs := by
  constructor
  · exact fun h => h.unique (decorated_foldl hnames hs)
  · rintro rfl
    exact decorated_foldl hnames hs

/-! ### The walks -/

variable {headersInHandler : NgxTableElt → Bool} {part : ℕ} {headers : PartList NgxTableElt}

theorem decorate_cons (hhandled : headersInHandler record.header = true) :
    decorate headersInHandler part headers (record :: records) =
      decorate headersInHandler (headers.putFrom record.named record.header part).1
        (headers.putFrom record.named record.header part).2 records := by
  rw [decorate]
  exact if_pos hhandled

theorem toList_putFrom_zero (record : PropagationHeader) (headers : PartList NgxTableElt) :
    (headers.putFrom record.named record.header 0).2.toList = putRecord headers.toList record :=
  headers.toList_putFrom _ _ (List.length_pos_iff.mpr headers.parts_ne)

/-- Walks for other names leave the headers of a name. -/
theorem filter_decorate (hpart : part < headers.parts.length)
    (hhandled : ∀ record ∈ records, headersInHandler record.header = true)
    (hne : ∀ record ∈ records, strcasecmp record'.name record.name = false) :
    ((decorate headersInHandler part headers records).2.toList).filter record'.named =
      headers.toList.filter record'.named := by
  induction records generalizing part headers with
  | nil => rfl
  | cons record records ih =>
    obtain ⟨hrecord, hrecords⟩ := List.forall_mem_cons.mp hne
    obtain ⟨hhandler, hhandlers⟩ := List.forall_mem_cons.mp hhandled
    rw [decorate_cons hhandler, ih (headers.putFrom_lt _ _ _) hhandlers hrecords,
      headers.toList_putFrom _ _ hpart, List.filter_append, ← headers.before_append_after part,
      List.filter_append]
    exact congrArg _ (filter_putRecord hrecord _)

/-- The walks do what putting the propagation headers does exactly when they are unhindered:
what is wrong for a name stays wrong. -/
theorem decorate_eq_iff (hpart : part < headers.parts.length) (hnames : DistinctNames records)
    (hhandled : ∀ record ∈ records, headersInHandler record.header = true) :
    (decorate headersInHandler part headers records).2.toList =
      records.foldl putRecord headers.toList ↔ Unhindered part headers records := by
  induction records generalizing part headers with
  | nil => exact iff_of_true rfl trivial
  | cons record records ih =>
    obtain ⟨hhandler, hhandlers⟩ := List.forall_mem_cons.mp hhandled
    obtain ⟨hne, hrest⟩ := List.pairwise_cons.mp hnames
    have hlt := headers.putFrom_lt record.named record.header part
    rw [decorate_cons hhandler, List.foldl_cons, Unhindered]
    by_cases hplace : InPlace record.named record.header (headers.before part) (headers.after part)
    · rw [and_iff_right hplace, ← toList_putFrom_zero]
      rw [PartList.putFrom_of_inPlace hpart hplace] at hlt ⊢
      exact ih hlt hrest hhandlers
    · refine iff_of_false (fun heq => hplace ?_) fun h => hplace h.1
      have hfilter := congrArg (List.filter record.named) heq
      rwa [filter_decorate hlt hhandlers hne, filter_foldl_putRecord hne,
        headers.toList_putFrom _ _ hpart, putRecord, ← headers.before_append_after part,
        filter_put_iff (named_header record)] at hfilter

end

/-- **Every propagation header is in the request once**, in the place of the first header of
its name over all parts, and all others are as they were, exactly when no walk starts behind a
header of the name it looks for. -/
theorem payload_decorated_iff (headersInHandler : NgxTableElt → Bool)
    (headers : PartList NgxTableElt) (ctxPropagationHeaders : List PropagationHeader)
    {propagationHeaders : List PropagationHeader} (hnames : DistinctNames propagationHeaders)
    (hhandled : ∀ record ∈ propagationHeaders, headersInHandler record.header = true) :
    Decorated headers.toList propagationHeaders
        (otelPayloadDecorator headersInHandler headers ctxPropagationHeaders
          propagationHeaders).1.toList ↔
      Unhindered 0 headers propagationHeaders := by
  rw [decorated_iff hnames,
    ← decorate_eq_iff (List.length_pos_iff.mpr headers.parts_ne) hnames hhandled]
  rfl

/-- The headers of a request in two parts, and those of an interaction. -/
def sampleHeaders : PartList NgxTableElt where
  nalloc := 2
  parts := [[⟨ascii "Host", some (ascii "h")⟩, ⟨ascii "tracestate", some (ascii "old")⟩],
    [⟨ascii "Traceparent", some (ascii "old")⟩]]
  parts_ne := by decide
  nonempty := by decide

def sampleRecords : List PropagationHeader :=
  [⟨ascii "traceparent", ascii "new"⟩, ⟨ascii "tracestate", ascii "new"⟩]

theorem distinctNames_sampleRecords : DistinctNames sampleRecords := by
  refine List.pairwise_cons.mpr ⟨fun record hmem => ?_, List.pairwise_singleton ..⟩
  obtain rfl := List.mem_singleton.mp hmem
  decide

theorem payload_decorated_sample :
    Decorated sampleHeaders.toList sampleRecords
        (otelPayloadDecorator (fun _ => true) sampleHeaders [] sampleRecords).1.toList ↔
      Unhindered 0 sampleHeaders sampleRecords :=
  payload_decorated_iff _ _ _ distinctNames_sampleRecords fun _ _ => rfl

/-- The walk for the second name starts behind the header of that name: the header is kept, and
a second one is appended. -/
theorem second_walk_misses :
    (otelPayloadDecorator (fun _ => true) sampleHeaders [] sampleRecords).1.toList =
        [⟨ascii "Host", some (ascii "h")⟩, ⟨ascii "tracestate", some (ascii "old")⟩,
          ⟨ascii "traceparent", some (ascii "new")⟩, ⟨ascii "tracestate", some (ascii "new")⟩] ∧
      ¬Decorated sampleHeaders.toList sampleRecords
        (otelPayloadDecorator (fun _ => true) sampleHeaders [] sampleRecords).1.toList := by
  have hlist : (otelPayloadDecorator (fun _ => true) sampleHeaders [] sampleRecords).1.toList =
      [⟨ascii "Host", some (ascii "h")⟩, ⟨ascii "tracestate", some (ascii "old")⟩,
        ⟨ascii "traceparent", some (ascii "new")⟩, ⟨ascii "tracestate", some (ascii "new")⟩] := by
    decide
  refine ⟨hlist, fun h => ?_⟩
  have hreplaced :=
    h.replaced ⟨ascii "tracestate", ascii "new"⟩ (by simp [sampleRecords]) 1 (by decide)
  rw [hlist] at hreplaced
  exact absurd hreplaced (by decide)

end NginxWebserver

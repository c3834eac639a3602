/-
How spans are named after the segments of a URI (`SpanNamingUtils`, `SpanNamer.cpp`).

An iterator is the number of steps from the end it started at; the last segments are found
on the reversed URI, as the source finds them with reverse iterators.  The rule by which
a parameter becomes a number is boost's and a parameter here.

* `findNthSegment_eq` — the loop finds the separators in order, but for one in the first
  place;
* `span_names` — what the first and the last segments are, and that the last rule set is
  the one that counts.
-/
import OtelContrib.Webserver.ApiUtils
import Mathlib.Data.List.Induction

namespace Webserver

def URI_SEGMENT_SEPARATOR : UInt8 := 47
def URI_SUFFIX_KEY_SEPARATOR : UInt8 := 44

/-! ### Segments of a URI -/

/-- The loop of `findNthSegment`: the steps to where it stops. -/
def findNthSegmentLoop (nSegments currentSegment : UInt32) : Bytes → ℕ
  | [] => 0
  | b :: rest =>
    let currentSegment :=
      if b = URI_SEGMENT_SEPARATOR then currentSegment + 1 else currentSegment
    if currentSegment = nSegments then 0 else findNthSegmentLoop nSegments currentSegment rest + 1

/-- `findNthSegment`; an empty string has no first character to look at. -/
def findNthSegment (s : Bytes) (nSegments : UInt32) : ℕ :=
  match s with
  | [] => 0
  | b :: rest =>
    if b = URI_SEGMENT_SEPARATOR then findNthSegmentLoop nSegments 0 rest + 1
    else findNthSegmentLoop nSegments 0 (b :: rest)

def getFirstNSegments (s : Bytes) (nSegments : UInt32) : Bytes :=
  s.take (findNthSegment s nSegments)

/-- The base of a reverse iterator is as far from the end as the iterator from its start. -/
def getLastNSegments (s : Bytes) (nSegments : UInt32) : Bytes :=
  let endOfNthSegment := findNthSegment s.reverse nSegments
  let endOfNthSegment := if endOfNthSegment ≠ s.length then endOfNthSegment + 1 else endOfNthSegment
  s.drop (s.length - endOfNthSegment)

/-! ### The namer -/

section

variable (lexicalCast : Bytes → Option UInt32)

/-- The segments a list of numbers names, counted from 0. -/
def parseSegmentNumbers (s : Bytes) : List ℕ :=
  ((s.splitOn URI_SUFFIX_KEY_SEPARATOR).filter (· ≠ [])).filterMap fun segmentNumberString =>
    match lexicalCast segmentNumberString with
    | some segmentNumber => if segmentNumber = 0 then none else some (segmentNumber.toNat - 1)
    | none => none

def transformNameWithURISegments (baseName urlPath suffixKey delimiter : Bytes) : Bytes :=
  let segmentNumbers := parseSegmentNumbers lexicalCast suffixKey
  let uriTokens : List Bytes :=
    match urlPath.splitOn URI_SEGMENT_SEPARATOR with
    | [] :: rest => rest
    | tokens => tokens
  let result := uriTokens.zipIdx.foldl
    (fun result i =>
      if i.2 ∈ segmentNumbers then (if result ≠ [] then result ++ delimiter else result) ++ i.1
      else result)
    []
  if result = [] then baseName else result

namespace SpanNamer

def getSpanName (n : SpanNamer) (uri : Bytes) : Bytes :=
  match n.segmentType with
  | .FIRST => getFirstNSegments uri n.segmentCount
  | .LAST => getLastNSegments uri n.segmentCount
  | .CUSTOM =>
    transformNameWithURISegments lexicalCast uri uri n.segmentValues [URI_SEGMENT_SEPARATOR]

/-- The count a parameter gives: the default if it is rejected or 0. -/
def segmentCountOf (segmentParameter : Bytes) : UInt32 :=
  let segmentCount := (lexicalCast segmentParameter).getD defaultSegmentCount
  if segmentCount = 0 then defaultSegmentCount else segmentCount

/-- `setSegmentRules` with any rule for numbers. -/
def setSegmentRulesBy (n : SpanNamer) (segmentType segmentParameter : Bytes) : SpanNamer :=
  let n := n.setSegmentType segmentType
  match n.segmentType with
  | .FIRST | .LAST => { n with segmentCount := segmentCountOf lexicalCast segmentParameter }
  | .CUSTOM => { n with segmentValues := segmentParameter }

/-- The namer of the agent is the one with boost's rule. -/
theorem setSegmentRulesBy_boost (n : SpanNamer) (segmentType segmentParameter : Bytes) :
    n.setSegmentRulesBy lexicalCastUnsigned segmentType segmentParameter =
      n.setSegmentRules segmentType segmentParameter := rfl

end SpanNamer

end

/-- `tolower` of every character. -/
def lcType (type : Bytes) : Bytes := type.map fun b => if 65 ≤ b ∧ b ≤ 90 then b + 32 else b

/-! ### What the names should be -/

/-- The places of the separators in a text. -/
def separators (s : Bytes) : List ℕ :=
  (List.range s.length).filter fun i => s[i]? = some URI_SEGMENT_SEPARATOR

/-- The prefix that ends before the `n`-th separator that is not in the first place. -/
def firstSegments (uri : Bytes) (n : ℕ) : Bytes :=
  match ((separators uri).filter (· ≠ 0))[n - 1]? with
  | some i => uri.take i
  | none => uri

/-- The suffix that starts at the `n`-th separator from the end, not counting one in the
last place. -/
def lastSegments (uri : Bytes) (n : ℕ) : Bytes :=
  match ((separators uri).filter (· ≠ uri.length - 1)).reverse[n - 1]? with
  | some i => uri.drop i
  | none => uri

/-! ### Places of separators -/

theorem separators_cons (b : UInt8) (s : Bytes) :
    separators (b :: s) =
      (if b = URI_SEGMENT_SEPARATOR then [0] else []) ++ (separators s).map (· + 1) := by
  rw [separators, List.length_cons, List.range_succ_eq_map, List.filter_cons, List.filter_map]
  have hrest : (fun i => decide ((b :: s)[i]? = some URI_SEGMENT_SEPARATOR)) ∘ Nat.succ =
      fun i => decide (s[i]? = some URI_SEGMENT_SEPARATOR) := rfl
  rw [hrest, separators]
  by_cases hb : b = URI_SEGMENT_SEPARATOR
  · simp [hb]
  · simp [hb]

theorem separators_concat (s : Bytes) (b : UInt8) :
    separators (s ++ [b]) =
      separators s ++ if b = URI_SEGMENT_SEPARATOR then [s.length] else [] := by
  rw [separators, List.length_append, List.length_singleton, List.range_succ, List.filter_append]
  refine congrArg₂ (· ++ ·) (List.filter_congr fun i hi => ?_) ?_
  · rw [List.getElem?_append_left (List.mem_range.mp hi)]
  · by_cases hb : b = URI_SEGMENT_SEPARATOR
    · simp [hb]
    · simp [hb]

theorem lt_of_mem_separators {s : Bytes} {i : ℕ} (h : i ∈ separators s) : i < s.length :=
  List.mem_range.mp (List.mem_filter.mp h).1

/-- Read backwards, the separators come in the opposite order. -/
theorem separators_reverse (s : Bytes) :
    separators s.reverse = (separators s).reverse.map (s.length - 1 - ·) := by
  induction s using List.reverseRecOn with
  | nil => rfl
  | append_singleton s b ih =>
    rw [List.reverse_append, List.reverse_singleton, List.singleton_append, separators_cons, ih,
      separators_concat, List.reverse_append, List.map_append, List.map_map, List.length_append]
    refine congrArg₂ (· ++ ·) ?_ (List.map_congr_left fun i hi => ?_)
    · split <;> simp
    · have hlt := lt_of_mem_separators (List.mem_reverse.mp hi)
      show s.length - 1 - i + 1 = s.length + 1 - 1 - i
      omega

/-- After the first place, the separators are those of the rest. -/
theorem separators_cons_ne_zero (b : UInt8) (s : Bytes) :
    (separators (b :: s)).filter (· ≠ 0) = (separators s).map (· + 1) := by
  have hrest : ((separators s).map (· + 1)).filter (· ≠ 0) = (separators s).map (· + 1) := by
    refine List.filter_eq_self.mpr fun i hi => ?_
    obtain ⟨j, -, rfl⟩ := List.mem_map.mp hi
    simp
  rw [separators_cons, List.filter_append, hrest]
  split <;> rfl

/-! ### The scan -/

variable {n c : UInt32}

theorem succ_le_of_lt (h : c < n) : (c + 1).toNat = c.toNat + 1 := by
  have hlt := UInt32.lt_iff_toNat_lt.mp h
  have hn := n.toNat_lt
  rw [UInt32.toNat_add]
  exact Nat.mod_eq_of_lt (by simp; omega)

/-- The loop stops at the separator that brings the count to `n`. -/
theorem findNthSegmentLoop_eq (h : c < n) (s : Bytes) :
    findNthSegmentLoop n c s = ((separators s)[n.toNat - c.toNat - 1]?).getD s.length := by
  -- the count never passes `n`, at which the loop stops, so it does not wrap
  induction s generalizing c with
  | nil => rfl
  | cons b s ih =>
    have hlt := UInt32.lt_iff_toNat_lt.mp h
    have hrest : ∀ k : ℕ, ((separators s)[k]?).getD s.length + 1 =
        (((separators s).map (· + 1))[k]?).getD (b :: s).length := by
      intro k
      rw [List.getElem?_map, List.length_cons]
      cases (separators s)[k]? <;> rfl
    rw [findNthSegmentLoop, separators_cons]
    by_cases hb : b = URI_SEGMENT_SEPARATOR
    · have hsucc := succ_le_of_lt h
      simp only [if_pos hb]
      by_cases hn : c + 1 = n
      · have hone : n.toNat - c.toNat - 1 = 0 := by
          rw [← hn, hsucc]
          omega
        rw [if_pos hn, hone]
        rfl
      · have hlt' : c + 1 < n := by
          rw [UInt32.lt_iff_toNat_lt, hsucc]
          have hne : n.toNat ≠ c.toNat + 1 :=
            fun heq => hn (UInt32.toNat_inj.mp (hsucc.trans heq.symm))
          omega
        have hk : n.toNat - c.toNat - 1 = n.toNat - (c + 1).toNat - 1 + 1 := by
          rw [UInt32.lt_iff_toNat_lt] at hlt'
          omega
        rw [if_neg hn, ih hlt', hk, hrest]
        rfl
    · have hn : c ≠ n := fun heq => absurd (heq ▸ h) (UInt32.lt_irrefl _)
      simp only [if_neg hb]
      rw [if_neg hn, ih h, hrest]
      rfl

/-- The scan finds the `n`-th separator that is not in the first place, or the end. -/
theorem findNthSegment_eq {s : Bytes} (hs : s ≠ []) (hn : 1 ≤ n) :
    findNthSegment s n = (((separators s).filter (· ≠ 0))[n.toNat - 1]?).getD s.length := by
  have hpos : (0 : UInt32) < n := by
    rw [UInt32.lt_iff_toNat_lt]
    exact UInt32.le_iff_toNat_le.mp hn
  have hne : (0 : UInt32) ≠ n := fun heq => absurd (heq ▸ hpos) (UInt32.lt_irrefl _)
  cases s with
  | nil => exact absurd rfl hs
  | cons b s =>
    have hscan : findNthSegment (b :: s) n = findNthSegmentLoop n 0 s + 1 := by
      rw [findNthSegment]
      split
      · rfl
      next hb =>
        rw [findNthSegmentLoop]
        simp only [if_neg hb, if_neg hne]
    rw [hscan, findNthSegmentLoop_eq hpos, separators_cons_ne_zero, List.getElem?_map,
      List.length_cons]
    show (separators s)[n.toNat - 0 - 1]?.getD s.length + 1 = _
    rw [Nat.sub_zero]
    cases (separators s)[n.toNat - 1]? <;> rfl

theorem getFirstNSegments_eq {uri : Bytes} (huri : uri ≠ []) (hn : 1 ≤ n) :
    getFirstNSegments uri n = firstSegments uri n.toNat := by
  rw [getFirstNSegments, findNthSegment_eq huri hn, firstSegments]
  split
  next i hi => rw [hi, Option.getD_some]
  next hnone => rw [hnone, Option.getD_none, List.take_length]

theorem getLastNSegments_eq {uri : Bytes} (huri : uri ≠ []) (hn : 1 ≤ n) :
    getLastNSegments uri n = lastSegments uri n.toNat := by
  have hlength : 0 < uri.length := List.length_pos_iff.mpr huri
  -- the first place backwards is the last one forwards
  have hplaces : (separators uri.reverse).filter (· ≠ 0) =
      ((separators uri).filter (· ≠ uri.length - 1)).reverse.map (uri.length - 1 - ·) := by
    rw [separators_reverse, List.filter_map, ← List.filter_reverse]
    refine congrArg (List.map _) (List.filter_congr fun i hi => ?_)
    have hlt := lt_of_mem_separators (List.mem_reverse.mp hi)
    simp only [Function.comp_apply, decide_eq_decide]
    omega
  have hscan := findNthSegment_eq (s := uri.reverse) (by simpa using huri) hn
  rw [hplaces, List.getElem?_map, List.length_reverse] at hscan
  rw [getLastNSegments, lastSegments, hscan]
  cases hi : ((separators uri).filter (· ≠ uri.length - 1)).reverse[n.toNat - 1]? with
  | some i =>
    have hmem := List.mem_of_getElem? hi
    have hlt := lt_of_mem_separators (List.mem_filter.mp (List.mem_reverse.mp hmem)).1
    have hback : uri.length - (uri.length - 1 - i + 1) = i := by omega
    have hstops : uri.length - 1 - i ≠ uri.length := by omega
    simp only [Option.map_some, Option.getD_some, if_pos hstops, hback]
  | none =>
    simp only [Option.map_none, Option.getD_none, ne_eq, not_true_eq_false, ite_false,
      Nat.sub_self, List.drop_zero]

/-! ### Rules -/

namespace SpanNamer

variable (lexicalCast : Bytes → Option UInt32)

theorem one_le_segmentCountOf (segmentParameter : Bytes) :
    1 ≤ segmentCountOf lexicalCast segmentParameter := by
  rw [segmentCountOf]
  split
  · decide
  next hne =>
    rw [UInt32.le_iff_toNat_le]
    have hpos : ((lexicalCast segmentParameter).getD defaultSegmentCount).toNat ≠ 0 :=
      fun hzero => hne (UInt32.toNat_inj.mp hzero)
    exact Nat.one_le_iff_ne_zero.mpr hpos

/-- A rule of first or last segments sets both the type and the count. -/
theorem setSegmentRulesBy_eq (namer : SpanNamer) {type : Bytes} (segmentParameter : Bytes)
    (htype : lcType type ≠ ascii "custom") :
    namer.setSegmentRulesBy lexicalCast type segmentParameter =
      { namer with
        segmentType := if lcType type = ascii "last" then .LAST else .FIRST
        segmentCount := segmentCountOf lexicalCast segmentParameter } := by
  by_cases hlast : lcType type = ascii "last"
  · have hset : namer.setSegmentType type = { namer with segmentType := .LAST } := if_pos hlast
    rw [setSegmentRulesBy, hset, if_pos hlast]
  · have hset : namer.setSegmentType type = { namer with segmentType := .FIRST } :=
      (if_neg hlast).trans (if_neg htype)
    rw [setSegmentRulesBy, hset, if_neg hlast]

end SpanNamer

/-- **Span names.**  For every URI that is not empty and every count that is not 0, the
first segments are the prefix before the separator with that number, one in the first
place not counted, and the last segments the suffix from the separator with that number
from the end, one in the last place not counted, or the whole URI where there are fewer;
and after any rules the last of which is one of these, that rule alone decides which of
them a span is named after, and the count. -/
theorem span_names (lexicalCast : Bytes → Option UInt32) :
    (∀ (uri : Bytes) (n : UInt32), uri ≠ [] → 1 ≤ n →
      getFirstNSegments uri n = firstSegments uri n.toNat ∧
        getLastNSegments uri n = lastSegments uri n.toNat) ∧
    ∀ (rules : List (Bytes × Bytes)) (type segmentParameter uri : Bytes),
      lcType type ≠ ascii "custom" → uri ≠ [] →
      1 ≤ SpanNamer.segmentCountOf lexicalCast segmentParameter ∧
        ((rules ++ [(type, segmentParameter)]).foldl
            (fun namer rule => namer.setSegmentRulesBy lexicalCast rule.1 rule.2)
            SpanNamer.new).getSpanName lexicalCast uri =
          (if lcType type = ascii "last" then lastSegments else firstSegments) uri
            (SpanNamer.segmentCountOf lexicalCast segmentParameter).toNat := by
  refine ⟨fun uri n huri hn => ⟨getFirstNSegments_eq huri hn, getLastNSegments_eq huri hn⟩, ?_⟩
  intro rules type segmentParameter uri htype huri
  have hcount := SpanNamer.one_le_segmentCountOf lexicalCast segmentParameter
  refine ⟨hcount, ?_⟩
  rw [List.foldl_append, List.foldl_cons, List.foldl_nil,
    SpanNamer.setSegmentRulesBy_eq _ _ _ htype, SpanNamer.getSpanName]
  by_cases hlast : lcType type = ascii "last"
  · simp only [if_pos hlast]
    exact getLastNSegments_eq huri hcount
  · simp only [if_neg hlast]
    exact getFirstNSegments_eq huri hcount

theorem span_names_sample :
    getFirstNSegments (ascii "//a/b/") 2 = ascii "//a" ∧
      (([(ascii "Custom", ascii "1,4")] ++ [(ascii "Last", ascii "2")]).foldl
          (fun namer rule => namer.setSegmentRulesBy lexicalCastUnsigned rule.1 rule.2)
          SpanNamer.new).getSpanName lexicalCastUnsigned (ascii "/one/two/three/index.html") =
        ascii "/three/index.html" := by
  obtain ⟨hsegments, hrules⟩ := span_names lexicalCastUnsigned
  have hfirst := (hsegments (ascii "//a/b/") 2 (by decide) (by decide)).1
  have hlast := (hrules [(ascii "Custom", ascii "1,4")] (ascii "Last") (ascii "2")
    (ascii "/one/two/three/index.html") (by decide) (by decide)).2
  exact ⟨hfirst.trans (by decide), hlast.trans (by decide)⟩

example : (SpanNamer.new.setSegmentRules (ascii "Custom") (ascii "4,1")).getSpanName
    lexicalCastUnsigned (ascii "/one/two/three/index.html") = ascii "one/index.html" := by decide

end Webserver

/-
Span names of selected segments (`transformNameWithURISegments`).

Two things come between the name and the joined list of the segments whose numbers are
given.  A token with a sign is a number too, for boost's cast.  And whether a delimiter is
due is read off the name so far, which is empty after empty segments.

* `transformNameWithURISegments_eq` — the name is the joined list of the segments that any
  token selects, without the empty ones in front;
* `mem_parseSegmentNumbers` — a segment is selected by a token of digits, or by one with a sign
  in front of them;
* `segment_names_iff` — for a URI and tokens, the names are the joined lists for all base
  names and delimiters exactly when the first named segment is not empty, or is the only one, and
  the segments that only tokens with a sign select are empty and in front of all named ones.
-/
import OtelContrib.Webserver.SpanNamer
import Mathlib.Data.List.TakeWhile

namespace Webserver

/-! ### Names by number -/

def isDigit (b : UInt8) : Bool := 48 ≤ b ∧ b ≤ 57

/-- The number of a token that consists of decimal digits, from 1 up to what an
`unsigned int` holds. -/
def segmentNumber (token : Bytes) : Option ℕ :=
  let value := token.foldl (fun n d => 10 * n + (d.toNat - 48)) 0
  if token ≠ [] ∧ token.all isDigit ∧ 1 ≤ value ∧ value < 2 ^ 32 then some value else none

/-- The number of a token of a sign and decimal digits: behind a minus sign it is taken from
`2 ^ 32`. -/
def signedNumber : Bytes → Option ℕ
  | [] => none
  | sign :: digits =>
    if sign = 43 then segmentNumber digits
    else if sign = 45 then (segmentNumber digits).map (2 ^ 32 - ·)
    else none

/-- A number is that of a token of the suffix key. -/
def HasNumber (number : Bytes → Option ℕ) (suffixKey : Bytes) (n : ℕ) : Prop :=
  ∃ token ∈ suffixKey.splitOn URI_SUFFIX_KEY_SEPARATOR, number token = some n

instance (number : Bytes → Option ℕ) (suffixKey : Bytes) (n : ℕ) :
    Decidable (HasNumber number suffixKey n) :=
  inferInstanceAs (Decidable (∃ token ∈ _, _))

/-- The segments of a URI; an empty one in the first place is skipped. -/
def uriSegments (urlPath : Bytes) : List Bytes :=
  match urlPath.splitOn URI_SEGMENT_SEPARATOR with
  | [] :: rest => rest
  | tokens => tokens

/-- The segments whose numbers are among the tokens, in the order of the URI. -/
def namedSegments (urlPath suffixKey : Bytes) : List Bytes :=
  ((uriSegments urlPath).zipIdx.filter fun i =>
    (suffixKey.splitOn URI_SUFFIX_KEY_SEPARATOR).any fun token =>
      segmentNumber token = some (i.2 + 1)).map Prod.fst

/-- The segments joined by the delimiter, or the base name. -/
def joinedName (baseName delimiter : Bytes) (segments : List Bytes) : Bytes :=
  if delimiter.intercalate segments = [] then baseName else delimiter.intercalate segments

/-- The segments that the tokens select. -/
def selectedSegments (lexicalCast : Bytes → Option UInt32) (urlPath suffixKey : Bytes) :
    List Bytes :=
  ((uriSegments urlPath).zipIdx.filter fun i => i.2 ∈ parseSegmentNumbers lexicalCast suffixKey).map
    Prod.fst

/-! ### Joining -/

/-- One step of the loop over the segments. -/
def appendSegment (delimiter result segment : Bytes) : Bytes :=
  (if result ≠ [] then result ++ delimiter else result) ++ segment

/-- Once the name is not empty, a delimiter goes in front of every segment. -/
theorem foldl_appendSegment {delimiter result : Bytes} (hresult : result ≠ [])
    (segments : List Bytes) :
    segments.foldl (appendSegment delimiter) result =
      delimiter.intercalate (result :: segments) := by
  induction segments generalizing result with
  | nil => exact List.intercalate_singleton.symm
  | cons segment segments ih =>
    have hstep : appendSegment delimiter result segment = result ++ delimiter ++ segment := by
      rw [appendSegment, if_pos hresult]
    rw [List.foldl_cons, hstep, ih (by simp [hresult])]
    cases segments with
    | nil => simp [List.intercalate_cons_cons]
    | cons segment' segments => simp [List.intercalate_cons_cons, List.append_assoc]

/-- Empty segments in front leave no trace. -/
theorem foldl_appendSegment_nil (delimiter : Bytes) (segments : List Bytes) :
    segments.foldl (appendSegment delimiter) [] =
      delimiter.intercalate (segments.dropWhile fun segment => segment = []) := by
  induction segments with
  | nil => rfl
  | cons segment segments ih =>
    have hstep : appendSegment delimiter [] segment = segment := rfl
    rw [List.foldl_cons, hstep, List.dropWhile_cons]
    by_cases hsegment : segment = []
    · subst hsegment
      exact ih
    · rw [if_neg (by simpa using hsegment)]
      exact foldl_appendSegment hsegment segments

/-- What the function makes of the segments it selects. -/
theorem transformNameWithURISegments_eq (lexicalCast : Bytes → Option UInt32)
    (baseName urlPath suffixKey delimiter : Bytes) :
    transformNameWithURISegments lexicalCast baseName urlPath suffixKey delimiter =
      joinedName baseName delimiter
        ((selectedSegments lexicalCast urlPath suffixKey).dropWhile
          fun segment => segment = []) := by
  have hfold : (uriSegments urlPath).zipIdx.foldl
      (fun result i =>
        if i.2 ∈ parseSegmentNumbers lexicalCast suffixKey then
          (if result ≠ [] then result ++ delimiter else result) ++ i.1
        else result) [] =
      delimiter.intercalate
        ((selectedSegments lexicalCast urlPath suffixKey).dropWhile
          fun segment => segment = []) := by
    rw [← foldl_appendSegment_nil, selectedSegments, List.foldl_map, List.foldl_filter]
    simp only [appendSegment, decide_eq_true_eq]
  rw [joinedName, ← hfold]
  rfl

/-! ### Tokens -/

theorem any_not_digit (token : Bytes) :
    (token.any fun d => d < 48 ∨ 57 < d) = !token.all isDigit := by
  rw [List.not_all_eq_any_not]
  refine congrArg (fun p => token.any p) (funext fun d => ?_)
  rw [isDigit, ← decide_not, decide_eq_decide, not_and_or, UInt8.not_le, UInt8.not_le]

/-- The value of a token's digits. -/
def digitsValue (token : Bytes) : ℕ := token.foldl (fun n d => 10 * n + (d.toNat - 48)) 0

/-- The number of some digits that fit, which may be zero. -/
def castDigits (digits : Bytes) : Option UInt32 :=
  if digits ≠ [] ∧ digits.all isDigit ∧ digitsValue digits < 2 ^ 32 then
    some (UInt32.ofNat (digitsValue digits))
  else none

/-- The cast looks at a sign first. -/
theorem lexicalCastUnsigned_cons (b : UInt8) (rest : Bytes) :
    lexicalCastUnsigned (b :: rest) =
      (castDigits (if b = 43 ∨ b = 45 then rest else b :: rest)).map fun value =>
        if b = 45 then -value else value := by
  rw [lexicalCastUnsigned.eq_def]
  dsimp only [List.head?_cons]
  generalize (if b = 43 ∨ b = 45 then rest else b :: rest) = digits
  rw [any_not_digit, castDigits, apply_ite (Option.map _), Option.map_some, Option.map_none,
    apply_ite some]
  simp only [Option.some.injEq]
  refine (ite_not _ _ _).symm.trans (if_congr ?_ rfl rfl)
  simp [not_or, digitsValue]

/-- From 1 on, the numbers are those that are cast. -/
theorem segmentNumber_eq_some_iff {digits : Bytes} {n : ℕ} :
    segmentNumber digits = some n ↔ 1 ≤ n ∧ ∃ v, castDigits digits = some v ∧ v.toNat = n := by
  have hnumber : segmentNumber digits =
      if digits ≠ [] ∧ digits.all isDigit ∧ 1 ≤ digitsValue digits ∧
          digitsValue digits < 2 ^ 32 then
        some (digitsValue digits)
      else none := rfl
  rw [hnumber, castDigits]
  by_cases hcast : digits ≠ [] ∧ digits.all isDigit ∧ digitsValue digits < 2 ^ 32
  · have hvalue : (UInt32.ofNat (digitsValue digits)).toNat = digitsValue digits :=
      UInt32.toNat_ofNat_of_lt hcast.2.2
    rw [if_pos hcast]
    constructor
    · intro h
      split at h
      next hone => exact ⟨Option.some.inj h ▸ hone.2.2.1, _, rfl, hvalue.trans (Option.some.inj h)⟩
      next => cases h
    · rintro ⟨hn, v, hv, hvn⟩
      obtain rfl := Option.some.inj hv
      rw [hvalue] at hvn
      rw [if_pos ⟨hcast.1, hcast.2.1, by omega, hcast.2.2⟩, hvn]
  · rw [if_neg hcast, if_neg fun h => hcast ⟨h.1, h.2.1, h.2.2.2⟩]
    refine iff_of_false nofun ?_
    rintro ⟨-, v, hv, -⟩
    cases hv

/-- A token that starts with a sign has no digits only. -/
theorem segmentNumber_cons_of_not_digit {b : UInt8} (hb : isDigit b = false) (rest : Bytes) :
    segmentNumber (b :: rest) = none := by
  rw [segmentNumber]
  refine if_neg fun h => ?_
  rw [List.all_cons, hb] at h
  exact absurd h.2.1 (by simp)

/-- What the cast makes of a token, from 1 on. -/
theorem lexicalCastUnsigned_iff {token : Bytes} {n : ℕ} (hn : 1 ≤ n) :
    (∃ v, lexicalCastUnsigned token = some v ∧ v.toNat = n) ↔
      segmentNumber token = some n ∨ signedNumber token = some n := by
  cases token with
  | nil =>
    have hnone : segmentNumber [] = none := rfl
    rw [hnone]
    refine iff_of_false ?_ ?_
    · rintro ⟨v, hv, -⟩
      cases hv
    · rintro (h | h)
      · cases h
      · cases h
  | cons b rest =>
    rw [lexicalCastUnsigned_cons, signedNumber]
    by_cases hplus : b = 43
    · subst hplus
      rw [if_pos (.inl rfl), if_pos rfl, segmentNumber_cons_of_not_digit rfl,
        segmentNumber_eq_some_iff, and_iff_right hn]
      simp
    · by_cases hminus : b = 45
      · subst hminus
        rw [if_pos (.inr rfl), if_neg hplus, if_pos rfl, segmentNumber_cons_of_not_digit rfl,
          or_iff_right (by rintro ⟨⟩)]
        simp only [Option.map_eq_some_iff, if_true]
        -- both numbers are positive, so that negation takes from 2 ^ 32
        constructor
        · rintro ⟨_, ⟨v, hv, rfl⟩, hvn⟩
          rw [UInt32.toNat_neg] at hvn
          have hpos : 1 ≤ v.toNat := by
            by_contra hzero
            have hmod : (2 ^ 32 - v.toNat) % 2 ^ 32 = 0 := by
              rw [show v.toNat = 0 by omega, Nat.sub_zero, Nat.mod_self]
            exact absurd (hvn.symm.trans hmod) (by omega)
          refine ⟨v.toNat, segmentNumber_eq_some_iff.mpr ⟨hpos, v, hv, rfl⟩, ?_⟩
          exact (Nat.mod_eq_of_lt (Nat.sub_lt (by decide) hpos)).symm.trans hvn
        · rintro ⟨m, hm, hmn⟩
          obtain ⟨hpos, v, hv, rfl⟩ := segmentNumber_eq_some_iff.mp hm
          refine ⟨-v, ⟨v, hv, rfl⟩, ?_⟩
          rw [UInt32.toNat_neg]
          exact (Nat.mod_eq_of_lt (Nat.sub_lt (by decide) hpos)).trans hmn
      · rw [if_neg (not_or.mpr ⟨hplus, hminus⟩), if_neg hplus, if_neg hminus,
          or_iff_left (by rintro ⟨⟩), segmentNumber_eq_some_iff, and_iff_right hn]
        simp [hminus]

/-- The segments that are selected are those of tokens of digits and of tokens with a sign. -/
theorem mem_parseSegmentNumbers {suffixKey : Bytes} {i : ℕ} :
    i ∈ parseSegmentNumbers lexicalCastUnsigned suffixKey ↔
      HasNumber segmentNumber suffixKey (i + 1) ∨ HasNumber signedNumber suffixKey (i + 1) := by
  have htokens : i ∈ parseSegmentNumbers lexicalCastUnsigned suffixKey ↔
      ∃ token ∈ suffixKey.splitOn URI_SUFFIX_KEY_SEPARATOR,
        ∃ v, lexicalCastUnsigned token = some v ∧ v.toNat = i + 1 := by
    rw [parseSegmentNumbers, List.mem_filterMap]
    constructor
    · rintro ⟨token, htoken, hsome⟩
      refine ⟨token, (List.mem_filter.mp htoken).1, ?_⟩
      cases hcast : lexicalCastUnsigned token with
      | none => simp [hcast] at hsome
      | some v =>
        rw [hcast] at hsome
        by_cases hv : v = 0
        · simp [hv] at hsome
        · have hi : v.toNat - 1 = i := by simpa [hv] using hsome
          have hpos : v.toNat ≠ 0 := fun hzero => hv (UInt32.toNat_inj.mp hzero)
          exact ⟨v, rfl, by omega⟩
    · rintro ⟨token, hmem, v, hcast, hi⟩
      have hne : token ≠ [] := by
        rintro rfl
        cases hcast
      have hv : v ≠ 0 := by
        rintro rfl
        cases hi
      refine ⟨token, List.mem_filter.mpr ⟨hmem, decide_eq_true hne⟩, ?_⟩
      rw [hcast]
      simp only [if_neg hv]
      exact congrArg some (by omega)
  rw [htokens]
  simp only [lexicalCastUnsigned_iff (Nat.le_add_left 1 i), and_or_left, exists_or]
  rfl

/-! ### When the names are right -/

/-- No piece of a split has the separator in it. -/
theorem not_mem_of_mem_splitOn {s segment : Bytes} {b : UInt8} (h : segment ∈ s.splitOn b) :
    b ∉ segment := by
  induction s generalizing segment with
  | nil => simp_all
  | cons c s ih =>
    rw [List.splitOn_cons_eq_if_modifyHead] at h
    split at h
    · rcases List.mem_cons.mp h with rfl | h
      · exact List.not_mem_nil
      · exact ih h
    next hc =>
      obtain ⟨first, rest, hsplit⟩ := List.exists_cons_of_ne_nil (List.splitOn_ne_nil b s)
      rw [hsplit] at h ih
      rcases List.mem_cons.mp h with rfl | h
      · rw [List.mem_cons, not_or]
        refine ⟨fun heq => hc ?_, ih List.mem_cons_self⟩
        exact beq_iff_eq.mpr heq.symm
      · exact ih (List.mem_cons_of_mem _ h)

theorem not_mem_of_mem_uriSegments {urlPath segment : Bytes} (h : segment ∈ uriSegments urlPath) :
    URI_SEGMENT_SEPARATOR ∉ segment := by
  refine not_mem_of_mem_splitOn (s := urlPath) ?_
  rw [uriSegments] at h
  split at h
  next heq => exact heq ▸ List.mem_cons_of_mem _ h
  · exact h

theorem not_mem_of_mem_named {urlPath suffixKey segment : Bytes}
    (h : segment ∈ namedSegments urlPath suffixKey) :
    URI_SEGMENT_SEPARATOR ∉ segment := by
  obtain ⟨i, hi, rfl⟩ := List.mem_map.mp h
  exact not_mem_of_mem_uriSegments (List.fst_mem_of_mem_zipIdx (List.mem_filter.mp hi).1)

theorem not_mem_of_mem_selected {lexicalCast : Bytes → Option UInt32}
    {urlPath suffixKey segment : Bytes}
    (h : segment ∈ selectedSegments lexicalCast urlPath suffixKey) :
    URI_SEGMENT_SEPARATOR ∉ segment := by
  obtain ⟨i, hi, rfl⟩ := List.mem_map.mp h
  exact not_mem_of_mem_uriSegments (List.fst_mem_of_mem_zipIdx (List.mem_filter.mp hi).1)

/-- The first named segment is not empty, and what only tokens with a sign select are empty
segments in front of all named ones; or the one named segment is empty, and so is all that
tokens with a sign select. -/
def SelectsNamed (urlPath suffixKey : Bytes) : Prop :=
  ((namedSegments urlPath suffixKey).head? ≠ some [] ∧
      ∀ i ∈ (uriSegments urlPath).zipIdx, HasNumber signedNumber suffixKey (i.2 + 1) →
        ¬HasNumber segmentNumber suffixKey (i.2 + 1) →
          i.1 = [] ∧ ∀ j < i.2, ¬HasNumber segmentNumber suffixKey (j + 1)) ∨
    namedSegments urlPath suffixKey = [[]] ∧
      ∀ i ∈ (uriSegments urlPath).zipIdx, HasNumber signedNumber suffixKey (i.2 + 1) → i.1 = []

instance (urlPath suffixKey : Bytes) : Decidable (SelectsNamed urlPath suffixKey) :=
  inferInstanceAs (Decidable (_ ∧ _ ∨ _ ∧ _))

section

variable {α : Type} {l : List α} {p q : α → Bool} {f : α → Bytes}

/-- A filter that lets more through gives the same segments only if it lets the same through. -/
theorem map_filter_eq_iff (hpq : ∀ x, p x → q x) :
    (l.filter q).map f = (l.filter p).map f ↔ ∀ x ∈ l, q x → p x := by
  have hsub : (l.filter p).Sublist (l.filter q) := List.monotone_filter_right l hpq
  constructor
  · intro heq x hx hq
    have hlength : (l.filter p).length = (l.filter q).length := by
      simpa using (congrArg List.length heq).symm
    have hmem : x ∈ l.filter p := by
      rw [hsub.eq_of_length hlength]
      exact List.mem_filter.mpr ⟨hx, hq⟩
    exact (List.mem_filter.mp hmem).2
  · intro h
    refine congrArg (List.map f) (List.filter_congr fun x hx => ?_)
    exact Bool.eq_iff_iff.mpr ⟨h x hx, hpq x⟩

/-- What is left behind the empty segments in front is what a stricter filter lets through
exactly when that starts with a segment that is not empty and the others are empty and in front
of it. -/
theorem dropWhile_filter_iff (hpq : ∀ x, p x → q x) :
    (((l.filter q).map f).dropWhile fun segment => segment = []) = (l.filter p).map f ↔
      ((l.filter p).map f).head? ≠ some [] ∧ (∀ x ∈ l, q x → ¬p x → f x = []) ∧
        l.Pairwise fun y x => q x → ¬p x → ¬p y := by
  induction l with
  | nil => simp
  | cons x l ih =>
    rw [List.forall_mem_cons, List.pairwise_cons]
    by_cases hp : p x
    · rw [List.filter_cons_of_pos (hpq x hp), List.filter_cons_of_pos hp, List.map_cons,
        List.map_cons, List.head?_cons, List.dropWhile_cons]
      by_cases hempty : f x = []
      · -- a named empty segment is dropped
        rw [if_pos (decide_eq_true hempty), hempty]
        refine iff_of_false (fun heq => ?_) fun h => h.1 rfl
        have hne : ((l.filter q).map f).dropWhile (fun segment => segment = []) ≠ [] :=
          heq ▸ List.cons_ne_nil _ _
        have hhead := List.head_dropWhile_not _ hne
        simp [heq] at hhead
      · -- nothing is dropped from here on
        rw [if_neg (by simpa using hempty), List.cons.injEq, and_iff_right rfl,
          map_filter_eq_iff hpq]
        constructor
        · intro hsame
          have hnone : ∀ y ∈ l, q y → ¬p y → False := fun y hy hq hnot => hnot (hsame y hy hq)
          refine ⟨fun h => hempty (Option.some.inj h), ⟨fun _ h => absurd hp h, ?_⟩, ?_, ?_⟩
          · exact fun y hy hq hnot => (hnone y hy hq hnot).elim
          · exact fun y hy hq hnot => (hnone y hy hq hnot).elim
          · exact List.pairwise_of_forall_mem_list fun _ _ y hy hq hnot => (hnone y hy hq hnot).elim
        · rintro ⟨-, -, hfront, -⟩ y hy hq
          by_contra hnot
          exact hfront y hy hq hnot hp
    · rw [List.filter_cons_of_neg hp]
      by_cases hq : q x
      · rw [List.filter_cons_of_pos hq, List.map_cons, List.dropWhile_cons]
        by_cases hempty : f x = []
        · -- an empty segment that is not named is dropped
          rw [if_pos (decide_eq_true hempty), ih]
          refine and_congr_right fun _ => and_congr ?_ ?_
          · exact ⟨fun h => ⟨fun _ _ => hempty, h⟩, fun h => h.2⟩
          · exact ⟨fun h => ⟨fun _ _ _ _ => hp, h⟩, fun h => h.2⟩
        · -- another one stays
          rw [if_neg (by simpa using hempty)]
          refine iff_of_false (fun heq => ?_) fun h => hempty (h.2.1.1 hq hp)
          have hlength := congrArg List.length heq
          have hle := (List.monotone_filter_right l hpq).length_le
          simp only [List.length_cons, List.length_map] at hlength
          omega
      · rw [List.filter_cons_of_neg hq, ih]
        refine and_congr_right fun _ => and_congr ?_ ?_
        · exact ⟨fun h => ⟨fun hqx => absurd hqx hq, h⟩, fun h => h.2⟩
        · exact ⟨fun h => ⟨fun _ _ _ _ => hp, h⟩, fun h => h.2⟩

end

/-- What the loop leaves of the segments that it selects. -/
def leftSegments (urlPath suffixKey : Bytes) : List Bytes :=
  (selectedSegments lexicalCastUnsigned urlPath suffixKey).dropWhile fun segment => segment = []

/-- The condition says what is left. -/
theorem selectsNamed_iff {urlPath suffixKey : Bytes} : SelectsNamed urlPath suffixKey ↔
    leftSegments urlPath suffixKey = namedSegments urlPath suffixKey ∨
      leftSegments urlPath suffixKey = [] ∧ namedSegments urlPath suffixKey = [[]] := by
  have hnamed : namedSegments urlPath suffixKey = ((uriSegments urlPath).zipIdx.filter fun i =>
      HasNumber segmentNumber suffixKey (i.2 + 1)).map Prod.fst := by
    rw [namedSegments]
    refine congrArg (List.map Prod.fst) (List.filter_congr fun i _ => ?_)
    rw [Bool.eq_iff_iff, List.any_eq_true, decide_eq_true_iff]
    simp only [HasNumber, decide_eq_true_eq]
  have hselected : selectedSegments lexicalCastUnsigned urlPath suffixKey =
      ((uriSegments urlPath).zipIdx.filter fun i => HasNumber segmentNumber suffixKey (i.2 + 1) ∨
        HasNumber signedNumber suffixKey (i.2 + 1)).map Prod.fst := by
    rw [selectedSegments]
    refine congrArg (List.map Prod.fst) (List.filter_congr fun i _ => ?_)
    rw [decide_eq_decide, mem_parseSegmentNumbers]
  refine or_congr ?_ (and_comm.trans (and_congr_left fun hone => ?_))
  · have hpq : ∀ i : Bytes × ℕ, decide (HasNumber segmentNumber suffixKey (i.2 + 1)) = true →
        decide (HasNumber segmentNumber suffixKey (i.2 + 1) ∨
          HasNumber signedNumber suffixKey (i.2 + 1)) = true :=
      fun i h => decide_eq_true (.inl (of_decide_eq_true h))
    rw [leftSegments, hselected, hnamed, dropWhile_filter_iff hpq, List.pairwise_iff_getElem]
    refine and_congr_right fun _ => ?_
    simp only [decide_eq_true_eq]
    constructor
    · intro h
      refine ⟨fun i hi hsel hnot => (h i hi (hsel.resolve_left hnot) hnot).1, ?_⟩
      intro j i hj hi hji hsel hnot
      refine (h _ (List.getElem_mem hi) (hsel.resolve_left hnot) hnot).2 _ ?_
      rwa [List.getElem_zipIdx, List.getElem_zipIdx, Nat.zero_add, Nat.zero_add]
    · rintro ⟨hempty, hfront⟩ i hi hsigned hnot
      refine ⟨hempty i hi (.inr hsigned) hnot, fun j hj => ?_⟩
      obtain ⟨k, hk, rfl⟩ := List.getElem_of_mem hi
      have hjk : j < k := by rwa [List.getElem_zipIdx, Nat.zero_add] at hj
      have hbefore := hfront j k (hjk.trans hk) hk hjk (.inr hsigned) hnot
      rwa [List.getElem_zipIdx, Nat.zero_add] at hbefore
  · have hnamedEmpty : ∀ i ∈ (uriSegments urlPath).zipIdx,
        HasNumber segmentNumber suffixKey (i.2 + 1) → i.1 = [] := by
      intro i hi hnumber
      have hmem : i.1 ∈ namedSegments urlPath suffixKey := by
        rw [hnamed]
        exact List.mem_map_of_mem (List.mem_filter.mpr ⟨hi, decide_eq_true hnumber⟩)
      rw [hone] at hmem
      exact List.mem_singleton.mp hmem
    rw [leftSegments, hselected, List.dropWhile_eq_nil_iff]
    simp only [List.forall_mem_map, List.mem_filter, decide_eq_true_eq]
    constructor
    · rintro h i ⟨hi, hnumber | hsigned⟩
      · exact hnamedEmpty i hi hnumber
      · exact h i hi hsigned
    · exact fun h i hi hsigned => h i ⟨hi, .inr hsigned⟩

/-- Joined by the separator, segments are the same only if they are, but for a single
empty one. -/
theorem eq_of_intercalate_eq {segments segments' : List Bytes}
    (h : ∀ segment ∈ segments, URI_SEGMENT_SEPARATOR ∉ segment)
    (h' : ∀ segment ∈ segments', URI_SEGMENT_SEPARATOR ∉ segment)
    (heq : [URI_SEGMENT_SEPARATOR].intercalate segments =
      [URI_SEGMENT_SEPARATOR].intercalate segments') :
    segments = segments' ∨ segments = [] ∧ segments' = [[]] ∨ segments = [[]] ∧ segments' = [] := by
  have hsplit := congrArg (List.splitOn URI_SEGMENT_SEPARATOR) heq
  by_cases hnil : segments = []
  · by_cases hnil' : segments' = []
    · exact .inl (hnil.trans hnil'.symm)
    · rw [List.splitOn_intercalate _ h' hnil', hnil] at hsplit
      exact .inr (.inl ⟨hnil, hsplit.symm⟩)
  · rw [List.splitOn_intercalate _ h hnil] at hsplit
    by_cases hnil' : segments' = []
    · rw [hnil'] at hsplit
      exact .inr (.inr ⟨hsplit, hnil'⟩)
    · rw [List.splitOn_intercalate _ h' hnil'] at hsplit
      exact .inl hsplit

theorem joinedName_of_selectsNamed {urlPath suffixKey : Bytes} (h : SelectsNamed urlPath suffixKey)
    (baseName delimiter : Bytes) :
    transformNameWithURISegments lexicalCastUnsigned baseName urlPath suffixKey delimiter =
      joinedName baseName delimiter (namedSegments urlPath suffixKey) := by
  rw [transformNameWithURISegments_eq, ← leftSegments]
  rcases selectsNamed_iff.mp h with hsame | ⟨hnone, hone⟩
  · rw [hsame]
  · rw [hnone, hone, joinedName, joinedName, List.intercalate_singleton]
    rfl

theorem selectsNamed_of_joinedName {urlPath suffixKey : Bytes}
    (h : transformNameWithURISegments lexicalCastUnsigned [] urlPath suffixKey
      [URI_SEGMENT_SEPARATOR] =
      joinedName [] [URI_SEGMENT_SEPARATOR] (namedSegments urlPath suffixKey)) :
    SelectsNamed urlPath suffixKey := by
  have hjoined : ∀ segments : List Bytes, joinedName [] [URI_SEGMENT_SEPARATOR] segments =
      [URI_SEGMENT_SEPARATOR].intercalate segments := by
    intro segments
    rw [joinedName]
    split
    next hnil => exact hnil.symm
    · rfl
  rw [transformNameWithURISegments_eq, hjoined, hjoined] at h
  have hselected : ∀ segment ∈ (selectedSegments lexicalCastUnsigned urlPath suffixKey).dropWhile
      (fun segment => segment = []), URI_SEGMENT_SEPARATOR ∉ segment :=
    fun segment hmem => not_mem_of_mem_selected ((List.dropWhile_sublist _).subset hmem)
  rcases eq_of_intercalate_eq hselected (fun _ hmem => not_mem_of_mem_named hmem) h with
    hsame | hnone | ⟨hone, -⟩
  · exact selectsNamed_iff.mpr (.inl hsame)
  · exact selectsNamed_iff.mpr (.inr hnone)
  · -- what is left does not start with an empty segment
    have hne : (selectedSegments lexicalCastUnsigned urlPath suffixKey).dropWhile
        (fun segment => segment = []) ≠ [] := hone ▸ List.cons_ne_nil _ _
    have hhead := List.head_dropWhile_not _ hne
    simp [hone] at hhead

/-- **Names of numbered segments.**  For every URI and suffix key, the function gives the
joined segments, or the base name, for all base names and delimiters exactly when neither tokens
with a sign nor empty segments come between; and for the separator as the delimiter, with which
the namer calls it, exactly then for all base names. -/
theorem segment_names_iff (urlPath suffixKey : Bytes) :
    ((∀ baseName delimiter,
        transformNameWithURISegments lexicalCastUnsigned baseName urlPath suffixKey delimiter =
          joinedName baseName delimiter (namedSegments urlPath suffixKey)) ↔
      SelectsNamed urlPath suffixKey) ∧
    ((∀ baseName,
        transformNameWithURISegments lexicalCastUnsigned baseName urlPath suffixKey
          [URI_SEGMENT_SEPARATOR] =
          joinedName baseName [URI_SEGMENT_SEPARATOR] (namedSegments urlPath suffixKey)) ↔
      SelectsNamed urlPath suffixKey) :=
  ⟨⟨fun h => selectsNamed_of_joinedName (h _ _), joinedName_of_selectsNamed⟩,
    ⟨fun h => selectsNamed_of_joinedName (h _),
      fun h baseName => joinedName_of_selectsNamed h baseName _⟩⟩

/-- A token with a plus sign selects a segment, and after an empty segment there is no
delimiter. -/
theorem segments_misnamed :
    (transformNameWithURISegments lexicalCastUnsigned (ascii "/a/b") (ascii "/a/b") (ascii "1,+2")
        (ascii "/") = ascii "a/b" ∧
      joinedName (ascii "/a/b") (ascii "/") (namedSegments (ascii "/a/b") (ascii "1,+2")) =
        ascii "a") ∧
    transformNameWithURISegments lexicalCastUnsigned (ascii "//b") (ascii "//b") (ascii "1,2")
        (ascii "/") = ascii "b" ∧
      joinedName (ascii "//b") (ascii "/") (namedSegments (ascii "//b") (ascii "1,2")) =
        ascii "/b" := by
  decide

end Webserver

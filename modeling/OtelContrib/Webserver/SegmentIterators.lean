/-
What the segment functions do with their iterators (`SpanNamingUtils.h`).

An iterator is the number of steps from the start; it can be read anywhere but at the
limit and moved on up to it, and the functions below have a result only where they keep to
that.  `findNthSegment` reads the first character before it compares with the limit.

* `findNthSegmentLoop_within` — the loop compares before it reads, and ends in the range;
* `getFirstNSegments_within`, `getLastNSegments_within` — on a text that is not empty the
  functions keep to the range, and their results are those of `SpanNamer`;
* `segment_iterators_safe_iff` — both directions are safe exactly when the text is not
  empty.
-/
import OtelContrib.Webserver.SpanNamer

namespace Webserver

/-! ### Iterators -/

/-- A place in a range, from the start to the limit. -/
@[ext] structure StringIterator (s : Bytes) where
  steps : ℕ
  le_limit : steps ≤ s.length
  deriving DecidableEq

namespace StringIterator

variable {s : Bytes}

def start : StringIterator s := ⟨0, Nat.zero_le _⟩

def limit : StringIterator s := ⟨s.length, Nat.le_refl _⟩

/-- `*current`. -/
def read? (current : StringIterator s) : Option UInt8 := s[current.steps]?

/-- `++current`. -/
def next? (current : StringIterator s) : Option (StringIterator s) :=
  if h : current.steps < s.length then some ⟨current.steps + 1, h⟩ else none

theorem eq_limit_iff {current : StringIterator s} : current = limit ↔ current.steps = s.length :=
  StringIterator.ext_iff

theorem lt_of_ne_limit {current : StringIterator s} (h : current ≠ limit) :
    current.steps < s.length :=
  Nat.lt_of_le_of_ne current.le_limit fun heq => h (eq_limit_iff.mpr heq)

/-- Nothing can be read at the limit. -/
theorem read?_isSome_iff {current : StringIterator s} : current.read?.isSome ↔ current ≠ limit := by
  have hle := current.le_limit
  rw [read?, Ne, eq_limit_iff, isSome_getElem?]
  show current.steps < s.length ↔ _
  omega

theorem steps_next? {current i : StringIterator s} (h : current.next? = some i) :
    current.steps < s.length ∧ i.steps = current.steps + 1 := by
  rw [next?] at h
  split at h
  next hlt =>
    obtain rfl := Option.some.inj h
    exact ⟨hlt, rfl⟩
  · cases h

theorem next?_eq {current : StringIterator s} (h : current.steps < s.length) :
    current.next? = some ⟨current.steps + 1, h⟩ := dif_pos h

end StringIterator

open StringIterator

/-! ### The functions -/

section

variable {s : Bytes}

/-- The loop of `findNthSegment`: it compares, reads, counts and moves on. -/
def findNthSegmentLoop? (nSegments : UInt32) (current : StringIterator s)
    (currentSegment : UInt32) : Option (StringIterator s) :=
  if current = limit then some limit
  else
    match current.read? with
    | none => none
    | some b =>
      let currentSegment :=
        if b = URI_SEGMENT_SEPARATOR then currentSegment + 1 else currentSegment
      if currentSegment = nSegments then some current
      else
        match _h : current.next? with
        | none => none
        | some current => findNthSegmentLoop? nSegments current currentSegment
termination_by s.length - current.steps
decreasing_by
  have hsteps := steps_next? _h
  omega

/-- `findNthSegment`: the first character is read before any comparison. -/
def findNthSegment? (nSegments : UInt32) (begin : StringIterator s) : Option (StringIterator s) :=
  match begin.read? with
  | none => none
  | some b =>
    if b = URI_SEGMENT_SEPARATOR then
      match begin.next? with
      | none => none
      | some current => findNthSegmentLoop? nSegments current 0
    else findNthSegmentLoop? nSegments begin 0

end

/-- `getFirstNSegments`: the text up to where the iterator stands. -/
def getFirstNSegments? (s : Bytes) (nSegments : UInt32) : Option Bytes :=
  (findNthSegment? nSegments (start : StringIterator s)).map fun endOfNthSegment =>
    s.take endOfNthSegment.steps

/-- `getLastNSegments`: the reverse iterators of a text are the iterators of the reversed
text, and the base of one is as far from the end. -/
def getLastNSegments? (s : Bytes) (nSegments : UInt32) : Option Bytes :=
  match findNthSegment? nSegments (start : StringIterator s.reverse) with
  | none => none
  | some endOfNthSegment =>
    (if endOfNthSegment ≠ limit then endOfNthSegment.next? else some endOfNthSegment).map
      fun endOfNthSegment => s.drop (s.length - endOfNthSegment.steps)

/-! ### The loop keeps to the range -/

section

variable {s : Bytes} {n c : UInt32}

/-- What is left at an iterator that is not the limit. -/
theorem drop_of_read {current : StringIterator s} {b : UInt8} {rest : Bytes}
    (h : s.drop current.steps = b :: rest) :
    current.read? = some b ∧ ∃ i, current.next? = some i ∧ s.drop i.steps = rest := by
  have hlt : current.steps < s.length := by
    have hlength := congrArg List.length h
    rw [List.length_drop, List.length_cons] at hlength
    omega
  rw [List.drop_eq_getElem_cons hlt, List.cons.injEq] at h
  obtain ⟨hb, hrest⟩ := h
  refine ⟨?_, _, next?_eq hlt, hrest⟩
  rw [read?, List.getElem?_eq_getElem hlt, hb]

/-- The loop reads before the limit only, and ends where the scan of the rest does. -/
theorem findNthSegmentLoop_within (n c : UInt32) (current : StringIterator s) :
    ∃ i, findNthSegmentLoop? n current c = some i ∧
      i.steps = current.steps + findNthSegmentLoop n c (s.drop current.steps) := by
  -- on what is left to read
  generalize hrest : s.drop current.steps = rest
  induction rest generalizing current c with
  | nil =>
    have hlimit : current = limit := by
      have hle := List.drop_eq_nil_iff.mp hrest
      exact eq_limit_iff.mpr (Nat.le_antisymm current.le_limit hle)
    rw [findNthSegmentLoop?, if_pos hlimit, hlimit]
    exact ⟨limit, rfl, rfl⟩
  | cons b rest ih =>
    obtain ⟨hread, next, hnext, hdrop⟩ := drop_of_read hrest
    have hlimit : current ≠ limit := by
      rw [← read?_isSome_iff, hread]
      rfl
    obtain ⟨-, hsteps⟩ := steps_next? hnext
    rw [findNthSegmentLoop?, if_neg hlimit, hread, findNthSegmentLoop]
    simp only
    generalize (if b = URI_SEGMENT_SEPARATOR then c + 1 else c) = c
    by_cases hn : c = n
    · rw [if_pos hn, if_pos hn]
      exact ⟨current, rfl, rfl⟩
    · rw [if_neg hn, if_neg hn]
      obtain ⟨i, hi, hplace⟩ := ih c next hdrop
      refine ⟨i, ?_, ?_⟩
      · split
        next hnone =>
          rw [hnext] at hnone
          cases hnone
        next next' hnext' =>
          rw [hnext] at hnext'
          obtain rfl := Option.some.inj hnext'
          exact hi
      · rw [hplace, hsteps]
        omega

/-- With a first character, the function ends where the scan of the text does. -/
theorem findNthSegment_within (hs : s ≠ []) (n : UInt32) :
    ∃ i, findNthSegment? n (start : StringIterator s) = some i ∧ i.steps = findNthSegment s n := by
  cases s with
  | nil => exact absurd rfl hs
  | cons b rest =>
    have hdrop₀ : (b :: rest).drop (start : StringIterator (b :: rest)).steps = b :: rest := rfl
    obtain ⟨hread, next, hnext, hdrop⟩ := drop_of_read hdrop₀
    obtain ⟨-, hsteps⟩ := steps_next? hnext
    rw [findNthSegment?, hread, findNthSegment]
    simp only
    by_cases hb : b = URI_SEGMENT_SEPARATOR
    · obtain ⟨i, hi, hplace⟩ := findNthSegmentLoop_within n 0 next
      rw [if_pos hb, if_pos hb, hnext]
      refine ⟨i, hi, ?_⟩
      rw [hplace, hdrop, hsteps]
      exact Nat.add_comm ..
    · obtain ⟨i, hi, hplace⟩ := findNthSegmentLoop_within n 0 (start : StringIterator (b :: rest))
      rw [if_neg hb, if_neg hb]
      exact ⟨i, hi, hplace.trans (Nat.zero_add _)⟩

/-- Without one, it reads the limit. -/
theorem findNthSegment_nil (n : UInt32) :
    findNthSegment? n (start : StringIterator []) = none := rfl

theorem getFirstNSegments_within (hs : s ≠ []) (n : UInt32) :
    getFirstNSegments? s n = some (getFirstNSegments s n) := by
  obtain ⟨i, hi, hsteps⟩ := findNthSegment_within hs n
  rw [getFirstNSegments?, hi, getFirstNSegments, ← hsteps]
  rfl

/-- The step after the reverse iterator was compared with its limit stays in the range. -/
theorem getLastNSegments_within (hs : s ≠ []) (n : UInt32) :
    getLastNSegments? s n = some (getLastNSegments s n) := by
  obtain ⟨i, hi, hsteps⟩ := findNthSegment_within (s := s.reverse) (by simpa using hs) n
  have hlimit : i = limit ↔ i.steps = s.length := by
    rw [eq_limit_iff, List.length_reverse]
  rw [getLastNSegments?, hi, getLastNSegments, ← hsteps]
  simp only
  by_cases hend : i = limit
  · rw [if_neg (not_not.mpr hend), if_neg (not_not.mpr (hlimit.mp hend))]
    rfl
  · rw [if_pos hend, if_pos (mt hlimit.mpr hend), next?_eq (lt_of_ne_limit hend)]
    rfl

end

/-! ### Safety -/

/-- Forwards and backwards the function ends, without a read of the limit and without a
step past it, at an iterator of the range; and so do its callers. -/
structure SegmentIteratorsSafe (s : Bytes) (nSegments : UInt32) : Prop where
  forwards : ∃ i : StringIterator s, findNthSegment? nSegments start = some i
  backwards : ∃ i : StringIterator s.reverse, findNthSegment? nSegments start = some i
  first : (getFirstNSegments? s nSegments).isSome
  last : (getLastNSegments? s nSegments).isSome

/-- **Segment iterators are safe** exactly on the texts that are not empty. -/
theorem segment_iterators_safe_iff (s : Bytes) (nSegments : UInt32) :
    SegmentIteratorsSafe s nSegments ↔ s ≠ [] := by
  constructor
  · rintro h rfl
    obtain ⟨i, hi⟩ := h.forwards
    rw [findNthSegment_nil] at hi
    cases hi
  · intro hs
    obtain ⟨i, hi, -⟩ := findNthSegment_within hs nSegments
    obtain ⟨j, hj, -⟩ := findNthSegment_within (s := s.reverse) (by simpa using hs) nSegments
    refine ⟨⟨i, hi⟩, ⟨j, hj⟩, ?_, ?_⟩
    · rw [getFirstNSegments_within hs]
      rfl
    · rw [getLastNSegments_within hs]
      rfl

/-- The name of the empty URI, by either kind of rule. -/
theorem empty_uri_reads_limit :
    findNthSegment? 1 (start : StringIterator []) = none ∧
      findNthSegment? 1 (start : StringIterator (List.reverse [])) = none ∧
      ¬ SegmentIteratorsSafe [] 1 := by
  refine ⟨rfl, rfl, fun h => ?_⟩
  obtain ⟨i, hi⟩ := h.backwards
  cases hi

end Webserver

/-
Lists in parts.

A part is an array.  A push goes to the last part, or to a new one where that is full, so that
only the first part can be empty.  A walk looks for an element from one part on.

* `toList_putFrom` — an element that is put where a walk leads replaces the first one that is
  found from there on, or is appended;
* `filter_put_iff` — that is right exactly when none stands before the walk, or both are there
  already;
* `putFrom_of_inPlace` — then the walk could have started at the first part.
-/
import Mathlib.Data.List.Basic

/-! ### Putting an element into a list -/

section

variable {α : Type} {p q : α → Bool} {x : α} {xs ys : List α}

/-- The first element that satisfies `p` becomes `x`; where there is none, `x` is appended. -/
def put (p : α → Bool) (x : α) : List α → List α
  | [] => [x]
  | y :: ys => if p y then x :: ys else y :: put p x ys

theorem put_of_none (h : ∀ y ∈ xs, p y = false) : put p x (xs ++ ys) = xs ++ put p x ys := by
  induction xs with
  | nil => rfl
  | cons y xs ih =>
    obtain ⟨hy, hxs⟩ := List.forall_mem_cons.mp h
    rw [List.cons_append, put, hy, ih hxs]
    rfl

theorem put_of_some (h : ∃ y ∈ xs, p y = true) : put p x (xs ++ ys) = put p x xs ++ ys := by
  induction xs with
  | nil => simp at h
  | cons y xs ih =>
    rw [List.cons_append, put, put]
    cases hy : p y with
    | true => rfl
    | false =>
      have hxs : ∃ z ∈ xs, p z = true := by simpa [hy] using h
      rw [if_neg (by simp), if_neg (by simp), ih hxs]
      rfl

theorem put_eq_set {j : ℕ} (h : xs.findIdx? p = some j) : put p x xs = xs.set j x := by
  induction xs generalizing j with
  | nil => cases h
  | cons y xs ih =>
    rw [List.findIdx?_cons] at h
    rw [put]
    split at h
    case isTrue hy =>
      obtain rfl := Option.some.inj h
      rw [if_pos hy]
      rfl
    case isFalse hy =>
      obtain ⟨i, hi, rfl⟩ := Option.map_eq_some_iff.mp h
      rw [if_neg hy, ih hi]
      rfl

/-- Nothing changes where the element is there already. -/
theorem put_eq_self (h : xs.find? p = some x) : put p x xs = xs := by
  induction xs with
  | nil => cases h
  | cons y xs ih =>
    rw [List.find?_cons] at h
    rw [put]
    cases hy : p y with
    | true =>
      rw [hy] at h
      rw [Option.some.inj h]
      rfl
    | false =>
      rw [hy] at h
      exact congrArg (y :: ·) (ih h)

/-- What satisfies `p` after `x` was put. -/
theorem filter_put (hx : p x = true) (ys : List α) :
    (put p x ys).filter p = x :: (ys.filter p).tail := by
  induction ys with
  | nil => rw [put, List.filter_cons_of_pos hx]; rfl
  | cons y ys ih =>
    rw [put]
    cases hy : p y with
    | true => rw [if_pos rfl, List.filter_cons_of_pos hx, List.filter_cons_of_pos hy]; rfl
    | false => rw [if_neg (by simp), List.filter_cons_of_neg (by simp [hy]),
        List.filter_cons_of_neg (by simp [hy]), ih]

/-- Others stay where they are. -/
theorem filter_put_of_other (hx : q x = false) (h : ∀ y, p y = true → q y = false) (ys : List α) :
    (put p x ys).filter q = ys.filter q := by
  induction ys with
  | nil => rw [put, List.filter_cons_of_neg (by simp [hx])]
  | cons y ys ih =>
    rw [put]
    cases hy : p y with
    | true => rw [if_pos rfl, List.filter_cons_of_neg (by simp [hx]),
        List.filter_cons_of_neg (by simp [h y hy])]
    | false =>
      rw [if_neg (by simp), List.filter_cons, List.filter_cons, ih]

/-- The first of the others too. -/
theorem findIdx?_put_of_other (hx : q x = false) (h : ∀ y, p y = true → q y = false) (ys : List α) :
    (put p x ys).findIdx? q = ys.findIdx? q := by
  induction ys with
  | nil => rw [put, List.findIdx?_cons, if_neg (by simp [hx])]; rfl
  | cons y ys ih =>
    rw [put]
    cases hy : p y with
    | true =>
      rw [if_pos rfl, List.findIdx?_cons, List.findIdx?_cons, if_neg (by simp [hx]),
        if_neg (by simp [h y hy])]
    | false => rw [if_neg (by simp), List.findIdx?_cons, List.findIdx?_cons, ih]

theorem put_eq_append (h : xs.findIdx? p = none) : put p x xs = xs ++ [x] := by
  have hput : put p x (xs ++ []) = xs ++ put p x [] := put_of_none (List.findIdx?_eq_none_iff.mp h)
  rwa [List.append_nil] at hput

/-- Putting `x` into `ys` only is right for `xs ++ ys`: none stands in `xs`, or the first one
of both is `x` already. -/
def InPlace (p : α → Bool) (x : α) (xs ys : List α) : Prop :=
  (∀ y ∈ xs, p y = false) ∨ xs.find? p = some x ∧ ys.find? p = some x

theorem InPlace.put_eq (h : InPlace p x xs ys) : xs ++ put p x ys = put p x (xs ++ ys) := by
  rcases h with hnone | ⟨hxs, hys⟩
  · exact (put_of_none hnone).symm
  · have hsome : ∃ y ∈ xs, p y = true := ⟨x, List.mem_of_find?_eq_some hxs, List.find?_some hxs⟩
    rw [put_of_some hsome, put_eq_self hxs, put_eq_self hys]

/-- It shows in what satisfies `p` when it is wrong. -/
theorem filter_put_iff (hx : p x = true) :
    (xs ++ put p x ys).filter p = (put p x (xs ++ ys)).filter p ↔ InPlace p x xs ys := by
  refine ⟨fun h => ?_, fun h => congrArg _ h.put_eq⟩
  rw [List.filter_append, filter_put hx, filter_put hx, List.filter_append] at h
  cases hfilter : xs.filter p with
  | nil => exact .inl fun y hy => by simpa using List.filter_eq_nil_iff.mp hfilter y hy
  | cons z zs =>
    rw [hfilter, List.cons_append, List.cons_append, List.tail_cons, List.cons.injEq,
      List.append_cancel_left_eq] at h
    obtain ⟨rfl, hys⟩ := h
    refine .inr ⟨?_, ?_⟩
    · rw [← List.head?_filter, hfilter]
      rfl
    · rw [← List.head?_filter, ← hys]
      rfl

end

/-! ### Lists in parts -/

/-- A list in parts, of which new ones have room for `nalloc` elements. -/
structure PartList (α : Type) where
  nalloc : ℕ
  parts : List (List α)
  parts_ne : parts ≠ []
  nonempty : ∀ part ∈ parts.tail, part ≠ []

namespace PartList

variable {α : Type} {p : α → Bool} {x : α}

/-- The part and the place in it of the first element that satisfies `p`. -/
def findPart (p : α → Bool) : List (List α) → Option (ℕ × ℕ)
  | [] => none
  | part :: parts =>
    match part.findIdx? p with
    | some j => some (0, j)
    | none => (findPart p parts).map fun place => (place.1 + 1, place.2)

def setPart (k j : ℕ) (x : α) (parts : List (List α)) : List (List α) :=
  parts.modify k fun part => part.set j x

def pushPart (nalloc : ℕ) (x : α) : List (List α) → List (List α)
  | [] => [[x]]
  | [part] => if part.length = nalloc then [part, [x]] else [part ++ [x]]
  | part :: next :: parts => part :: pushPart nalloc x (next :: parts)

/-! ### The operations -/

def toList (l : PartList α) : List α := l.parts.flatten

/-- The elements of the first part. -/
def first (l : PartList α) : List α := l.parts.head l.parts_ne

/-- The first part is everything exactly when there is no other. -/
theorem length_first_eq_iff (l : PartList α) :
    l.first.length = l.toList.length ↔ l.parts.tail = [] := by
  obtain ⟨n, parts, hne, hnonempty⟩ := l
  match parts with
  | [part] => simp [first, toList]
  | part :: next :: parts =>
    have hnext : next.length ≠ 0 := fun h =>
      hnonempty next List.mem_cons_self (List.length_eq_zero_iff.mp h)
    refine iff_of_false (fun h => ?_) (List.cons_ne_nil _ _)
    simp only [first, toList, List.head_cons, List.flatten_cons, List.length_append] at h
    omega

theorem mem_toList_of_mem_first {l : PartList α} (h : x ∈ l.first) : x ∈ l.toList :=
  List.mem_flatten_of_mem (List.head_mem l.parts_ne) h

theorem toList_of_tail (l : PartList α) (h : l.parts.tail = []) : l.toList = l.first := by
  match l, h with
  | ⟨_, [part], _, _⟩, _ => simp [first, toList]

/-- The elements of the parts before a part, and from it on. -/
def before (l : PartList α) (k : ℕ) : List α := (l.parts.take k).flatten

def after (l : PartList α) (k : ℕ) : List α := (l.parts.drop k).flatten

theorem before_append_after (l : PartList α) (k : ℕ) : l.before k ++ l.after k = l.toList := by
  rw [before, after, ← List.flatten_append, List.take_append_drop]
  rfl

/-- The last part. -/
def last (l : PartList α) : ℕ := l.parts.length - 1

/-- A walk from part `k` on. -/
def findFrom (l : PartList α) (p : α → Bool) (k : ℕ) : Option (ℕ × ℕ) :=
  (findPart p (l.parts.drop k)).map fun place => (k + place.1, place.2)

theorem setPart_ne {k j : ℕ} {parts : List (List α)} (h : ∀ part ∈ parts, part ≠ []) :
    ∀ part ∈ setPart k j x parts, part ≠ [] := by
  intro part hmem
  rw [setPart, List.mem_iff_getElem?] at hmem
  obtain ⟨i, hi⟩ := hmem
  rw [List.getElem?_modify] at hi
  obtain ⟨old, hold, rfl⟩ := Option.map_eq_some_iff.mp hi
  have hne := h old (List.mem_of_getElem? hold)
  split
  · rwa [Ne, List.set_eq_nil_iff]
  · exact hne

/-- The element at a place becomes `x`. -/
def setAt (l : PartList α) (k j : ℕ) (x : α) : PartList α where
  nalloc := l.nalloc
  parts := setPart k j x l.parts
  parts_ne := by
    rw [setPart, Ne, List.modify_eq_nil_iff]
    exact l.parts_ne
  nonempty := by
    obtain ⟨n, parts, hne, hnonempty⟩ := l
    cases parts with
    | nil => exact absurd rfl hne
    | cons part parts =>
      cases k with
      | zero => exact hnonempty
      | succ k => exact setPart_ne hnonempty

theorem pushPart_ne {n : ℕ} {parts : List (List α)} (h : ∀ part ∈ parts, part ≠ []) :
    ∀ part ∈ pushPart n x parts, part ≠ [] := by
  induction parts with
  | nil => simp [pushPart]
  | cons part parts ih =>
    obtain ⟨hpart, hparts⟩ := List.forall_mem_cons.mp h
    cases parts with
    | nil =>
      rw [pushPart]
      split
      · simpa using hpart
      · simp
    | cons next parts => exact List.forall_mem_cons.mpr ⟨hpart, ih hparts⟩

/-- `x` is appended to the last part, or to a new one. -/
def push (l : PartList α) (x : α) : PartList α where
  nalloc := l.nalloc
  parts := pushPart l.nalloc x l.parts
  parts_ne := by
    obtain ⟨n, parts, hne, -⟩ := l
    match parts with
    | [part] => rw [pushPart]; split <;> simp
    | part :: next :: parts => exact List.cons_ne_nil _ _
  nonempty := by
    obtain ⟨n, parts, hne, hnonempty⟩ := l
    match parts with
    | [part] => rw [pushPart]; split <;> simp
    | part :: next :: parts => exact pushPart_ne hnonempty

/-- `x` is put where a walk from part `k` on leads, with the part where it ended. -/
def putFrom (l : PartList α) (p : α → Bool) (x : α) (k : ℕ) : ℕ × PartList α :=
  match l.findFrom p k with
  | some (k, j) => (k, l.setAt k j x)
  | none => (l.last, l.push x)

/-! ### What a walk finds -/

theorem setPart_drop {k : ℕ} (i j : ℕ) (x : α) {parts : List (List α)} (hk : k ≤ parts.length) :
    setPart (k + i) j x parts = parts.take k ++ setPart i j x (parts.drop k) := by
  induction k generalizing parts with
  | zero => rw [Nat.zero_add]; rfl
  | succ k ih =>
    cases parts with
    | nil => simp at hk
    | cons part parts =>
      rw [Nat.add_right_comm, List.take_succ_cons, List.drop_succ_cons, List.cons_append,
        ← ih (Nat.le_of_succ_le_succ hk)]
      exact List.modify_succ_cons ..

theorem flatten_setPart (j : ℕ) (x : α) (part : List α) (parts : List (List α)) :
    (setPart 0 j x (part :: parts)).flatten = part.set j x ++ parts.flatten := rfl

theorem flatten_pushPart (n : ℕ) (x : α) (parts : List (List α)) :
    (pushPart n x parts).flatten = parts.flatten ++ [x] := by
  induction parts with
  | nil => rfl
  | cons part parts ih =>
    cases parts with
    | nil => rw [pushPart]; split <;> simp
    | cons next parts =>
      rw [pushPart, List.flatten_cons, ih, ← List.append_assoc]
      rfl

theorem findPart_none {parts : List (List α)} (h : findPart p parts = none) :
    ∀ y ∈ parts.flatten, p y = false := by
  induction parts with
  | nil => simp
  | cons part parts ih =>
    rw [findPart] at h
    cases hpart : part.findIdx? p with
    | some j => simp [hpart] at h
    | none =>
      rw [hpart, Option.map_eq_none_iff] at h
      rw [List.flatten_cons, List.forall_mem_append]
      exact ⟨List.findIdx?_eq_none_iff.mp hpart, ih h⟩

/-- Setting what is found puts the element. -/
theorem findPart_some {parts : List (List α)} {k j : ℕ} (h : findPart p parts = some (k, j)) :
    (setPart k j x parts).flatten = put p x parts.flatten ∧ k < parts.length := by
  induction parts generalizing k j with
  | nil => cases h
  | cons part parts ih =>
    rw [findPart] at h
    cases hpart : part.findIdx? p with
    | some i =>
      rw [hpart] at h
      cases h
      obtain ⟨hi, hp, -⟩ := List.findIdx?_eq_some_iff_getElem.mp hpart
      rw [flatten_setPart, List.flatten_cons, put_of_some ⟨_, List.getElem_mem hi, hp⟩,
        put_eq_set hpart]
      exact ⟨rfl, Nat.succ_pos _⟩
    | none =>
      rw [hpart] at h
      obtain ⟨⟨k, j⟩, hfound, heq⟩ := Option.map_eq_some_iff.mp h
      cases heq
      obtain ⟨hflatten, hk⟩ := ih hfound
      rw [List.flatten_cons, put_of_none (List.findIdx?_eq_none_iff.mp hpart), ← hflatten]
      exact ⟨rfl, Nat.succ_lt_succ hk⟩

/-- What a walk finds, or does not find, is put into the list from part `k` on. -/
theorem toList_putFrom (l : PartList α) (p : α → Bool) (x : α) {k : ℕ} (hk : k < l.parts.length) :
    (l.putFrom p x k).2.toList = l.before k ++ put p x (l.after k) := by
  rw [putFrom, findFrom, before, after]
  cases hfound : findPart p (l.parts.drop k) with
  | none =>
    show (pushPart l.nalloc x l.parts).flatten = _
    have hput := put_eq_append (x := x) (List.findIdx?_eq_none_iff.mpr (findPart_none hfound))
    rw [flatten_pushPart, hput, ← List.append_assoc, ← List.flatten_append, List.take_append_drop]
  | some place =>
    obtain ⟨i, j⟩ := place
    show (setPart (k + i) j x l.parts).flatten = _
    rw [setPart_drop i j x (Nat.le_of_lt hk), List.flatten_append, (findPart_some hfound).1]

theorem length_pushPart (n : ℕ) (x : α) (parts : List (List α)) :
    parts.length ≤ (pushPart n x parts).length := by
  induction parts with
  | nil => exact Nat.zero_le _
  | cons part parts ih =>
    cases parts with
    | nil => rw [pushPart]; split <;> simp
    | cons next parts => exact Nat.succ_le_succ ih

/-- A walk ends in a part of the list. -/
theorem putFrom_lt (l : PartList α) (p : α → Bool) (x : α) (k : ℕ) :
    (l.putFrom p x k).1 < (l.putFrom p x k).2.parts.length := by
  rw [putFrom, findFrom]
  cases hfound : findPart p (l.parts.drop k) with
  | none =>
    have hpos := List.length_pos_iff.mpr l.parts_ne
    have hlength := length_pushPart l.nalloc x l.parts
    show l.parts.length - 1 < (pushPart l.nalloc x l.parts).length
    omega
  | some place =>
    have hlt := (findPart_some (x := x) hfound).2
    rw [List.length_drop] at hlt
    show k + place.1 < (setPart _ _ x l.parts).length
    rw [setPart, List.length_modify]
    omega

/-! ### Where a walk may start -/

theorem findPart_drop {k : ℕ} {parts : List (List α)}
    (h : ∀ y ∈ (parts.take k).flatten, p y = false) :
    findPart p parts = (findPart p (parts.drop k)).map fun place => (k + place.1, place.2) := by
  induction k generalizing parts with
  | zero => simp
  | succ k ih =>
    cases parts with
    | nil => rfl
    | cons part parts =>
      rw [List.take_succ_cons, List.flatten_cons, List.forall_mem_append] at h
      rw [findPart, List.findIdx?_eq_none_iff.mpr h.1, List.drop_succ_cons]
      show (findPart p parts).map _ = _
      rw [ih h.2, Option.map_map]
      refine congrArg (Option.map · _) (funext fun place => ?_)
      exact Prod.ext (Nat.add_right_comm ..) rfl

theorem setPart_eq_self {parts : List (List α)} {k j : ℕ} (h : findPart p parts = some (k, j))
    (hfind : parts.flatten.find? p = some x) : setPart k j x parts = parts := by
  induction parts generalizing k j with
  | nil => cases h
  | cons part parts ih =>
    rw [findPart] at h
    rw [List.flatten_cons, List.find?_append] at hfind
    cases hpart : part.findIdx? p with
    | some i =>
      rw [hpart] at h
      cases h
      obtain ⟨hi, hp, -⟩ := List.findIdx?_eq_some_iff_getElem.mp hpart
      have hsome : (part.find? p).isSome := List.find?_isSome.mpr ⟨_, List.getElem_mem hi, hp⟩
      rw [Option.or_of_isSome hsome] at hfind
      show part.set j x :: parts = part :: parts
      rw [← put_eq_set hpart, put_eq_self hfind]
    | none =>
      rw [hpart] at h
      obtain ⟨⟨k, j⟩, hfound, heq⟩ := Option.map_eq_some_iff.mp h
      cases heq
      have hnone : part.find? p = none :=
        List.find?_eq_none.mpr fun y hy => by simp [List.findIdx?_eq_none_iff.mp hpart y hy]
      rw [hnone, Option.none_or] at hfind
      exact congrArg (part :: ·) (ih hfound hfind)

theorem setAt_eq_self {l : PartList α} {k j : ℕ} (h : setPart k j x l.parts = l.parts) :
    l.setAt k j x = l := by
  cases l
  exact (mk.injEq ..).mpr ⟨rfl, h⟩

/-- Nothing changes where a walk leads to the element itself. -/
theorem putFrom_eq_self {l : PartList α} {k : ℕ} (hk : k ≤ l.parts.length)
    (h : (l.after k).find? p = some x) : (l.putFrom p x k).2 = l := by
  rw [putFrom, findFrom]
  cases hfound : findPart p (l.parts.drop k) with
  | none =>
    have hnone := findPart_none hfound x (List.mem_of_find?_eq_some h)
    rw [List.find?_some h] at hnone
    cases hnone
  | some place =>
    refine setAt_eq_self ?_
    rw [setPart_drop _ _ _ hk, setPart_eq_self hfound h, List.take_append_drop]

/-- Where an element is put in place, the walk could have started at the first part. -/
theorem putFrom_of_inPlace {l : PartList α} {k : ℕ} (hk : k < l.parts.length)
    (h : InPlace p x (l.before k) (l.after k)) :
    (l.putFrom p x k).2 = (l.putFrom p x 0).2 := by
  rcases h with hnone | ⟨hbefore, hafter⟩
  · have hfound : l.findFrom p 0 = l.findFrom p k := by
      rw [findFrom, findFrom, List.drop_zero, findPart_drop hnone, Option.map_map]
      refine congrArg (Option.map · _) (funext fun place => ?_)
      exact Prod.ext (Nat.zero_add _) rfl
    rw [putFrom, putFrom, hfound]
  · have hall : (l.after 0).find? p = some x := by
      show l.toList.find? p = some x
      rw [← l.before_append_after k, List.find?_append, hbefore]
      rfl
    rw [putFrom_eq_self (Nat.le_of_lt hk) hafter, putFrom_eq_self (Nat.zero_le _) hall]

end PartList

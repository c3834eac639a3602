/-
Loops that look for an element and return from the function when they have found it.

The elements with `p` are looked for, and what the function returns for one is `f`.  Without
one the loop goes on with a flag that tells whether an element with `q` was passed over.

* `search_append` — two loops one after the other are one over both lists;
* `foldlM_search` — a loop whose body is such a loop is one over all the inner lists.
-/
import Mathlib.Data.List.Basic

namespace EarlyReturn

variable {α β ε : Type} (p q : α → Bool) (f : α → ε)

/-- What a loop with the flag `found` comes to; an exception is a return. -/
def search (l : List α) (found : Bool) : Except ε Bool :=
  match l.find? p with
  | some a => .error (f a)
  | none => .ok (found || l.any q)

variable {p q : α → Bool} {f : α → ε}

@[simp] theorem search_nil (found : Bool) : search p q f [] found = .ok found := by
  simp [search]

theorem search_cons_of_pos {a : α} (h : p a = true) (l : List α) (found : Bool) :
    search p q f (a :: l) found = .error (f a) := by
  simp [search, h]

theorem search_cons_of_neg {a : α} (h : p a = false) (l : List α) (found : Bool) :
    search p q f (a :: l) found = search p q f l (found || q a) := by
  simp [search, h, Bool.or_assoc]

theorem search_append (l₁ l₂ : List α) (found : Bool) :
    search p q f (l₁ ++ l₂) found = (search p q f l₁ found).bind (search p q f l₂) := by
  induction l₁ generalizing found with
  | nil => simp [Except.bind]
  | cons a l₁ ih =>
    rw [List.cons_append]
    by_cases h : p a = true
    · rw [search_cons_of_pos h, search_cons_of_pos h]
      rfl
    · rw [Bool.not_eq_true] at h
      rw [search_cons_of_neg h, search_cons_of_neg h, ih]

theorem foldlM_search (g : β → List α) (xs : List β) (found : Bool) :
    xs.foldlM (fun found x => search p q f (g x) found) found =
      search p q f (xs.flatMap g) found := by
  induction xs generalizing found with
  | nil => rw [List.flatMap_nil, search_nil, List.foldlM_nil]; rfl
  | cons x xs ih =>
    rw [List.foldlM_cons, List.flatMap_cons, search_append]
    show (search p q f (g x) found).bind _ = _
    congr 1
    funext found'
    exact ih found'

end EarlyReturn

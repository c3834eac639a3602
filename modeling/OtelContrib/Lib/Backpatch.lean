/-
Append-only lists of fields, with struct headers whose count is patched in later.

A header with count `n` owns the `n` items behind it.  A count has seven bits.

* `entries_header` — a header with the right count owns its fields and nothing else;
* `patch_header`, `patch_of_fields` — patching changes the header it is meant for, and
  nothing where there is none.
-/
import OtelContrib.Lib.Text
import Mathlib.Data.List.Basic

namespace Backpatch

variable {α : Type}

inductive Item (α : Type)
  | field (f : α)
  | header (name : Bytes) (count : Nat)

/-- What a list of items is read as: a field, or a struct and what it owns. -/
inductive Entry (α : Type)
  | field (f : α)
  | struct (name : Bytes) (owned : List (Item α))

/-- The low seven bits of `n` become the count of the header at position `b`. -/
def patch (items : List (Item α)) (b n : Nat) : List (Item α) :=
  items.modify b fun
    | .header name _ => .header name (n % 128)
    | .field f => .field f

/-- The items that belong to a struct which still owns `k` of them, and the entries after. -/
def decode : Nat → List (Item α) → List (Item α) × List (Entry α)
  | _, [] => ([], [])
  | 0, .field f :: rest => ([], .field f :: (decode 0 rest).2)
  | 0, .header name n :: rest =>
    let (owned, entries) := decode n rest
    ([], .struct name owned :: entries)
  | k + 1, item :: rest =>
    let (owned, entries) := decode k rest
    (item :: owned, entries)

def entries (items : List (Item α)) : List (Entry α) := (decode 0 items).2

/-- Fields alone, as items. -/
def fields (fs : List α) : List (Item α) := fs.map .field

theorem decode_eq (k : Nat) (items : List (Item α)) :
    decode k items = (items.take k, entries (items.drop k)) := by
  induction items generalizing k with
  | nil => cases k <;> rfl
  | cons item items ih =>
    cases k with
    | zero => cases item <;> rfl
    | succ k => rw [decode, ih k]; rfl

@[simp]
theorem entries_field (f : α) (rest : List (Item α)) :
    entries (.field f :: rest) = .field f :: entries rest := rfl

theorem entries_header (name : Bytes) (n : Nat) (rest : List (Item α)) :
    entries (.header name n :: rest) = .struct name (rest.take n) :: entries (rest.drop n) := by
  rw [entries, decode, decode_eq]

theorem entries_fields (fs : List α) : entries (fields fs) = fs.map .field := by
  induction fs with
  | nil => rfl
  | cons f fs ih => exact congrArg (.field f :: ·) ih

/-- A header whose count is the number of its fields owns them. -/
theorem entries_struct (name : Bytes) {n : Nat} (fs : List α) (hn : n = fs.length)
    (rest : List (Item α)) :
    entries (.header name n :: (fields fs ++ rest)) = .struct name (fields fs) :: entries rest := by
  have hlength : (fields fs).length = n := by rw [fields, List.length_map, hn]
  rw [entries_header, ← hlength, List.take_left, List.drop_left]

/-- What a header owns of fields, and what is left of them. -/
theorem entries_short (name : Bytes) (n : Nat) (fs : List α) :
    entries (.header name n :: fields fs)
      = .struct name (fields (fs.take n)) :: (fs.drop n).map .field := by
  rw [entries_header, fields, ← List.map_take, ← List.map_drop]
  exact congrArg (_ :: ·) (entries_fields _)

theorem patch_header (before : List (Item α)) {b : Nat} (hb : b = before.length) (name : Bytes)
    (count n : Nat) (after : List (Item α)) :
    patch (before ++ .header name count :: after) b n
      = before ++ .header name (n % 128) :: after := by
  subst hb
  induction before with
  | nil => rfl
  | cons item before ih => exact congrArg (item :: ·) ih

/-- Patching where a field stands, or nothing, changes nothing. -/
theorem patch_of_fields {items : List (Item α)} {b : Nat}
    (h : ∀ name count, items[b]? ≠ some (.header name count)) (n : Nat) :
    patch items b n = items := by
  refine List.ext_getElem? fun j => ?_
  rw [patch, List.getElem?_modify]
  by_cases hj : b = j
  · subst hj
    cases hitem : items[b]? with
    | none => rfl
    | some item =>
      cases item with
      | field f => simp
      | header name count => exact absurd hitem (h name count)
  · simp [hj]

end Backpatch

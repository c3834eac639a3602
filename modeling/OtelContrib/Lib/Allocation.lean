/-
Allocations of a fixed number of elements.

A read or a write outside of an allocation is undefined, and `none` here.

* `readAt_append`, `writeAt_append` — a read gives the elements there, and a write replaces them
  and changes nothing else;
* `fill_eq` — a loop that writes what it chooses one after the other is defined exactly when
  that fits;
* `filterMap_eq_of_length_eq` — choices of which one refines the other are the same where they
  choose as many.
-/
import Mathlib.Data.List.Basic

namespace Allocation

variable {α β : Type}

/-- `n` elements are read from an index on. -/
def readAt (buffer : List α) (i n : ℕ) : Option (List α) :=
  if i + n ≤ buffer.length then some ((buffer.drop i).take n) else none

/-- Elements are written from an index on. -/
def writeAt (buffer : List α) (i : ℕ) (xs : List α) : Option (List α) :=
  if i + xs.length ≤ buffer.length then
    some (buffer.take i ++ (xs ++ buffer.drop (i + xs.length)))
  else none

/-- One element is changed. -/
def modifyAt (buffer : List α) (i : ℕ) (f : α → α) : Option (List α) :=
  if i < buffer.length then some (buffer.modify i f) else none

/-- A loop that writes what `f` chooses of some items, and counts it. -/
def fill (f : β → Option α) (idx : ℕ) (buffer : List α) : List β → Option (ℕ × List α)
  | [] => some (idx, buffer)
  | b :: bs =>
    match f b with
    | none => fill f idx buffer bs
    | some a => do
      let buffer ← writeAt buffer idx [a]
      fill f (idx + 1) buffer bs

/-! ### Reads and writes -/

theorem readAt_append {pre xs post : List α} {i n : ℕ} (hi : i = pre.length) (hn : n = xs.length) :
    readAt (pre ++ (xs ++ post)) i n = some xs := by
  subst hi hn
  have hle : pre.length + xs.length ≤ (pre ++ (xs ++ post)).length := by
    rw [List.length_append, List.length_append]
    omega
  rw [readAt, if_pos hle, List.drop_left, List.take_left]

theorem readAt_zero_iff {buffer xs : List α} {n : ℕ} :
    readAt buffer 0 n = some xs ↔ n ≤ buffer.length ∧ xs = buffer.take n := by
  rw [readAt, Nat.zero_add, List.drop_zero]
  split
  next hle => rw [Option.some_inj, eq_comm, and_iff_right hle]
  next hnot => exact iff_of_false nofun fun h => hnot h.1

theorem writeAt_append {pre old post xs : List α} {i : ℕ} (hi : i = pre.length)
    (hlength : xs.length = old.length) :
    writeAt (pre ++ (old ++ post)) i xs = some (pre ++ (xs ++ post)) := by
  subst hi
  have hle : pre.length + xs.length ≤ (pre ++ (old ++ post)).length := by
    rw [List.length_append, List.length_append]
    omega
  rw [writeAt, if_pos hle, List.take_left, ← List.drop_drop, List.drop_left, hlength,
    List.drop_left]

theorem writeAt_eq_none {buffer xs : List α} {i : ℕ} (h : buffer.length < i + xs.length) :
    writeAt buffer i xs = none :=
  if_neg (Nat.not_le_of_lt h)

theorem length_writeAt {buffer buffer' xs : List α} {i : ℕ}
    (h : writeAt buffer i xs = some buffer') :
    buffer'.length = buffer.length := by
  rw [writeAt] at h
  split at h
  case isTrue hle =>
    obtain rfl := Option.some.inj h
    simp only [List.length_append, List.length_take, List.length_drop]
    omega
  case isFalse => cases h

theorem modifyAt_append {pre post : List α} {i : ℕ} (hi : i = pre.length) (x : α) (f : α → α) :
    modifyAt (pre ++ x :: post) i f = some (pre ++ f x :: post) := by
  subst hi
  have hmodify : (pre ++ x :: post).modify pre.length f = pre ++ f x :: post := by
    induction pre with
    | nil => rfl
    | cons y pre ih => exact congrArg (y :: ·) ih
  rw [modifyAt, if_pos (by simp), hmodify]

theorem length_modifyAt {buffer buffer' : List α} {i : ℕ} {f : α → α}
    (h : modifyAt buffer i f = some buffer') : buffer'.length = buffer.length := by
  rw [modifyAt] at h
  split at h
  case isTrue =>
    obtain rfl := Option.some.inj h
    exact List.length_modify ..
  case isFalse => cases h

/-! ### Loops -/

/-- A loop is defined exactly when what it chooses fits behind what is written. -/
theorem fill_eq (f : β → Option α) (items : List β) {idx : ℕ} (written free : List α)
    (hidx : idx = written.length) :
    fill f idx (written ++ free) items =
      if (items.filterMap f).length ≤ free.length then
        some (idx + (items.filterMap f).length,
          written ++ (items.filterMap f ++ free.drop (items.filterMap f).length))
      else none := by
  induction items generalizing idx written free with
  | nil =>
    rw [fill, List.filterMap_nil]
    exact (if_pos (Nat.zero_le _)).symm
  | cons b items ih =>
    cases hb : f b with
    | none =>
      rw [fill, hb, List.filterMap_cons_none hb]
      exact ih written free hidx
    | some a =>
      rw [fill, hb, List.filterMap_cons_some hb]
      cases free with
      | nil =>
        have hnone : writeAt (written ++ []) idx [a] = none := writeAt_eq_none (by simp [hidx])
        show ((writeAt (written ++ []) idx [a]).bind fun _ => _) = _
        rw [hnone]
        exact (if_neg (Nat.not_succ_le_zero _)).symm
      | cons old free =>
        have hwrite : writeAt (written ++ old :: free) idx [a] = some (written ++ [a] ++ free) := by
          rw [List.append_assoc]
          exact @writeAt_append _ written [old] free [a] idx hidx rfl
        show ((writeAt (written ++ old :: free) idx [a]).bind fun _ => _) = _
        rw [hwrite, Option.bind_some, ih _ _ (by simp [hidx])]
        simp only [List.length_cons, Nat.succ_le_succ_iff, List.drop_succ_cons, List.append_assoc,
          List.cons_append, List.nil_append, Nat.add_assoc, Nat.add_comm 1]

/-- The first elements of a filled allocation are what was chosen. -/
theorem fill_eq_some {f : β → Option α} {items : List β} {buffer buffer' : List α} {count : ℕ}
    (h : fill f 0 buffer items = some (count, buffer')) :
    count = (items.filterMap f).length ∧ count ≤ buffer.length ∧
      buffer'.take count = items.filterMap f := by
  have hfill := @fill_eq _ _ f items 0 [] buffer rfl
  rw [List.nil_append, h] at hfill
  split at hfill
  case isTrue hle =>
    obtain ⟨rfl, rfl⟩ := Prod.mk.inj (Option.some.inj hfill)
    rw [Nat.zero_add, List.nil_append, List.take_left]
    exact ⟨rfl, hle, rfl⟩
  case isFalse => cases hfill

theorem fill_isSome_iff {f : β → Option α} {items : List β} {buffer : List α} :
    (fill f 0 buffer items).isSome ↔ (items.filterMap f).length ≤ buffer.length := by
  have hfill := @fill_eq _ _ f items 0 [] buffer rfl
  rw [List.nil_append] at hfill
  rw [hfill]
  split
  case isTrue h => exact iff_of_true rfl h
  case isFalse h => exact iff_of_false Bool.false_ne_true h

/-! ### Choices -/

theorem filterMap_length_le {f g : β → Option α} (hfg : ∀ b a, f b = some a → g b = some a)
    (items : List β) : (items.filterMap f).length ≤ (items.filterMap g).length := by
  induction items with
  | nil => exact Nat.le_refl _
  | cons b items ih =>
    rw [List.filterMap_cons, List.filterMap_cons]
    cases hf : f b with
    | some a => rw [hfg b a hf]; exact Nat.succ_le_succ ih
    | none =>
      cases g b with
      | none => exact ih
      | some a => exact Nat.le_succ_of_le ih

/-- Where a choice refines another and chooses as many items, they are the same. -/
theorem filterMap_eq_of_length_eq {f g : β → Option α} (hfg : ∀ b a, f b = some a → g b = some a)
    {items : List β} (h : (items.filterMap f).length = (items.filterMap g).length) :
    ∀ b ∈ items, f b = g b := by
  induction items with
  | nil => simp
  | cons b items ih =>
    rw [List.filterMap_cons, List.filterMap_cons] at h
    rw [List.forall_mem_cons]
    cases hf : f b with
    | some a =>
      rw [hf, hfg b a hf] at h
      exact ⟨(hfg b a hf).symm, ih (Nat.succ.inj h)⟩
    | none =>
      rw [hf] at h
      cases hg : g b with
      | none =>
        rw [hg] at h
        exact ⟨rfl, ih h⟩
      | some a =>
        rw [hg] at h
        have hle := filterMap_length_le hfg items
        have hsucc : (items.filterMap f).length = (items.filterMap g).length + 1 := h
        omega

end Allocation

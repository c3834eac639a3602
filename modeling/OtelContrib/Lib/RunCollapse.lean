/-
Runs of bad elements, collapsed.

A list falls into the maximal runs of its bad elements and the other ones, one by one.
Collapsed, every run is one element; marked, the list keeps its length, and the elements of
a run but for the first are marked as duplicates.

* `collapse_cons_of_good`, `collapse_cons_of_bad` — the list collapses from the front on;
* `filter_marked` — without the duplicates, the marked list is the collapsed one;
* `isChain_collapse`, `filter_collapse`, `head?_collapse` — what is between the others, what
  is kept, and what comes first;
* `collapse_eq_map` — runs of one element each stay as they are.
-/
import Mathlib.Data.List.SplitBy
import Mathlib.Data.List.TakeWhile

namespace RunCollapse

variable {α β : Type}

/-- The maximal runs of bad elements, and the others one by one. -/
def badRuns (bad : β → Bool) (xs : List β) : List (List β) := xs.splitBy fun x y => bad x && bad y

/-- Every run of bad elements becomes `r`. -/
def collapse (bad : β → Bool) (out : β → α) (r : α) (xs : List β) : List α :=
  (badRuns bad xs).flatMap fun run => if run.any bad then [r] else run.map out

/-- Every bad element becomes `r`, or `dup` where the one before it is bad too. -/
def marked (bad : β → Bool) (out : β → α) (r dup : α) : Bool → List β → List α
  | _, [] => []
  | behindBad, x :: xs =>
    (if bad x then (if behindBad then dup else r) else out x) :: marked bad out r dup (bad x) xs

variable {bad : β → Bool} {out : β → α} {r dup : α} {x : β} {xs : List β}

/-! ### From the front on -/

theorem good_of_head?_dropWhile (h : x ∈ (xs.dropWhile bad).head?) : bad x = false := by
  have hgood := List.head?_dropWhile_not bad xs
  rw [Option.mem_def.mp h] at hgood
  exact hgood

theorem badRuns_cons_of_good (hx : bad x = false) (xs : List β) :
    badRuns bad (x :: xs) = [x] :: badRuns bad xs := by
  have hend : ∀ y ∈ [x].getLast?, ∀ z ∈ xs.head?, (bad y && bad z) = false := by simp [hx]
  exact List.splitBy_append hend

theorem badRuns_cons_of_bad (hx : bad x = true) (xs : List β) :
    badRuns bad (x :: xs) = (x :: xs.takeWhile bad) :: badRuns bad (xs.dropWhile bad) := by
  have hbad : ∀ y ∈ x :: xs.takeWhile bad, bad y = true := by
    intro y hy
    rcases List.mem_cons.mp hy with rfl | hy
    · exact hx
    · exact List.mem_takeWhile_imp hy
  -- the run is one group, and the element behind it is good
  have hrun : (x :: xs.takeWhile bad).splitBy (fun x y => bad x && bad y) =
      [x :: xs.takeWhile bad] := by
    refine List.splitBy_of_isChain (List.cons_ne_nil _ _) (List.Pairwise.isChain ?_)
    refine List.pairwise_of_forall_mem_list fun y hy z hz => ?_
    rw [hbad y hy, hbad z hz]
    rfl
  have hend : ∀ y ∈ (x :: xs.takeWhile bad).getLast?, ∀ z ∈ (xs.dropWhile bad).head?,
      (bad y && bad z) = false := by
    intro y _ z hz
    rw [good_of_head?_dropWhile hz, Bool.and_false]
  have happend := List.splitBy_append (r := fun x y => bad x && bad y) hend
  rw [hrun, List.cons_append, List.takeWhile_append_dropWhile] at happend
  exact happend

@[simp] theorem collapse_nil : collapse bad out r [] = [] := rfl

theorem collapse_cons_of_good (hx : bad x = false) (xs : List β) :
    collapse bad out r (x :: xs) = out x :: collapse bad out r xs := by
  rw [collapse, badRuns_cons_of_good hx, List.flatMap_cons, List.any_cons, hx]
  rfl

theorem collapse_cons_of_bad (hx : bad x = true) (xs : List β) :
    collapse bad out r (x :: xs) = r :: collapse bad out r (xs.dropWhile bad) := by
  rw [collapse, badRuns_cons_of_bad hx, List.flatMap_cons, List.any_cons, hx]
  rfl

/-- What holds of the empty list, and goes from behind a good element or a whole run to in
front of it, holds of every list. -/
theorem run_induction {motive : List β → Prop} (bad : β → Bool) (nil : motive [])
    (good : ∀ x xs, bad x = false → motive xs → motive (x :: xs))
    (run : ∀ x xs, bad x = true → motive (xs.dropWhile bad) → motive (x :: xs)) :
    ∀ xs, motive xs
  | [] => nil
  | x :: xs => by
    cases hx : bad x with
    | false => exact good x xs hx (run_induction bad nil good run xs)
    | true => exact run x xs hx (run_induction bad nil good run (xs.dropWhile bad))
termination_by xs => xs.length
decreasing_by
  · exact Nat.lt_succ_self _
  · exact Nat.lt_succ_of_le (List.dropWhile_sublist bad).length_le

/-! ### Marks -/

/-- Without the duplicates, a marked list is collapsed; behind a bad element, the rest of
its run is gone. -/
theorem filter_marked [DecidableEq α] (hr : r ≠ dup) (hout : ∀ x, bad x = false → out x ≠ dup)
    (behindBad : Bool) (xs : List β) :
    (marked bad out r dup behindBad xs).filter (· ≠ dup) =
      collapse bad out r (if behindBad then xs.dropWhile bad else xs) := by
  induction xs generalizing behindBad with
  | nil => cases behindBad <;> rfl
  | cons x xs ih =>
    rw [marked]
    cases hx : bad x with
    | false =>
      have hrest : (if behindBad then (x :: xs).dropWhile bad else x :: xs) = x :: xs := by
        rw [List.dropWhile_cons_of_neg (by simp [hx]), ite_self]
      rw [if_neg Bool.false_ne_true, List.filter_cons_of_pos (by simpa using hout x hx), ih, hrest,
        collapse_cons_of_good hx]
      rfl
    | true =>
      cases behindBad with
      | false =>
        simp only [if_true, Bool.false_eq_true, if_false]
        rw [List.filter_cons_of_pos (by simpa using hr), ih, collapse_cons_of_bad hx]
        rfl
      | true =>
        simp only [if_true]
        rw [List.filter_cons_of_neg (by simp), ih, List.dropWhile_cons_of_pos hx]
        rfl

/-! ### What a collapsed list is like -/

theorem head?_collapse (xs : List β) :
    (collapse bad out r xs).head? = xs.head?.map fun x => if bad x then r else out x := by
  cases xs with
  | nil => rfl
  | cons x xs =>
    cases hx : bad x with
    | false => rw [collapse_cons_of_good hx]; simp [hx]
    | true => rw [collapse_cons_of_bad hx]; simp [hx]

/-- No two replacements come one after the other. -/
theorem isChain_collapse (hout : ∀ x, bad x = false → out x ≠ r) (xs : List β) :
    (collapse bad out r xs).IsChain fun a b => ¬ (a = r ∧ b = r) := by
  induction xs using run_induction bad with
  | nil => exact List.isChain_nil
  | good x xs hx ih =>
    rw [collapse_cons_of_good hx, List.isChain_cons]
    exact ⟨fun b _ h => hout x hx h.1, ih⟩
  | run x xs hx ih =>
    rw [collapse_cons_of_bad hx, List.isChain_cons]
    refine ⟨fun b hb h => ?_, ih⟩
    rw [head?_collapse] at hb
    obtain ⟨y, hy, rfl⟩ := Option.map_eq_some_iff.mp hb
    have hgood := good_of_head?_dropWhile hy
    rw [hgood] at h
    exact hout y hgood h.2

/-- Between the replacements, the good elements are kept in order. -/
theorem filter_collapse [DecidableEq α] (hout : ∀ x, bad x = false → out x ≠ r) (xs : List β) :
    (collapse bad out r xs).filter (· ≠ r) = (xs.filter fun x => !bad x).map out := by
  induction xs using run_induction bad with
  | nil => rfl
  | good x xs hx ih =>
    rw [collapse_cons_of_good hx, List.filter_cons_of_pos (by simpa using hout x hx), ih,
      List.filter_cons_of_pos (by simp [hx]), List.map_cons]
  | run x xs hx ih =>
    have hrun : (xs.takeWhile bad).filter (fun x => !bad x) = [] := by
      refine List.filter_eq_nil_iff.mpr fun y hy => ?_
      simp [List.mem_takeWhile_imp hy]
    rw [collapse_cons_of_bad hx, List.filter_cons_of_neg (by simp), ih,
      List.filter_cons_of_neg (by simp [hx]), ← List.nil_append (List.filter _ (xs.dropWhile bad)),
      ← hrun, ← List.filter_append, List.takeWhile_append_dropWhile]

/-- Every element of a collapsed list is a replacement or a good element. -/
theorem mem_collapse (hout : ∀ x, bad x = false → out x ≠ r) {a : α} (h : a ∈ collapse bad out r xs)
    (hne : a ≠ r) : ∃ x ∈ xs, bad x = false ∧ out x = a := by
  classical
  have hmem : a ∈ (collapse bad out r xs).filter (· ≠ r) :=
    List.mem_filter.mpr ⟨h, by simpa using hne⟩
  rw [filter_collapse hout] at hmem
  obtain ⟨x, hx, rfl⟩ := List.mem_map.mp hmem
  obtain ⟨hxs, hgood⟩ := List.mem_filter.mp hx
  exact ⟨x, hxs, by simpa using hgood, rfl⟩

/-- Where no two bad elements come one after the other and each is a replacement already,
nothing changes. -/
theorem collapse_eq_map (hchain : xs.IsChain fun x y => ¬ (bad x = true ∧ bad y = true))
    (hr : ∀ x ∈ xs, bad x = true → out x = r) : collapse bad out r xs = xs.map out := by
  induction xs with
  | nil => rfl
  | cons x xs ih =>
    obtain ⟨hhead, htail⟩ := List.isChain_cons.mp hchain
    have hrest := ih htail fun y hy => hr y (List.mem_cons_of_mem _ hy)
    cases hx : bad x with
    | false => rw [collapse_cons_of_good hx, hrest, List.map_cons]
    | true =>
      have hdrop : xs.dropWhile bad = xs := by
        cases xs with
        | nil => rfl
        | cons y ys => exact List.dropWhile_cons_of_neg fun hy => hhead y rfl ⟨hx, hy⟩
      rw [collapse_cons_of_bad hx, hdrop, hrest, List.map_cons, hr x List.mem_cons_self hx]

end RunCollapse

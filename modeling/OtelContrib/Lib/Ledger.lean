/-
Records that a system opens one after the other, and closes.

A record is known by its number, and what closes it writes its last entries.  In between it
is left alone.

* `account` — the records as the transitions of a run tell them;
* `kept` — they are those of the state that the run ends in;
* `getElem?_records` — a record with the transitions that opened and closed it.
-/
import OtelContrib.Lib.Runs

/-- What of a state are its records, and the numbers of those that are closed; what record a
transition opens; and what one that closes a record makes of it. -/
structure Ledger (σ α β ρ : Type) where
  records : σ → List ρ
  closed : σ → List ℕ
  opened : Transition σ α β → Option ρ
  finished : Transition σ α β → ρ → ρ

namespace Ledger

variable {σ α β ρ : Type} (L : Ledger σ α β ρ)

/-- The transition closes the record. -/
def closes (n : ℕ) (t : Transition σ α β) : Bool := n ∈ L.closed t.after ∧ n ∉ L.closed t.before

/-- What became of a record, by the transition that closed it if there is one. -/
def outcome (ts : List (Transition σ α β)) (n : ℕ) (r : ρ) : ρ :=
  (ts.find? (L.closes n)).elim r fun t => L.finished t r

/-- The records, told by transitions. -/
def account (ts : List (Transition σ α β)) : List ρ :=
  (ts.filterMap L.opened).mapIdx (L.outcome ts)

/-- What a transition may do: leave the records alone, open one, or close open ones. -/
inductive Entered (t : Transition σ α β) : Prop
  | unchanged (hopened : L.opened t = none) (hrecords : L.records t.after = L.records t.before)
    (hclosed : L.closed t.after = L.closed t.before)
  | opens {r : ρ} (hopened : L.opened t = some r)
    (hrecords : L.records t.after = L.records t.before ++ [r])
    (hclosed : L.closed t.after = L.closed t.before)
  | closes {ns : List ℕ} (hopened : L.opened t = none)
    (hopen : ∀ n ∈ ns, n < (L.records t.before).length ∧ n ∉ L.closed t.before)
    (hrecords : L.records t.after =
      (L.records t.before).mapIdx fun n r => if n ∈ ns then L.finished t r else r)
    (hclosed : L.closed t.after = L.closed t.before ++ ns)

/-- What holds of the records after a run. -/
structure Kept (ts : List (Transition σ α β)) (s : σ) : Prop where
  records : L.records s = L.account ts
  closed_lt : ∀ n ∈ L.closed s, n < (L.records s).length
  closed_iff : ∀ n, n ∈ L.closed s ↔ ∃ t ∈ ts, L.closes n t = true

variable {L} {ts : List (Transition σ α β)} {t : Transition σ α β} {n : ℕ}

theorem closes_iff : L.closes n t = true ↔ n ∈ L.closed t.after ∧ n ∉ L.closed t.before := by
  rw [closes, decide_eq_true_iff]

theorem closes_of_closed_eq (h : L.closed t.after = L.closed t.before) (n : ℕ) :
    L.closes n t = false := by
  rw [← Bool.not_eq_true, closes_iff, h]
  exact fun hcloses => hcloses.2 hcloses.1

/-- An update of one record, told of all that are closed with it. -/
theorem modify_eq_mapIdx {l : List ρ} {ns : List ℕ} {f g : ρ → ρ} (hmem : n ∈ ns)
    (hself : ∀ r, l[n]? = some r → g r = f r)
    (hothers : ∀ i ∈ ns, i ≠ n → ∀ r, l[i]? = some r → g r = r) :
    l.modify n f = l.mapIdx fun i r => if i ∈ ns then g r else r := by
  refine List.ext_getElem? fun i => ?_
  rw [List.getElem?_modify, List.getElem?_mapIdx]
  rcases hget : l[i]? with _ | r
  · rfl
  · by_cases hi : n = i
    · subst hi
      simp [hmem, hself r hget]
    · by_cases hns : i ∈ ns
      · simp [hi, hns, hothers i hns (Ne.symm hi) r hget]
      · simp [hi, hns]

/-! ### One transition more -/

theorem outcome_of_open (h : ∀ u ∈ ts, L.closes n u = false) (r : ρ) : L.outcome ts n r = r := by
  have hnone : ts.find? (L.closes n) = none :=
    List.find?_eq_none.mpr fun u hu => Bool.eq_false_iff.mp (h u hu)
  rw [outcome, hnone]
  rfl

theorem outcome_snoc_of_not_closes (h : L.closes n t = false) (r : ρ) :
    L.outcome (ts ++ [t]) n r = L.outcome ts n r := by
  have hnone : [t].find? (L.closes n) = none := List.find?_cons_of_neg (Bool.eq_false_iff.mp h)
  rw [outcome, outcome, List.find?_append, hnone, Option.or_none]

theorem outcome_snoc_of_closes (hopen : ∀ u ∈ ts, L.closes n u = false)
    (h : L.closes n t = true) (r : ρ) : L.outcome (ts ++ [t]) n r = L.finished t r := by
  have hnone : ts.find? (L.closes n) = none :=
    List.find?_eq_none.mpr fun u hu => Bool.eq_false_iff.mp (hopen u hu)
  have hsome : [t].find? (L.closes n) = some t := List.find?_cons_of_pos h
  rw [outcome, List.find?_append, hnone, hsome]
  rfl

theorem Kept.not_closed (K : L.Kept ts t.before) (hn : n ∉ L.closed t.before) :
    ∀ u ∈ ts, L.closes n u = false := by
  intro u hu
  by_contra hcloses
  exact hn ((K.closed_iff n).mpr ⟨u, hu, by simpa using hcloses⟩)

theorem Kept.snoc_closed_iff (K : L.Kept ts t.before)
    (hmore : ∀ n ∈ L.closed t.before, n ∈ L.closed t.after) (n : ℕ) :
    n ∈ L.closed t.after ↔ ∃ u ∈ ts ++ [t], L.closes n u = true := by
  constructor
  · intro hn
    by_cases hbefore : n ∈ L.closed t.before
    · obtain ⟨u, hu, hcloses⟩ := (K.closed_iff n).mp hbefore
      exact ⟨u, List.mem_append_left _ hu, hcloses⟩
    · exact ⟨t, List.mem_append_right _ List.mem_cons_self, closes_iff.mpr ⟨hn, hbefore⟩⟩
  · rintro ⟨u, hu, hcloses⟩
    rcases List.mem_append.mp hu with hu | hu
    · exact hmore n ((K.closed_iff n).mpr ⟨u, hu, hcloses⟩)
    · obtain rfl := List.mem_singleton.mp hu
      exact (closes_iff.mp hcloses).1

/-- What a transition enters is told by it. -/
theorem Kept.snoc (K : L.Kept ts t.before) (h : L.Entered t) : L.Kept (ts ++ [t]) t.after := by
  have hfilterMap : (ts ++ [t]).filterMap L.opened =
      ts.filterMap L.opened ++ (L.opened t).toList := by
    rw [List.filterMap_append, List.filterMap_cons, List.filterMap_nil]
    cases L.opened t <;> rfl
  have hlength : (ts.filterMap L.opened).length = (L.records t.before).length := by
    rw [K.records, account, List.length_mapIdx]
  cases h with
  | unchanged hopened hrecords hclosed =>
    refine ⟨?_, ?_, K.snoc_closed_iff fun n hn => hclosed ▸ hn⟩
    · rw [hrecords, K.records, account, account, hfilterMap, hopened, Option.toList_none,
        List.append_nil]
      refine congrArg (fun f => List.mapIdx f _) (funext fun n => funext fun r => ?_)
      exact (outcome_snoc_of_not_closes (closes_of_closed_eq hclosed n) r).symm
    · rw [hrecords, hclosed]
      exact K.closed_lt
  | @opens new hopened hrecords hclosed =>
    refine ⟨?_, ?_, K.snoc_closed_iff fun n hn => hclosed ▸ hn⟩
    · have hsame : L.outcome (ts ++ [t]) = L.outcome ts := funext fun n => funext fun r =>
        outcome_snoc_of_not_closes (closes_of_closed_eq hclosed n) r
      -- the new record has a number that was never closed
      have hnew : L.outcome ts (ts.filterMap L.opened).length new = new := by
        refine outcome_of_open (K.not_closed fun hmem => ?_) new
        have hlt := K.closed_lt _ hmem
        omega
      rw [hrecords, K.records, account, account, hfilterMap, hopened, Option.toList_some,
        List.mapIdx_concat, hsame, hnew]
    · intro n hn
      rw [hclosed] at hn
      rw [hrecords, List.length_append]
      exact Nat.lt_add_right _ (K.closed_lt n hn)
  | @closes ns hopened hopen hrecords hclosed =>
    refine ⟨?_, ?_, K.snoc_closed_iff fun n hn => hclosed ▸ List.mem_append_left _ hn⟩
    · rw [hrecords, K.records, account, account, hfilterMap, hopened, Option.toList_none,
        List.append_nil, List.mapIdx_mapIdx]
      refine congrArg (fun f => List.mapIdx f _) (funext fun n => funext fun r => ?_)
      show (if n ∈ ns then L.finished t (L.outcome ts n r) else L.outcome ts n r) = _
      by_cases hn : n ∈ ns
      · have hnot := K.not_closed (hopen n hn).2
        have hcloses : L.closes n t = true :=
          closes_iff.mpr ⟨hclosed ▸ List.mem_append_right _ hn, (hopen n hn).2⟩
        rw [if_pos hn, outcome_of_open hnot, outcome_snoc_of_closes hnot hcloses]
      · have hcloses : L.closes n t = false := by
          rw [← Bool.not_eq_true, closes_iff, hclosed, List.mem_append]
          rintro ⟨hbefore | hns, hnot⟩
          · exact hnot hbefore
          · exact hn hns
        rw [if_neg hn, outcome_snoc_of_not_closes hcloses]
    · intro n hn
      rw [hrecords, List.length_mapIdx]
      rcases List.mem_append.mp (hclosed ▸ hn) with hn | hn
      · exact K.closed_lt n hn
      · exact (hopen n hn).1

/-! ### Runs -/

section

variable {step : σ → α → Option (β × σ)} {init s : σ}

/-- After a run from a state without records they are those that its transitions tell. -/
theorem kept (hrecords : L.records init = []) (hclosed : L.closed init = [])
    (hentered : ∀ ts t, Run step init ts t.before →
      step t.before t.call = some (t.outcome, t.after) →
      L.Entered t)
    (hrun : Run step init ts s) : L.Kept ts s := by
  induction hrun with
  | nil => exact ⟨hrecords, by simp [hclosed], by simp [hclosed]⟩
  | @snoc ts s s' a b hrun hstep ih =>
    exact Kept.snoc (t := ⟨s, a, b, s'⟩) ih (hentered _ _ hrun hstep)

/-- A record that was opened and closed. -/
theorem getElem?_records (hrecords : L.records init = []) (hclosed : L.closed init = [])
    (hentered : ∀ ts t, Run step init ts t.before →
      step t.before t.call = some (t.outcome, t.after) →
      L.Entered t)
    {before between after : List (Transition σ α β)} {t u : Transition σ α β}
    (hrun : Run step init (before ++ t :: (between ++ u :: after)) s) {r : ρ}
    (hopened : L.opened t = some r) (hcloses : L.closes (L.records t.before).length u = true) :
    (L.records s)[(L.records t.before).length]? = some (L.finished u r) := by
  have hbefore := kept hrecords hclosed hentered (hrun.reached rfl).1
  have hfirst : before ++ t :: (between ++ u :: after) =
      (before ++ t :: between) ++ u :: after := by
    simp
  have hmiddle := kept hrecords hclosed hentered (hrun.reached hfirst).1
  have hlength : (before.filterMap L.opened).length = (L.records t.before).length := by
    rw [hbefore.records, account, List.length_mapIdx]
  have hfound : ((before ++ t :: between) ++ u :: after).find?
      (L.closes (L.records t.before).length) = some u := by
    have hnone : (before ++ t :: between).find? (L.closes (L.records t.before).length) = none :=
      List.find?_eq_none.mpr fun v hv => Bool.eq_false_iff.mp
        (hmiddle.not_closed (closes_iff.mp hcloses).2 v hv)
    rw [List.find?_append, hnone, List.find?_cons_of_pos hcloses]
    rfl
  have hget : ((before ++ t :: (between ++ u :: after)).filterMap
      L.opened)[(L.records t.before).length]? =
      some r := by
    rw [List.filterMap_append, List.filterMap_cons_some hopened, ← hlength,
      List.getElem?_append_right (Nat.le_refl _), Nat.sub_self]
    rfl
  rw [(kept hrecords hclosed hentered hrun).records, account, List.getElem?_mapIdx, hget,
    Option.map_some, outcome, hfirst, hfound]
  rfl

end

end Ledger

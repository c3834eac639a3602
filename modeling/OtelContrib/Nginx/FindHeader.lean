/-
How the nginx module looks a request header up (`FindHeader` in `propagate.cpp`).

nginx keeps the headers in parts, and the loop moves an index and a part on together.  The
functions below have a result only where every element they look at is one of its part.

* `goesOn_some` — at the end of a part the loop is at the start of the next one, and no
  header is passed over;
* `findHeader_eq` — the loop ends without a look outside a part, at the first header that the
  comparison takes for the key;
* `find_header_first` — that is the first header with the key, as long as the comparison meets
  no NUL in both; `carrierGet_eq_findHeader` — it is what the carrier gets.
-/
import OtelContrib.Lib.PartList
import OtelContrib.Nginx.OtelModule
import OtelContrib.Sdk.AttributeValue
import Mathlib.Data.List.Find
import Mathlib.Data.List.TakeWhile

open Otel.Common (cString)

namespace Nginx

/-! ### The lookup -/

/-- What `ngx_strncasecmp` is known to do with texts that have `n` bytes: it gives zero where
these are the same but for case, up to a NUL if both have one there. -/
def ComparesIgnoringCase (ngx_strncasecmp : Bytes → Bytes → ℕ → ℤ) : Prop :=
  ∀ (s t : Bytes) (n : ℕ), n ≤ s.length → n ≤ t.length →
    (ngx_strncasecmp s t n = 0 ↔ eqIgnoringCase (cString (s.take n)) (cString (t.take n)))

/-- The first `if` of the loop: at the end of a part it goes on in the next one, or not at
all. -/
def goesOn (part : Headers) (next : List Headers) (i : ℕ) : Option (Headers × List Headers × ℕ) :=
  if i ≥ part.length then
    match next with
    | [] => none
    | part :: next => some (part, next, 0)
  else some (part, next, i)

/-- How many steps are left, at most. -/
def stepsLeft (part : Headers) (next : List Headers) (i : ℕ) : ℕ :=
  part.length - i + (next.map fun part => part.length + 1).sum

theorem stepsLeft_goesOn {part part' : Headers} {next next' : List Headers} {i i' : ℕ}
    (h : goesOn part next i = some (part', next', i')) :
    stepsLeft part' next' i' ≤ stepsLeft part next i := by
  unfold goesOn at h
  split at h
  · cases next with
    | nil => cases h
    | cons part next =>
      obtain ⟨rfl, rfl, rfl⟩ := Option.some.inj h
      simp only [stepsLeft, List.map_cons, List.sum_cons]
      omega
  · obtain ⟨rfl, rfl, rfl⟩ := Option.some.inj h
    exact Nat.le_refl _

section

variable (ngx_strncasecmp : Bytes → Bytes → ℕ → ℤ)

def findHeaderLoop (key : Bytes) (part : Headers) (next : List Headers) (i : ℕ) :
    Option (Option Bytes) :=
  match _hon : goesOn part next i with
  | none => some none
  | some (part, next, i) =>
    match _hread : part[i]? with
    | none => none
    | some h =>
      if key.length ≠ h.1.length ∨ ngx_strncasecmp key h.1 key.length ≠ 0 then
        findHeaderLoop key part next (i + 1)
      else some (some h.2)
termination_by stepsLeft part next i
decreasing_by
  have hle := stepsLeft_goesOn _hon
  have hlt := (List.getElem?_eq_some_iff.mp _hread).1
  simp only [stepsLeft] at hle ⊢
  omega

/-- `FindHeader`: the value of the header, or that there is none. -/
def findHeader (headers : PartList (Bytes × Bytes)) (key : Bytes) : Option (Option Bytes) :=
  findHeaderLoop ngx_strncasecmp key headers.first headers.parts.tail 0

/-- The loop takes a header for the key. -/
def takesFor (key : Bytes) (h : Bytes × Bytes) : Bool :=
  ¬ (key.length ≠ h.1.length ∨ ngx_strncasecmp key h.1 key.length ≠ 0)

end

/-! ### The loop -/

variable {part part' : Headers} {next next' : List Headers} {i i' : ℕ}

/-- Where the loop stops, nothing is left. -/
theorem goesOn_none (h : goesOn part next i = none) : part.drop i ++ next.flatten = [] := by
  unfold goesOn at h
  split at h
  next hend =>
    cases next with
    | nil => rw [List.drop_eq_nil_of_le hend]; rfl
    | cons part next => cases h
  · cases h

/-- Where it goes on, it is before the end of a part, and what is left is the same. -/
theorem goesOn_some (hnext : ∀ part ∈ next, part ≠ [])
    (h : goesOn part next i = some (part', next', i')) :
    i' < part'.length ∧ (∀ part ∈ next', part ≠ []) ∧
      part'.drop i' ++ next'.flatten = part.drop i ++ next.flatten := by
  unfold goesOn at h
  split at h
  next hend =>
    cases next with
    | nil => cases h
    | cons part next =>
      obtain ⟨rfl, rfl, rfl⟩ := Option.some.inj h
      obtain ⟨hpart, hrest⟩ := List.forall_mem_cons.mp hnext
      refine ⟨List.length_pos_iff.mpr hpart, hrest, ?_⟩
      rw [List.drop_eq_nil_of_le hend]
      rfl
  next hend =>
    obtain ⟨rfl, rfl, rfl⟩ := Option.some.inj h
    exact ⟨not_le.mp hend, hnext, rfl⟩

section

variable {ngx_strncasecmp : Bytes → Bytes → ℕ → ℤ} {key : Bytes}

/-- From any place on, the loop looks at headers only, and finds the first that it takes. -/
theorem findHeaderLoop_eq (hnext : ∀ part ∈ next, part ≠ []) :
    findHeaderLoop ngx_strncasecmp key part next i =
      some (((part.drop i ++ next.flatten).find? (takesFor ngx_strncasecmp key)).map Prod.snd) := by
  fun_induction findHeaderLoop ngx_strncasecmp key part next i with
  | case1 part next i hon =>
    rw [goesOn_none hon]
    rfl
  | case2 part next i part' next' i' hon hread =>
    have hlt := (goesOn_some hnext hon).1
    rw [List.getElem?_eq_getElem hlt] at hread
    cases hread
  | case3 part next i part' next' i' hon h hread hskip ih =>
    obtain ⟨-, hnext', hleft⟩ := goesOn_some hnext hon
    obtain ⟨hlt, rfl⟩ := List.getElem?_eq_some_iff.mp hread
    have htakes : takesFor ngx_strncasecmp key part'[i'] = false :=
      decide_eq_false (not_not.mpr hskip)
    rw [ih hnext', ← hleft, List.drop_eq_getElem_cons hlt, List.cons_append, List.find?_cons,
      htakes]
  | case4 part next i part' next' i' hon h hread htaken =>
    obtain ⟨-, -, hleft⟩ := goesOn_some hnext hon
    obtain ⟨hlt, rfl⟩ := List.getElem?_eq_some_iff.mp hread
    have htakes : takesFor ngx_strncasecmp key part'[i'] = true := decide_eq_true htaken
    rw [← hleft, List.drop_eq_getElem_cons hlt, List.cons_append, List.find?_cons, htakes]
    rfl

/-- The lookup never looks outside a part, and finds the first header that it takes. -/
theorem findHeader_eq (headers : PartList (Bytes × Bytes)) :
    findHeader ngx_strncasecmp headers key =
      some ((headers.toList.find? (takesFor ngx_strncasecmp key)).map Prod.snd) := by
  have hall : headers.first.drop 0 ++ headers.parts.tail.flatten = headers.toList := by
    rw [List.drop_zero, PartList.first, ← List.flatten_cons, List.cons_head_tail]
    rfl
  rw [findHeader, findHeaderLoop_eq headers.nonempty, hall]

end

/-! ### The comparison -/

variable {s t : Bytes}

def ngxTolower (c : UInt8) : UInt8 := if 65 ≤ c ∧ c ≤ 90 then c + 32 else c

/-- Only NUL is NUL in lower case. -/
theorem ngxTolower_eq_zero_iff (c : UInt8) : ngxTolower c = 0 ↔ c = 0 := by
  rw [ngxTolower]
  split
  next hupper =>
    obtain ⟨hlo, hhi⟩ := hupper
    have hlo' : 65 ≤ c.toNat := UInt8.le_iff_toNat_le.mp hlo
    have hhi' : c.toNat ≤ 90 := UInt8.le_iff_toNat_le.mp hhi
    refine iff_of_false (fun hzero => ?_) fun hzero => ?_
    · have hsum : (c.toNat + 32) % 2 ^ 8 = 0 := congrArg UInt8.toNat hzero
      omega
    · have hc : c.toNat = 0 := congrArg UInt8.toNat hzero
      omega
  · exact Iff.rfl

theorem eqIgnoringCase_iff : eqIgnoringCase s t = true ↔ s.map ngxTolower = t.map ngxTolower :=
  decide_eq_true_iff

theorem length_eq_of_eqIgnoringCase (h : eqIgnoringCase s t = true) : s.length = t.length := by
  have hmap := congrArg List.length (eqIgnoringCase_iff.mp h)
  rwa [List.length_map, List.length_map] at hmap

/-- Up to a NUL, texts that are the same but for case remain so. -/
theorem eqIgnoringCase_cString (h : eqIgnoringCase s t = true) :
    eqIgnoringCase (cString s) (cString t) = true := by
  have hcut : ∀ u : Bytes, (cString u).map ngxTolower = cString (u.map ngxTolower) := by
    intro u
    rw [cString, cString, List.takeWhile_map]
    refine congrArg (fun p => (u.takeWhile p).map ngxTolower) (funext fun c => ?_)
    exact decide_eq_decide.mpr (not_congr (ngxTolower_eq_zero_iff c).symm)
  rw [eqIgnoringCase_iff, hcut, hcut, eqIgnoringCase_iff.mp h]

theorem cString_eq_self (h : 0 ∉ s) : cString s = s :=
  List.takeWhile_eq_self_iff.mpr fun _ hb => decide_eq_true fun hzero => h (hzero ▸ hb)

/-- Where one of two texts of the same length has no NUL, nothing is cut off. -/
theorem eqIgnoringCase_of_cString (hlength : s.length = t.length) (hnul : 0 ∉ s ∨ 0 ∉ t)
    (h : eqIgnoringCase (cString s) (cString t) = true) : eqIgnoringCase s t = true := by
  have hcut := length_eq_of_eqIgnoringCase h
  have hs : cString s <+: s := List.takeWhile_prefix _
  have ht : cString t <+: t := List.takeWhile_prefix _
  rcases hnul with hnul | hnul
  · rw [cString_eq_self hnul] at h hcut
    rwa [ht.eq_of_length (by omega)] at h
  · rw [cString_eq_self hnul] at h hcut
    rwa [hs.eq_of_length (by omega)] at h

section

variable {ngx_strncasecmp : Bytes → Bytes → ℕ → ℤ} {key : Bytes}

/-- The loop takes the headers with the key. -/
theorem takesFor_eq (hcmp : ComparesIgnoringCase ngx_strncasecmp) {h : Bytes × Bytes}
    (hnul : 0 ∉ key ∨ 0 ∉ h.1) : takesFor ngx_strncasecmp key h = eqIgnoringCase key h.1 := by
  rw [takesFor, Bool.eq_iff_iff, decide_eq_true_iff, not_or, not_not, not_not]
  constructor
  · rintro ⟨hlength, hzero⟩
    rw [hcmp key h.1 _ (Nat.le_refl _) (Nat.le_of_eq hlength), List.take_length, hlength,
      List.take_length] at hzero
    exact eqIgnoringCase_of_cString hlength hnul hzero
  · intro heq
    have hlength := length_eq_of_eqIgnoringCase heq
    rw [hcmp key h.1 _ (Nat.le_refl _) (Nat.le_of_eq hlength), List.take_length, hlength,
      List.take_length]
    exact ⟨rfl, eqIgnoringCase_cString heq⟩

end

/-- **The first header with the key.**  For every list of headers in parts and every key,
the lookup looks at headers in their parts only; it finds the value of the first header, over
all parts in order, whose name has the length of the key and is the same but for case, and it
finds none exactly when there is none.  The key or the names have no NUL. -/
theorem find_header_first (ngx_strncasecmp : Bytes → Bytes → ℕ → ℤ)
    (hcmp : ComparesIgnoringCase ngx_strncasecmp) (headers : PartList (Bytes × Bytes)) (key : Bytes)
    (hnul : 0 ∉ key ∨ ∀ h ∈ headers.toList, 0 ∉ h.1) :
    findHeader ngx_strncasecmp headers key =
        some ((headers.toList.find? fun h => key.length = h.1.length ∧ eqIgnoringCase key h.1).map
          Prod.snd) ∧
      (findHeader ngx_strncasecmp headers key = some none ↔
        ∀ h ∈ headers.toList, ¬ (key.length = h.1.length ∧ eqIgnoringCase key h.1)) := by
  have htakes : ∀ h ∈ headers.toList, takesFor ngx_strncasecmp key h =
      decide (key.length = h.1.length ∧ eqIgnoringCase key h.1) := by
    intro h hmem
    rw [takesFor_eq hcmp (hnul.imp_right fun hnames => hnames h hmem), Bool.eq_iff_iff,
      decide_eq_true_iff]
    exact ⟨fun heq => ⟨length_eq_of_eqIgnoringCase heq, heq⟩, And.right⟩
  have hfind : findHeader ngx_strncasecmp headers key =
      some ((headers.toList.find? fun h => key.length = h.1.length ∧ eqIgnoringCase key h.1).map
        Prod.snd) := by
    rw [findHeader_eq, List.find?_congr htakes]
  refine ⟨hfind, ?_⟩
  rw [hfind, Option.some_inj, Option.map_eq_none_iff, List.find?_eq_none]
  simp only [decide_eq_true_eq]

/-- A comparison that goes through both texts together. -/
def compareTexts : Bytes → Bytes → ℕ → ℤ
  | c :: s, d :: t, n + 1 =>
    if ngxTolower c ≠ ngxTolower d then (ngxTolower c).toNat - (ngxTolower d).toNat
    else if ngxTolower c = 0 then 0
    else compareTexts s t n
  | _, _, _ => 0

theorem cString_cons (c : UInt8) (s : Bytes) :
    cString (c :: s) = if c = 0 then [] else c :: cString s := by
  rw [cString, List.takeWhile_cons]
  by_cases hc : c = 0
  · simp [hc]
  · simp [hc, cString]

theorem compareTexts_comparesIgnoringCase : ComparesIgnoringCase compareTexts := by
  intro s t n
  induction n generalizing s t with
  | zero =>
    intro _ _
    have hzero : compareTexts s t 0 = 0 := by
      rw [compareTexts]
      rintro _ _ _ _ _ - - ⟨⟩
    exact iff_of_true hzero rfl
  | succ n ih =>
    intro hs ht
    obtain ⟨c, s, rfl⟩ := List.exists_cons_of_length_pos (Nat.lt_of_lt_of_le n.succ_pos hs)
    obtain ⟨d, t, rfl⟩ := List.exists_cons_of_length_pos (Nat.lt_of_lt_of_le n.succ_pos ht)
    have hrest := ih s t (Nat.le_of_succ_le_succ hs) (Nat.le_of_succ_le_succ ht)
    rw [eqIgnoringCase_iff] at hrest ⊢
    rw [compareTexts, List.take_succ_cons, List.take_succ_cons, cString_cons, cString_cons]
    by_cases hcd : ngxTolower c = ngxTolower d
    · rw [if_neg (not_not.mpr hcd)]
      by_cases hc : c = 0
      · have hd : d = 0 := by
          rwa [← ngxTolower_eq_zero_iff, ← hcd, ngxTolower_eq_zero_iff]
        rw [if_pos ((ngxTolower_eq_zero_iff c).mpr hc), if_pos hc, if_pos hd]
        exact iff_of_true rfl rfl
      · have hd : d ≠ 0 := by
          rwa [Ne, ← ngxTolower_eq_zero_iff, ← hcd, ngxTolower_eq_zero_iff]
        rw [if_neg (mt (ngxTolower_eq_zero_iff c).mp hc), if_neg hc, if_neg hd, hrest,
          List.map_cons, List.map_cons, List.cons.injEq]
        exact (and_iff_right hcd).symm
    · rw [if_pos hcd]
      have hdiffer : ((ngxTolower c).toNat : ℤ) - (ngxTolower d).toNat ≠ 0 := by
        have hne : (ngxTolower c).toNat ≠ (ngxTolower d).toNat := mt UInt8.toNat_inj.mp hcd
        omega
      refine iff_of_false hdiffer fun heq => ?_
      have hhead := congrArg List.head? heq
      by_cases hc : c = 0
      · by_cases hd : d = 0
        · exact hcd (by rw [hc, hd])
        · simp [hc, hd] at hhead
      · by_cases hd : d = 0
        · simp [hc, hd] at hhead
        · simp [hc, hd, hcd] at hhead

/-- The first part is empty, and the key is in the two last ones. -/
def sampleHeaders : PartList (Bytes × Bytes) :=
  ⟨1, [[], [(ascii "Accept-Lang", ascii "en")], [(ascii "TraceParent", ascii "00")],
    [(ascii "traceparent", ascii "01")]], by decide, by decide⟩

theorem find_header_sample :
    findHeader compareTexts sampleHeaders (ascii "traceparent") = some (some (ascii "00")) := by
  have hfirst := find_header_first compareTexts compareTexts_comparesIgnoringCase sampleHeaders
    (ascii "traceparent") (.inl (by decide))
  exact hfirst.1.trans (by decide)

/-- What a carrier gets. -/
theorem carrierGet_eq_findHeader {ngx_strncasecmp : Bytes → Bytes → ℕ → ℤ}
    (hcmp : ComparesIgnoringCase ngx_strncasecmp) (headers : PartList (Bytes × Bytes)) {key : Bytes}
    (hnul : 0 ∉ key) :
    (findHeader ngx_strncasecmp headers key).map (·.getD []) =
      some (carrierGet headers.toList key) := by
  have htakes : ∀ h ∈ headers.toList, takesFor ngx_strncasecmp key h = eqIgnoringCase key h.1 :=
    fun h _ => takesFor_eq hcmp (.inl hnul)
  rw [findHeader_eq, List.find?_congr htakes]
  rfl

end Nginx

/-
Names for Prometheus (`SanitizePrometheusNames` in `push_exporter.cc`).

The loop edits the name in place.  It puts a second mark where the character before is a mark
already, and removes these marks at the end; neither mark is a valid character, so that one
that stands in the name is replaced like any other.

* `foldl_sanitizeStep` — behind what the loop has edited, it goes on marking;
* `sanitize_names` — what comes out is the name with its runs of invalid characters
  collapsed, hence in Prometheus' grammar, and stays as it is when it is sanitized again;
* `matchesGrammar_gatewayLabels` — the names of the gateway's labels.
-/
import OtelContrib.Lib.OrderedMap
import OtelContrib.Lib.RunCollapse
import OtelContrib.Lib.Text

open RunCollapse

namespace Prometheus

/-! ### The loop -/

def replacement : UInt8 := 95
def replacement_dup : UInt8 := 61

def letter (c : UInt8) : Bool := (97 ≤ c ∧ c ≤ 122) ∨ (65 ≤ c ∧ c ≤ 90)

def digit (c : UInt8) : Bool := 48 ≤ c ∧ c ≤ 57

/-- `valid`, for the name of a label and of a metric. -/
def valid (label : Bool) (i : ℕ) (c : UInt8) : Bool :=
  if label then letter c ∨ (digit c ∧ i > 0) else letter c ∨ c = 58 ∨ (digit c ∧ i > 0)

/-- One turn of the loop, on the name and `has_dup`. -/
def sanitizeStep (valid : ℕ → UInt8 → Bool) (state : Bytes × Bool) (i : ℕ) : Bytes × Bool :=
  match state.1[i]? with
  | none => state
  | some c =>
    if valid i c then state
    else if i > 0 ∧ (state.1[i - 1]? = some replacement ∨
      state.1[i - 1]? = some replacement_dup) then
      (state.1.set i replacement_dup, true)
    else (state.1.set i replacement, state.2)

def sanitizePrometheusNames (name : Bytes) (label : Bool) : Bytes :=
  let (name, has_dup) := (List.range name.length).foldl (sanitizeStep (valid label)) (name, false)
  if has_dup then name.filter (· ≠ replacement_dup) else name

/-! ### Valid characters -/

theorem valid_eq (label : Bool) (i : ℕ) (c : UInt8) :
    valid label i c = true ↔
      letter c = true ∨ (c = 58 ∧ label = false) ∨ (digit c = true ∧ 0 < i) := by
  cases label <;> simp [valid]

theorem valid_ne_marks {label : Bool} {i : ℕ} {c : UInt8} (h : valid label i c = true) :
    c ≠ replacement ∧ c ≠ replacement_dup := by
  rw [valid_eq] at h
  constructor
  · rintro rfl
    simp [letter, digit, replacement] at h
  · rintro rfl
    simp [letter, digit, replacement_dup] at h

/-- What is valid anywhere is valid behind the first place. -/
theorem valid_behind {label : Bool} {i : ℕ} {c : UInt8} (h : valid label i c = true) {j : ℕ}
    (hj : 0 < j) : valid label j c = true := by
  rw [valid_eq] at h ⊢
  exact h.imp_right (Or.imp_right fun hdigit => ⟨hdigit.1, hj⟩)

/-! ### What the loop does -/

/-- A character that is not valid at its place. -/
def invalid (label : Bool) (c : UInt8 × ℕ) : Bool := !valid label c.2 c.1

theorem valid_of_not_invalid {label : Bool} {c : UInt8 × ℕ} (h : invalid label c = false) :
    valid label c.2 c.1 = true := by
  rwa [invalid, Bool.not_eq_false'] at h

/-- A character that stays is not a mark. -/
theorem ne_mark_of_valid {label : Bool} (c : UInt8 × ℕ) (h : invalid label c = false) :
    c.1 ≠ replacement ∧ c.1 ≠ replacement_dup := valid_ne_marks (valid_of_not_invalid h)

/-- What the loop makes of the rest of a name. -/
def marks (label behind : Bool) (rest : List (UInt8 × ℕ)) : Bytes :=
  marked (invalid label) Prod.fst replacement replacement_dup behind rest

/-- The last character is a mark. -/
def endsInMark (done : Bytes) : Bool :=
  done.getLast? = some replacement ∨ done.getLast? = some replacement_dup

/-- What a turn puts in place of the character `c`. -/
def edited (label behind : Bool) (c : UInt8 × ℕ) : UInt8 :=
  if invalid label c then (if behind then replacement_dup else replacement) else c.1

/-- The character becomes a mark exactly when it is not valid. -/
theorem endsInMark_edited (label : Bool) (done : Bytes) (behind : Bool) (c : UInt8 × ℕ) :
    endsInMark (done ++ [edited label behind c]) = invalid label c := by
  rw [endsInMark, List.getLast?_concat, edited]
  cases hc : invalid label c with
  | true => cases behind <;> simp
  | false =>
    obtain ⟨hne, hne'⟩ := ne_mark_of_valid c hc
    simp [hne, hne']

/-- A turn behind what is done already. -/
theorem sanitizeStep_eq (label : Bool) (done : Bytes) (c : UInt8) (rest : Bytes) (has_dup : Bool) :
    sanitizeStep (valid label) (done ++ c :: rest, has_dup) done.length =
      (done ++ edited label (endsInMark done) (c, done.length) :: rest,
        has_dup || edited label (endsInMark done) (c, done.length) = replacement_dup) := by
  have hread : (done ++ c :: rest)[done.length]? = some c := by
    rw [List.getElem?_append_right (Nat.le_refl _), Nat.sub_self]
    rfl
  have hset : ∀ d : UInt8, (done ++ c :: rest).set done.length d = done ++ d :: rest := by
    intro d
    rw [List.set_append_right _ _ (Nat.le_refl _), Nat.sub_self]
    rfl
  -- the character before is the last of what is done
  have hbehind : (done.length > 0 ∧ ((done ++ c :: rest)[done.length - 1]? = some replacement ∨
      (done ++ c :: rest)[done.length - 1]? = some replacement_dup)) ↔ endsInMark done = true := by
    rw [endsInMark, decide_eq_true_iff, List.getLast?_eq_getElem?]
    by_cases hdone : done.length > 0
    · rw [List.getElem?_append_left (by omega)]
      exact and_iff_right hdone
    · have hnil : done = [] := List.length_eq_zero_iff.mp (by omega)
      subst hnil
      simp
  rw [sanitizeStep, hread, edited, invalid]
  simp only [hset]
  cases hvalid : valid label done.length c with
  | true =>
    obtain ⟨-, hne⟩ := valid_ne_marks hvalid
    simp [hne]
  | false =>
    cases hends : endsInMark done with
    | true =>
      rw [if_neg Bool.false_ne_true, if_pos (hbehind.mpr hends)]
      simp
    | false =>
      rw [if_neg Bool.false_ne_true, if_neg (by rw [hbehind, hends]; exact Bool.false_ne_true)]
      have hne : replacement ≠ replacement_dup := by decide
      simp [hne]

/-- From behind what is done, the loop marks the rest, and `has_dup` says whether it put a
duplicate. -/
theorem foldl_sanitizeStep (label : Bool) (done rest : Bytes) (has_dup : Bool) :
    (List.range' done.length rest.length).foldl (sanitizeStep (valid label))
        (done ++ rest, has_dup) =
      (done ++ marks label (endsInMark done) (rest.zipIdx done.length),
        has_dup || replacement_dup ∈ marks label (endsInMark done) (rest.zipIdx done.length)) := by
  induction rest generalizing done has_dup with
  | nil => simp [marks, marked]
  | cons c rest ih =>
    set d := edited label (endsInMark done) (c, done.length) with hd
    have hmarks : marks label (endsInMark done) ((c :: rest).zipIdx done.length) =
        d :: marks label (endsInMark (done ++ [d])) (rest.zipIdx (done ++ [d]).length) := by
      rw [hd, endsInMark_edited, List.length_append, List.length_singleton]
      rfl
    have hstep : done ++ d :: rest = (done ++ [d]) ++ rest := by
      rw [List.append_assoc]
      rfl
    have hrange : List.range' done.length (c :: rest).length =
        done.length :: List.range' (done ++ [d]).length rest.length := by
      rw [List.length_cons, List.range'_succ, List.length_append]
      rfl
    rw [hrange, List.foldl_cons, sanitizeStep_eq, ← hd, hstep, ih, hmarks, List.append_assoc,
      Bool.or_assoc]
    refine Prod.ext rfl (congrArg (has_dup || ·) ?_)
    rw [← Bool.decide_or, decide_eq_decide, List.mem_cons]
    exact or_congr eq_comm Iff.rfl

/-! ### Sanitized names -/

/-- The name with every maximal run of invalid characters replaced by one mark. -/
def collapsedName (name : Bytes) (label : Bool) : Bytes :=
  collapse (invalid label) Prod.fst replacement name.zipIdx

theorem sanitizePrometheusNames_eq (name : Bytes) (label : Bool) :
    sanitizePrometheusNames name label = collapsedName name label := by
  have hloop := foldl_sanitizeStep label [] name false
  rw [List.length_nil, ← List.range_eq_range', List.nil_append, List.nil_append,
    Bool.false_or] at hloop
  have hmarks : (marks label false name.zipIdx).filter (· ≠ replacement_dup) =
      collapsedName name label :=
    filter_marked (by decide) (fun c hc => (ne_mark_of_valid c hc).2) false name.zipIdx
  rw [sanitizePrometheusNames, hloop, collapsedName]
  simp only [decide_eq_true_eq]
  refine Eq.trans ?_ hmarks
  split
  · rfl
  next hnone =>
    -- without a duplicate there is nothing to remove
    refine (List.filter_eq_self.mpr fun d hd => ?_).symm
    refine decide_eq_true fun hdup => ?_
    exact hnone (hdup ▸ hd)

/-- What a collapsed name has at a place is a mark or valid there. -/
theorem mem_zipIdx_collapsedName {name : Bytes} {label : Bool} {c : UInt8 × ℕ}
    (h : c ∈ (collapsedName name label).zipIdx) :
    c.1 = replacement ∨ valid label c.2 c.1 = true := by
  by_cases hmark : c.1 = replacement
  · exact .inl hmark
  refine .inr ?_
  obtain ⟨d, i⟩ := c
  rw [List.mem_zipIdx_iff_getElem?] at h
  cases i with
  | zero =>
    -- the first place is that of the first character
    rw [← List.head?_eq_getElem?, collapsedName, head?_collapse, List.head?_zipIdx,
      Option.map_map] at h
    obtain ⟨d', -, heq⟩ := Option.map_eq_some_iff.mp h
    simp only [Function.comp_apply] at heq
    cases hbad : invalid label (d', 0) with
    | true => exact absurd (by rw [← heq, hbad, if_pos rfl]) hmark
    | false =>
      rw [hbad, if_neg Bool.false_ne_true] at heq
      exact heq ▸ valid_of_not_invalid hbad
  | succ i =>
    obtain ⟨⟨d', j⟩, -, hgood, rfl⟩ := mem_collapse (fun c hc => (ne_mark_of_valid c hc).1)
      (List.mem_of_getElem? h) hmark
    exact valid_behind (valid_of_not_invalid hgood) (Nat.succ_pos i)

/-- A character that a name may start with. -/
def startsName (label : Bool) (c : UInt8) : Bool := letter c ∨ c = 95 ∨ (c = 58 ∧ label = false)

/-- The grammar of names: `[a-zA-Z_][a-zA-Z0-9_]*` for a label, and with colons for a metric. -/
def MatchesGrammar (label : Bool) : Bytes → Prop
  | [] => False
  | c :: rest => startsName label c = true ∧ ∀ d ∈ rest, startsName label d = true ∨ digit d = true

theorem startsName_iff {label : Bool} {c : UInt8} :
    startsName label c = true ↔ letter c = true ∨ c = replacement ∨ (c = 58 ∧ label = false) :=
  decide_eq_true_iff

theorem matchesGrammar_collapsedName {name : Bytes} (hname : name ≠ []) (label : Bool) :
    MatchesGrammar label (collapsedName name label) := by
  have hplace : ∀ i d, (collapsedName name label)[i]? = some d →
      d = replacement ∨ valid label i d = true := fun i d h =>
    mem_zipIdx_collapsedName (c := (d, i)) (List.mk_mem_zipIdx_iff_getElem?.mpr h)
  have hfirst : (collapsedName name label).head? ≠ none := by
    obtain ⟨c, rest, rfl⟩ := List.exists_cons_of_ne_nil hname
    rw [collapsedName, head?_collapse]
    exact Option.some_ne_none _
  cases hresult : collapsedName name label with
  | nil => exact hfirst (by rw [hresult]; rfl)
  | cons c rest =>
    rw [hresult] at hplace
    refine ⟨?_, fun d hd => ?_⟩
    · have hc := hplace 0 c rfl
      rw [valid_eq] at hc
      rw [startsName_iff]
      rcases hc with hc | hc | hc | hc
      · exact .inr (.inl hc)
      · exact .inl hc
      · exact .inr (.inr hc)
      · exact absurd hc.2 (Nat.lt_irrefl 0)
    · obtain ⟨i, hi⟩ := List.mem_iff_getElem?.mp hd
      have hd := hplace (i + 1) d hi
      rw [valid_eq] at hd
      rw [startsName_iff]
      rcases hd with hd | hd | hd | hd
      · exact .inl (.inr (.inl hd))
      · exact .inl (.inl hd)
      · exact .inl (.inr (.inr hd))
      · exact .inr hd.1

theorem isChain_collapsedName (name : Bytes) (label : Bool) :
    (collapsedName name label).IsChain fun c d => ¬ (c = replacement ∧ d = replacement) :=
  isChain_collapse (fun c hc => (ne_mark_of_valid c hc).1) name.zipIdx

/-- A collapsed name has marks for runs of one character each. -/
theorem collapsedName_collapsedName (name : Bytes) (label : Bool) :
    collapsedName (collapsedName name label) label = collapsedName name label := by
  have hmark : ∀ c ∈ (collapsedName name label).zipIdx,
      invalid label c = true → c.1 = replacement := by
    intro c hc hbad
    refine (mem_zipIdx_collapsedName hc).resolve_right fun hvalid => ?_
    rw [invalid, hvalid] at hbad
    cases hbad
  have hchain : (collapsedName name label).zipIdx.IsChain fun c d =>
      ¬ (c.1 = replacement ∧ d.1 = replacement) := by
    have hmap := isChain_collapsedName name label
    rwa [← List.zipIdx_map_fst 0 (collapsedName name label), List.isChain_map] at hmap
  have hruns := collapse_eq_map (r := replacement) (hchain.imp_of_mem_imp fun c d hc hd h hbad =>
    h ⟨hmark c hc hbad.1, hmark d hd hbad.2⟩) hmark
  rw [collapsedName, hruns, List.zipIdx_map_fst]

/-- **Sanitized names.**  For every name and either mode, every maximal run of characters that
are not valid at their places becomes one `_`.  So what comes out matches the grammar, if there
is a character at all; it has no two `_` one after the other, keeps the valid characters in
order, and does not change when it is sanitized again. -/
theorem sanitize_names (name : Bytes) (label : Bool) :
    sanitizePrometheusNames name label = collapsedName name label ∧
      (name = [] ∨ sanitizePrometheusNames name label ≠ [] ∧
        MatchesGrammar label (sanitizePrometheusNames name label)) ∧
      ((sanitizePrometheusNames name label).IsChain fun c d =>
        ¬ (c = replacement ∧ d = replacement)) ∧
      (sanitizePrometheusNames name label).filter (· ≠ replacement) =
        (name.zipIdx.filter fun c => valid label c.2 c.1).map Prod.fst ∧
      sanitizePrometheusNames (sanitizePrometheusNames name label) label =
        sanitizePrometheusNames name label := by
  have hkept := filter_collapse (r := replacement)
    (fun c (hc : invalid label c = false) => (ne_mark_of_valid c hc).1) name.zipIdx
  simp only [invalid, Bool.not_not] at hkept
  refine ⟨sanitizePrometheusNames_eq name label, ?_⟩
  simp only [sanitizePrometheusNames_eq]
  refine ⟨?_, isChain_collapsedName name label, hkept, collapsedName_collapsedName name label⟩
  by_cases hname : name = []
  · exact .inl hname
  · have hgrammar := matchesGrammar_collapsedName hname label
    refine .inr ⟨fun hnil => ?_, hgrammar⟩
    rw [hnil] at hgrammar
    exact hgrammar

example : sanitizePrometheusNames (ascii "9=-a_:b") true = ascii "_a_b" := by decide

/-! ### Labels of the gateway -/

/-- The labels that the constructor gives the gateway. -/
def gatewayLabels (labels : OrderedMap Bytes Bytes) : OrderedMap Bytes Bytes :=
  labels.entries.foldl (fun labels label =>
    labels.insert (sanitizePrometheusNames label.1 true) label.2) ∅

/-- Every name among them is a name that was configured, sanitized. -/
theorem name_gatewayLabels {labels : OrderedMap Bytes Bytes} {kv : Bytes × Bytes}
    (h : kv ∈ (gatewayLabels labels).entries) :
    ∃ label ∈ labels.entries, kv.1 = sanitizePrometheusNames label.1 true := by
  have hloop : ∀ (entries : List (Bytes × Bytes)) (target : OrderedMap Bytes Bytes),
      kv ∈ (entries.foldl (fun labels label =>
        labels.insert (sanitizePrometheusNames label.1 true) label.2) target).entries →
      (∃ label ∈ entries, kv.1 = sanitizePrometheusNames label.1 true) ∨
        ∃ kv' ∈ target.entries, kv'.1 = kv.1 := by
    intro entries
    induction entries with
    | nil => exact fun target hmem => .inr ⟨kv, hmem, rfl⟩
    | cons label entries ih =>
      intro target hmem
      rcases ih _ hmem with ⟨label', hlabel', heq⟩ | ⟨kv', hkv', heq⟩
      · exact .inl ⟨label', List.mem_cons_of_mem _ hlabel', heq⟩
      · rcases OrderedMap.key_of_mem_alterEntries hkv' with hkey | ⟨kv'', hkv'', hkey⟩
        · exact .inl ⟨label, List.mem_cons_self, heq.symm.trans hkey⟩
        · exact .inr ⟨kv'', hkv'', hkey.trans heq⟩
  rcases hloop labels.entries ∅ h with hlabel | ⟨kv', hkv', -⟩
  · exact hlabel
  · cases hkv'

/-- So the gateway gets names of the grammar, if no name was empty. -/
theorem matchesGrammar_gatewayLabels {labels : OrderedMap Bytes Bytes}
    (hnames : ∀ label ∈ labels.entries, label.1 ≠ []) {kv : Bytes × Bytes}
    (h : kv ∈ (gatewayLabels labels).entries) : MatchesGrammar true kv.1 := by
  obtain ⟨label, hlabel, heq⟩ := name_gatewayLabels h
  rw [heq, sanitizePrometheusNames_eq]
  exact matchesGrammar_collapsedName (hnames label hlabel) true

end Prometheus

/-
What the connection string parser recovers.

A connection string is a list of fields, joined by semicolons.

* `leaves_ofString` — the constructor's loop is left on every string;
* `parses_fields` — the values of distinct fields are recovered, in any order.
-/
import OtelContrib.Geneva.ConnectionString
import Mathlib.Data.List.Infix

namespace Geneva

/-! ### Searches -/

section Searches

variable {s pre t : List UInt8} {c : UInt8} {q : UInt8 → Bool} {pos i k : ℕ}

/-- A search that succeeds ends inside the string. -/
theorem search_bounds (h : ((s.drop pos).findIdx? q).map (pos + ·) = some i) :
    pos ≤ i ∧ i < s.length := by
  obtain ⟨j, hj, rfl⟩ := Option.map_eq_some_iff.mp h
  have hlt := (List.findIdx?_eq_some_iff_getElem.mp hj).1
  rw [List.length_drop] at hlt
  omega

/-- A search behind a prefix is one in the rest. -/
theorem search_shift : (((pre ++ t).drop (pre.length + k)).findIdx? q).map (pre.length + k + ·)
    = (((t.drop k).findIdx? q).map (k + ·)).map (pre.length + ·) := by
  rw [List.drop_append, List.drop_eq_nil_of_le (by omega), List.nil_append,
    Nat.add_sub_cancel_left, Option.map_map]
  exact congrArg (Option.map · _) (funext fun i => Nat.add_assoc pre.length k i)

theorem find_shift :
    find (pre ++ t) c (pre.length + k) = (find t c k).map (pre.length + ·) := search_shift

theorem findFirstNotOf_shift : findFirstNotOf (pre ++ t) c (pre.length + k)
    = (findFirstNotOf t c k).map (pre.length + ·) := search_shift

theorem find_behind : find (pre ++ t) c pre.length = (find t c 0).map (pre.length + ·) :=
  find_shift (k := 0)

theorem find_first (h : c ∉ pre) : find (pre ++ c :: t) c 0 = some pre.length := by
  have hpre : pre.findIdx? (fun b => decide (b = c)) = none := by
    rw [List.findIdx?_eq_none_iff]
    exact fun b hb => decide_eq_false fun heq => h (heq ▸ hb)
  rw [find, List.drop_zero, List.findIdx?_append, hpre, Option.none_or, List.findIdx?_cons,
    if_pos (decide_eq_true rfl)]
  simp

theorem find_eq_none (h : c ∉ s) : find s c 0 = none := by
  rw [find, List.drop_zero, List.findIdx?_eq_none_iff.mpr, Option.map_none]
  exact fun b hb => decide_eq_false fun heq => h (heq ▸ hb)

theorem substr_shift_some : substr (pre ++ t) (pre.length + k) (some (pre.length + i))
    = substr t k (some i) := by
  rw [substr, substr, List.drop_append, List.drop_eq_nil_of_le (by omega), List.nil_append,
    Nat.add_sub_cancel_left, Nat.add_sub_add_left]

theorem substr_shift_none : substr (pre ++ t) (pre.length + k) none = substr t k none := by
  rw [substr, substr, List.drop_append, List.drop_eq_nil_of_le (by omega), List.nil_append,
    Nat.add_sub_cancel_left]

theorem substr_shift {stop : Option ℕ} :
    substr (pre ++ t) (pre.length + k) (stop.map (pre.length + ·)) = substr t k stop := by
  cases stop with
  | none => exact substr_shift_none
  | some i => exact substr_shift_some

end Searches

namespace ConnectionStringParser

/-! ### The loop -/

/-- One iteration of the loop, from `key_pos` on, and nothing where the loop is left. -/
def iteration (s : List UInt8) :
    Option ℕ → ConnectionStringParser → Option (Option ℕ × ConnectionStringParser)
  -- `find` from `npos` on finds nothing
  | none, _ => none
  | some keyPos, p =>
    match find s kEqual keyPos with
    | none => none
    | some keyEnd =>
      match findFirstNotOf s kEqual keyEnd with
      | none => none
      | some valPos =>
        let valEnd := find s kSemicolon valPos
        some (valEnd.map (· + 1),
          p.setField (substr s keyPos (some keyEnd)) (substr s valPos valEnd))

/-- The loop is left after finitely many iterations. -/
inductive Leaves (s : List UInt8) :
    Option ℕ → ConnectionStringParser → ConnectionStringParser → Prop
  | stop {keyPos p} : iteration s keyPos p = none → Leaves s keyPos p p
  | again {keyPos p next p' q} :
    iteration s keyPos p = some (next, p') → Leaves s next p' q → Leaves s keyPos p q

/-- Every iteration ends behind the place where it began. -/
theorem iteration_bounds {s : List UInt8} {keyPos next : ℕ} {p p' : ConnectionStringParser}
    (h : iteration s (some keyPos) p = some (some next, p')) : keyPos < next ∧ next ≤ s.length := by
  rw [iteration] at h
  split at h
  · cases h
  · rename_i keyEnd hkey
    split at h
    · cases h
    · rename_i valPos hval
      obtain ⟨hend, -⟩ := Prod.mk.inj (Option.some.inj h)
      obtain ⟨valEnd, hsemicolon, rfl⟩ := Option.map_eq_some_iff.mp hend
      have hkeyEnd := search_bounds hkey
      have hvalPos := search_bounds hval
      have hvalEnd := search_bounds hsemicolon
      omega

theorem parseFields_succ (s : List UInt8) (fuel keyPos : ℕ) (p : ConnectionStringParser) :
    parseFields s (fuel + 1) keyPos p =
      match iteration s (some keyPos) p with
      | none => p
      | some (none, p') => p'
      | some (some next, p') => parseFields s fuel next p' := by
  rw [parseFields, iteration]
  cases find s kEqual keyPos with
  | none => rfl
  | some keyEnd =>
    cases hval : findFirstNotOf s kEqual keyEnd with
    | none => simp only [hval]
    | some valPos => cases hend : find s kSemicolon valPos <;> simp only [hval, hend, Option.map]

theorem leaves_parseFields {s : List UInt8} {fuel keyPos : ℕ} (p : ConnectionStringParser)
    (hpos : keyPos ≤ s.length) (hfuel : s.length < fuel + keyPos) :
    Leaves s (some keyPos) p (parseFields s fuel keyPos p) := by
  induction fuel generalizing keyPos p with
  | zero => omega
  | succ fuel ih =>
    rw [parseFields_succ]
    cases hnext : iteration s (some keyPos) p with
    | none => exact .stop hnext
    | some next =>
      obtain ⟨stop, p'⟩ := next
      cases stop with
      | none => exact .again hnext (.stop rfl)
      | some next =>
        have hbounds := iteration_bounds hnext
        exact .again hnext (ih p' hbounds.2 (by omega))

theorem leaves_ofString (s : List UInt8) : Leaves s (some 0) {} (ofString s) :=
  leaves_parseFields {} (Nat.zero_le _) (Nat.lt_succ_self _)

/-- Behind a prefix the loop goes on as in the rest alone. -/
theorem iteration_shift (pre t : List UInt8) (k : ℕ) (p : ConnectionStringParser) :
    iteration (pre ++ t) (some (pre.length + k)) p =
      (iteration t (some k) p).map fun next => (next.1.map (pre.length + ·), next.2) := by
  rw [iteration, iteration, find_shift]
  cases hkey : find t kEqual k with
  | none => rfl
  | some keyEnd =>
    simp only [Option.map_some, findFirstNotOf_shift]
    cases hval : findFirstNotOf t kEqual keyEnd with
    | none => rfl
    | some valPos =>
      simp only [Option.map_some, find_shift, substr_shift_some, substr_shift, Option.map_map]
      rfl

theorem parseFields_shift (pre t : List UInt8) (fuel k : ℕ) (p : ConnectionStringParser) :
    parseFields (pre ++ t) fuel (pre.length + k) p = parseFields t fuel k p := by
  induction fuel generalizing k p with
  | zero => rfl
  | succ fuel ih =>
    rw [parseFields_succ, parseFields_succ, iteration_shift]
    cases iteration t (some k) p with
    | none => rfl
    | some next =>
      obtain ⟨stop, p'⟩ := next
      cases stop with
      | none => rfl
      | some next => exact ih next p'

/-! ### One field -/

section OneField

variable {key value tail : List UInt8} {p : ConnectionStringParser}

/-- What is behind `=` begins with the value, which does not begin with another `=`. -/
theorem findFirstNotOf_value (h : (value ++ tail).head? ≠ some kEqual)
    (hne : value ++ tail ≠ []) :
    findFirstNotOf (key ++ [kEqual] ++ (value ++ tail)) kEqual key.length
      = some (key.length + 1) := by
  obtain ⟨b, rest, hrest⟩ := List.exists_cons_of_ne_nil hne
  rw [hrest, List.head?_cons, ne_eq, Option.some_inj] at h
  have hshift : findFirstNotOf (key ++ kEqual :: b :: rest) kEqual (key.length + 0) = _ :=
    findFirstNotOf_shift
  rw [hrest, List.append_assoc, List.singleton_append]
  refine hshift.trans ?_
  simp [findFirstNotOf, List.findIdx?_cons, h]

theorem iteration_field (hkey : kEqual ∉ key) (h : (value ++ tail).head? ≠ some kEqual)
    (hne : value ++ tail ≠ []) :
    iteration (key ++ [kEqual] ++ (value ++ tail)) (some 0) p =
      some ((find (value ++ tail) kSemicolon 0).map (key.length + 1 + · + 1),
        p.setField key (substr (value ++ tail) 0 (find (value ++ tail) kSemicolon 0))) := by
  have hkeyEnd : find (key ++ [kEqual] ++ (value ++ tail)) kEqual 0 = some key.length := by
    rw [List.append_assoc, List.singleton_append]
    exact find_first hkey
  have hlength : (key ++ [kEqual]).length = key.length + 1 := by
    rw [List.length_append, List.length_singleton]
  have hvalEnd : find (key ++ [kEqual] ++ (value ++ tail)) kSemicolon (key.length + 1)
      = (find (value ++ tail) kSemicolon 0).map (key.length + 1 + ·) := by
    rw [← hlength]
    exact find_behind
  have hkeyText : substr (key ++ [kEqual] ++ (value ++ tail)) 0 (some key.length) = key := by
    rw [substr, List.drop_zero, Nat.sub_zero, List.append_assoc, List.take_left]
  have hvalText : substr (key ++ [kEqual] ++ (value ++ tail)) (key.length + 1)
      ((find (value ++ tail) kSemicolon 0).map (key.length + 1 + ·))
      = substr (value ++ tail) 0 (find (value ++ tail) kSemicolon 0) := by
    rw [← hlength]
    exact substr_shift (k := 0)
  simp only [iteration, hkeyEnd, findFirstNotOf_value h hne, hvalEnd, hkeyText, hvalText,
    Option.map_map]
  rfl

/-- A field with a semicolon behind it is set, and the loop goes on behind the semicolon. -/
theorem parseFields_field {rest : List UInt8} (fuel : ℕ) (hkey : kEqual ∉ key)
    (hvalue : kSemicolon ∉ value) (hstart : value.head? ≠ some kEqual) :
    parseFields (key ++ [kEqual] ++ (value ++ kSemicolon :: rest)) (fuel + 1) 0 p =
      parseFields rest fuel 0 (p.setField key value) := by
  have hhead : (value ++ kSemicolon :: rest).head? ≠ some kEqual := by
    cases value with
    | nil => exact fun heq => absurd (Option.some.inj heq) (by decide)
    | cons b value => exact hstart
  rw [parseFields_succ, iteration_field hkey hhead (by simp), find_first hvalue]
  have hsubstr : substr (value ++ kSemicolon :: rest) 0 (some value.length) = value := by
    rw [substr, List.drop_zero, Nat.sub_zero, List.take_left]
  have hshift := parseFields_shift (key ++ [kEqual] ++ (value ++ [kSemicolon])) rest fuel 0
    (p.setField key value)
  have htext : key ++ [kEqual] ++ (value ++ [kSemicolon]) ++ rest
      = key ++ [kEqual] ++ (value ++ kSemicolon :: rest) := by simp
  have hlength : (key ++ [kEqual] ++ (value ++ [kSemicolon])).length + 0
      = key.length + 1 + value.length + 1 := by
    simp only [List.length_append, List.length_singleton]
    omega
  rw [htext, hlength] at hshift
  rw [hsubstr]
  exact hshift

/-- The last field, with nothing behind it. -/
theorem parseFields_last (fuel : ℕ) (hkey : kEqual ∉ key) (hvalue : kSemicolon ∉ value)
    (hstart : value.head? ≠ some kEqual) (hne : value ≠ []) :
    parseFields (key ++ [kEqual] ++ value) (fuel + 1) 0 p = p.setField key value := by
  have hnext : iteration (key ++ [kEqual] ++ (value ++ [])) (some 0) p = _ :=
    iteration_field hkey (by rwa [List.append_nil]) (by rwa [List.append_nil])
  rw [List.append_nil, find_eq_none hvalue] at hnext
  rw [parseFields_succ, hnext]
  rfl

/-- A last field without a value leaves the loop. -/
theorem parseFields_last_nil (fuel : ℕ) (hkey : kEqual ∉ key) :
    parseFields (key ++ [kEqual]) (fuel + 1) 0 p = p := by
  have hnone : findFirstNotOf (key ++ [kEqual]) kEqual (key.length + 0) = none := by
    rw [findFirstNotOf_shift]
    rfl
  have hnext : iteration (key ++ [kEqual]) (some 0) p = none := by
    rw [iteration, find_first hkey]
    simp only [Nat.add_zero] at hnone
    simp only [hnone]
  rw [parseFields_succ, hnext]

end OneField

end ConnectionStringParser

/-! ### Fields -/

inductive Key
  | endpoint | account | namespace_
  deriving DecidableEq

def Key.text : Key → List UInt8
  | .endpoint => kEndpoint
  | .account => kAccount
  | .namespace_ => kNamespace

/-- A field; the value of an endpoint is `scheme://path`. -/
inductive Field
  | endpoint (scheme path : List UInt8)
  | account (value : List UInt8)
  | namespace_ (value : List UInt8)

def Field.key : Field → Key
  | .endpoint _ _ => .endpoint
  | .account _ => .account
  | .namespace_ _ => .namespace_

def Field.value : Field → List UInt8
  | .endpoint scheme path => scheme ++ ascii "://" ++ path
  | .account value => value
  | .namespace_ value => value

def Field.text (f : Field) : List UInt8 := f.key.text ++ [kEqual] ++ f.value

/-- The value has no semicolon and does not begin with `=`, and a scheme ends at the first
`://`. -/
structure Field.WellFormed (f : Field) : Prop where
  no_semicolon : kSemicolon ∉ f.value
  no_equal : f.value.head? ≠ some kEqual
  scheme : ∀ scheme path, f = .endpoint scheme path → ¬ascii "://" <:+: scheme

/-- The fields, joined by semicolons. -/
def connectionText (fields : List Field) (trailing : Bool) : List UInt8 :=
  [kSemicolon].intercalate (fields.map Field.text) ++ if trailing then [kSemicolon] else []

/-- The protocol that a scheme denotes. -/
def protocolOf (scheme : List UInt8) : TransportProtocol :=
  if scheme = ascii "unix" then .kUNIX
  else if scheme = ascii "tcp" then .kTCP
  else if scheme = ascii "udp" then .kUDP
  else .kUnknown

/-- What a parser holds for a key. -/
def ConnectionStringParser.slot (p : ConnectionStringParser) :
    Key → List UInt8 × TransportProtocol
  | .endpoint => (p.connectionString, p.transportProtocol)
  | .account => (p.account, .kUnknown)
  | .namespace_ => (p.namespace_, .kUnknown)

/-- What a parser is to hold for a field. -/
def Field.slot : Field → List UInt8 × TransportProtocol
  | .endpoint scheme path => (path, protocolOf scheme)
  | .account value => (value, .kUnknown)
  | .namespace_ value => (value, .kUnknown)

section Fields

variable {p : ConnectionStringParser} {f : Field} {fields : List Field}

/-- The first `://` is the one behind the scheme. -/
theorem findString_scheme {scheme : List UInt8} (h : ¬ascii "://" <:+: scheme)
    (path : List UInt8) :
    findString (ascii "://") (scheme ++ ascii "://" ++ path) = some scheme.length := by
  induction scheme with
  | nil => rfl
  | cons b scheme ih =>
    have hrest := ih fun hinfix => h (List.infix_cons hinfix)
    have hstart : (ascii "://").isPrefixOf (b :: scheme ++ ascii "://" ++ path) = false := by
      rw [Bool.eq_false_iff]
      intro hstart
      have hpath := List.isPrefixOf_iff_prefix.mp hstart
      -- it cannot end in the `://` that comes, whose bytes are in another order
      match scheme, hpath with
      | [], hpath => simp [ascii] at hpath
      | [c], hpath => simp [ascii] at hpath
      | c :: d :: scheme, hpath =>
        refine h (List.IsPrefix.isInfix ?_)
        simpa [ascii] using hpath
    rw [List.cons_append, List.cons_append] at hstart ⊢
    rw [findString, if_neg (by rw [hstart]; exact Bool.false_ne_true), hrest, Option.map_some,
      List.length_cons]

theorem not_mem_text (k : Key) : kEqual ∉ k.text := by
  cases k <;> decide

theorem setEndpoint_eq {scheme : List UInt8} (h : ¬ascii "://" <:+: scheme) (path : List UInt8)
    (hblank : p.transportProtocol = .kUnknown) :
    p.setEndpoint (scheme ++ ascii "://" ++ path)
      = { p with connectionString := path, transportProtocol := protocolOf scheme } := by
  have hscheme : (scheme ++ ascii "://" ++ path).take scheme.length = scheme := by
    rw [List.append_assoc, List.take_left]
  have hpath : (scheme ++ ascii "://" ++ path).drop (scheme.length + 3) = path := by
    have hlength : scheme.length + 3 = (scheme ++ ascii "://").length := by
      rw [List.length_append]
      rfl
    rw [hlength, List.drop_left]
  rw [ConnectionStringParser.setEndpoint, findString_scheme h]
  simp only [hscheme, hpath, protocolOf]
  split_ifs <;> simp_all [ascii]

/-- The endpoint has nothing to do with the account and the namespace. -/
theorem setEndpoint_frame (value : List UInt8) : (p.setEndpoint value).account = p.account ∧
    (p.setEndpoint value).namespace_ = p.namespace_ := by
  rw [ConnectionStringParser.setEndpoint]
  cases findString (ascii "://") value with
  | none => exact ⟨rfl, rfl⟩
  | some pos =>
    dsimp only
    split_ifs <;> exact ⟨rfl, rfl⟩

theorem slot_setField_self (hf : f.WellFormed) (hblank : p.slot f.key = ([], .kUnknown)) :
    (p.setField f.key.text f.value).slot f.key = f.slot := by
  cases f with
  | endpoint scheme path =>
    have hprotocol : p.transportProtocol = .kUnknown := congrArg Prod.snd hblank
    have hset : p.setField kEndpoint (scheme ++ ascii "://" ++ path) = p.setEndpoint _ := rfl
    show (p.setField kEndpoint _).slot .endpoint = _
    rw [Field.value, hset, setEndpoint_eq (hf.scheme scheme path rfl) path hprotocol]
    rfl
  | account value => rfl
  | namespace_ value => rfl

theorem slot_setField_of_ne {k : Key} (h : k ≠ f.key) :
    (p.setField f.key.text f.value).slot k = p.slot k := by
  cases f with
  | endpoint scheme path =>
    have hframe := setEndpoint_frame (p := p) (scheme ++ ascii "://" ++ path)
    cases k with
    | endpoint => exact absurd rfl h
    | account => exact congrArg (·, TransportProtocol.kUnknown) hframe.1
    | namespace_ => exact congrArg (·, TransportProtocol.kUnknown) hframe.2
  | account value => cases k <;> first | rfl | exact absurd rfl h
  | namespace_ value => cases k <;> first | rfl | exact absurd rfl h

/-- A string of fields is one field, a semicolon and a string of the others, or a last field. -/
theorem connectionText_cons (f : Field) (fields : List Field) (trailing : Bool) :
    (∃ trailing', connectionText (f :: fields) trailing
        = f.key.text ++ [kEqual] ++ (f.value ++ kSemicolon :: connectionText fields trailing')) ∨
      fields = [] ∧ connectionText (f :: fields) trailing = f.key.text ++ [kEqual] ++ f.value := by
  cases fields with
  | nil =>
    cases trailing with
    | true => exact .inl ⟨false, by simp [connectionText, Field.text]⟩
    | false => exact .inr ⟨rfl, by simp [connectionText, Field.text]⟩
  | cons g fields =>
    exact .inl ⟨trailing, by simp [connectionText, Field.text, List.intercalate]⟩

/-- Every field is held in its slot, and the other slots are as they were. -/
theorem slot_parseFields (hfields : ∀ f ∈ fields, f.WellFormed)
    (hdistinct : (fields.map Field.key).Nodup) {fuel : ℕ} (hfuel : fields.length < fuel)
    (hblank : ∀ f ∈ fields, p.slot f.key = ([], .kUnknown)) (trailing : Bool) :
    (∀ f ∈ fields, (ConnectionStringParser.parseFields (connectionText fields trailing) fuel 0
        p).slot f.key = f.slot) ∧
      ∀ k ∉ fields.map Field.key, (ConnectionStringParser.parseFields
        (connectionText fields trailing) fuel 0 p).slot k = p.slot k := by
  induction fields generalizing fuel p trailing with
  | nil =>
    have hnone : find (connectionText [] trailing) kEqual 0 = none := by cases trailing <;> rfl
    refine ⟨fun f hf => absurd hf List.not_mem_nil, fun k _ => ?_⟩
    cases fuel with
    | zero => rfl
    | succ fuel => rw [ConnectionStringParser.parseFields, hnone]
  | cons f fields ih =>
    obtain ⟨hfirst, hrest⟩ := List.nodup_cons.mp hdistinct
    obtain ⟨fuel, rfl⟩ : ∃ n, fuel = n + 1 := ⟨fuel - 1, by omega⟩
    have hf := hfields f List.mem_cons_self
    have hfblank := hblank f List.mem_cons_self
    obtain ⟨trailing', htext⟩ | ⟨rfl, htext⟩ := connectionText_cons f fields trailing
    · rw [htext, ConnectionStringParser.parseFields_field fuel (not_mem_text f.key)
        hf.no_semicolon hf.no_equal]
      have hother : ∀ g ∈ fields,
          (p.setField f.key.text f.value).slot g.key = ([], .kUnknown) := by
        intro g hg
        have hne : g.key ≠ f.key := fun heq => hfirst (heq ▸ List.mem_map_of_mem hg)
        rw [slot_setField_of_ne hne]
        exact hblank g (List.mem_cons_of_mem f hg)
      obtain ⟨hheld, hframe⟩ := ih (fun g hg => hfields g (List.mem_cons_of_mem f hg)) hrest
        (Nat.lt_of_succ_lt_succ hfuel) hother trailing'
      constructor
      · intro g hg
        cases List.mem_cons.mp hg with
        | inl heq =>
          subst heq
          rw [hframe _ hfirst, slot_setField_self hf hfblank]
        | inr hg => exact hheld g hg
      · intro k hk
        rw [List.map_cons, List.mem_cons, not_or] at hk
        rw [hframe k hk.2, slot_setField_of_ne hk.1]
    · rw [htext]
      by_cases hvalue : f.value = []
      · -- the loop is left before the value is set, which is empty already
        rw [hvalue, List.append_nil,
          ConnectionStringParser.parseFields_last_nil fuel (not_mem_text f.key)]
        refine ⟨fun g hg => ?_, fun k _ => rfl⟩
        rw [List.mem_singleton.mp hg, hfblank]
        cases f with
        | endpoint scheme path => simp [Field.value, ascii] at hvalue
        | account value => exact congrArg (·, TransportProtocol.kUnknown) hvalue.symm
        | namespace_ value => exact congrArg (·, TransportProtocol.kUnknown) hvalue.symm
      · rw [ConnectionStringParser.parseFields_last fuel (not_mem_text f.key) hf.no_semicolon
          hf.no_equal hvalue]
        refine ⟨fun g hg => ?_, fun k hk => ?_⟩
        · rw [List.mem_singleton.mp hg, slot_setField_self hf hfblank]
        · exact slot_setField_of_ne fun heq => hk (heq ▸ List.mem_singleton_self _)

/-- The values of the fields are held, and nothing for a field that is missing. -/
structure Recovered (fields : List Field) (p : ConnectionStringParser) : Prop where
  account : ∀ value, .account value ∈ fields → p.account = value
  namespace_ : ∀ value, .namespace_ value ∈ fields → p.namespace_ = value
  endpoint : ∀ scheme path, .endpoint scheme path ∈ fields →
    p.connectionString = path ∧ p.transportProtocol = protocolOf scheme
  no_account : (∀ value, .account value ∉ fields) → p.account = []
  no_namespace : (∀ value, .namespace_ value ∉ fields) → p.namespace_ = []
  no_endpoint : (∀ scheme path, .endpoint scheme path ∉ fields) →
    p.connectionString = [] ∧ p.transportProtocol = .kUnknown
  valid : p.isValid = true ↔ p.transportProtocol ≠ .kUnknown

/-- A key is missing when no field has it. -/
theorem not_mem_keys {k : Key} (h : ∀ f : Field, f.key = k → f ∉ fields) :
    k ∉ fields.map Field.key := by
  intro hmem
  obtain ⟨f, hf, hkey⟩ := List.mem_map.mp hmem
  exact h f hkey hf

theorem recovered_of_slots (hheld : ∀ f ∈ fields, p.slot f.key = f.slot)
    (hframe : ∀ k ∉ fields.map Field.key, p.slot k = ([], .kUnknown)) : Recovered fields p where
  account value hmem := congrArg Prod.fst (hheld _ hmem)
  namespace_ value hmem := congrArg Prod.fst (hheld _ hmem)
  endpoint scheme path hmem := Prod.mk.inj (hheld _ hmem)
  no_account hnone := by
    have hmissing : .account ∉ fields.map Field.key := not_mem_keys fun f hkey hf => by
      cases f with
      | account value => exact hnone value hf
      | _ => cases hkey
    exact congrArg Prod.fst (hframe .account hmissing)
  no_namespace hnone := by
    have hmissing : .namespace_ ∉ fields.map Field.key := not_mem_keys fun f hkey hf => by
      cases f with
      | namespace_ value => exact hnone value hf
      | _ => cases hkey
    exact congrArg Prod.fst (hframe .namespace_ hmissing)
  no_endpoint hnone := by
    have hmissing : .endpoint ∉ fields.map Field.key := not_mem_keys fun f hkey hf => by
      cases f with
      | endpoint scheme path => exact hnone scheme path hf
      | _ => cases hkey
    exact Prod.mk.inj (hframe .endpoint hmissing)
  valid := by rw [ConnectionStringParser.isValid, decide_eq_true_iff]

theorem length_le_connectionText (fields : List Field) (trailing : Bool) :
    fields.length ≤ (connectionText fields trailing).length := by
  induction fields generalizing trailing with
  | nil => exact Nat.zero_le _
  | cons f fields ih =>
    obtain ⟨trailing', htext⟩ | ⟨rfl, htext⟩ := connectionText_cons f fields trailing
    · have hrest := ih trailing'
      rw [htext]
      simp only [List.length_append, List.length_cons, List.length_nil]
      omega
    · rw [htext]
      simp only [List.length_append, List.length_cons, List.length_nil]
      omega

end Fields

/-- The parser comes to an end on every string, and recovers distinct fields in any order. -/
theorem parses_fields :
    (∀ s, ConnectionStringParser.Leaves s (some 0) {} (ConnectionStringParser.ofString s)) ∧
      ∀ fields : List Field, (∀ f ∈ fields, f.WellFormed) → (fields.map Field.key).Nodup →
        ∀ trailing,
          Recovered fields (ConnectionStringParser.ofString (connectionText fields trailing)) := by
  refine ⟨ConnectionStringParser.leaves_ofString, fun fields hfields hdistinct trailing => ?_⟩
  have hfuel := Nat.lt_succ_of_le (length_le_connectionText fields trailing)
  have hblank : ∀ k, (ConnectionStringParser.slot {} k) = ([], .kUnknown) := by
    intro k
    cases k <;> rfl
  obtain ⟨hheld, hframe⟩ :=
    slot_parseFields hfields hdistinct hfuel (fun f _ => hblank f.key) trailing
  exact recovered_of_slots hheld fun k hk => (hframe k hk).trans (hblank k)

theorem parses_account_before_endpoint :
    connectionText [.account (ascii "a=b"), .endpoint (ascii "unix") (ascii "/tmp/s")] true
        = ascii "Account=a=b;Endpoint=unix:///tmp/s;" ∧
      Recovered [.account (ascii "a=b"), .endpoint (ascii "unix") (ascii "/tmp/s")]
        (ConnectionStringParser.ofString (ascii "Account=a=b;Endpoint=unix:///tmp/s;")) := by
  have hfields : ∀ f ∈ [Field.account (ascii "a=b"), .endpoint (ascii "unix") (ascii "/tmp/s")],
      f.WellFormed := by
    intro f hf
    rcases List.mem_pair.mp hf with rfl | rfl
    · exact ⟨by decide, by decide, fun _ _ h => by cases h⟩
    · refine ⟨by decide, by decide, fun _ _ h => ?_⟩
      cases h
      decide
  exact ⟨by decide, parses_fields.2 _ hfields (by decide) true⟩

end Geneva

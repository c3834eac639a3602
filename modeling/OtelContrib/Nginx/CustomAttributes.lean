/-
How locations inherit custom attributes.

`MergeLocConf` puts the attributes of the block around a block, and then its own, into a map by
the patterns of their keys, and writes what the map has over the block's own array, in whatever
order the map is walked.  An array that is longer than the map keeps its last elements.

* `writeBack_eq` — the array is then what was written, and what is left of it;
* `decides_merge` — the last attribute with a pattern is the block's own, or else inherited;
* `custom_attributes_inherited` — the span of a request ends with the value of the last
  directive for a key in the innermost block that has one.
-/
import OtelContrib.Nginx.SpanAttributes

open Otel
open LastWins (lastValue lastValue_append lastValue_eq_some_iff lastValue_perm
  find?_foldl_insert find?_eq_lastValue)

namespace Nginx

/-! ### Blocks and their directives -/

/-- The order in which a map is walked. -/
structure IterationOrder where
  iterate : List CompiledScriptAttribute → List CompiledScriptAttribute
  perm : ∀ attributes, (iterate attributes).Perm attributes

/-- The `opentelemetry_attribute` directives of a block in their order, each with its key and
its script, and the order in which the map is walked when the block is merged. -/
structure Block where
  directives : List (Bytes × Bytes)
  order : IterationOrder

section

variable (variablesCount : Bytes → ℕ)

/-- `CompileScript`, with nginx's count of the variables in a script. -/
def compileScript (pattern : Bytes) : NgxCompiledScript := ⟨pattern, variablesCount pattern ≠ 0⟩

/-- `CompileScriptAttribute`. -/
def compileScriptAttribute (key script : Bytes) : CompiledScriptAttribute :=
  ⟨compileScript variablesCount key, compileScript variablesCount script,
    .ScriptAttributeString⟩

/-- `OtelNgxSetCustomAttribute`; a block without directives has no array. -/
def otelNgxSetCustomAttribute (customAttributes : Option (List CompiledScriptAttribute))
    (args : Bytes × Bytes) : Option (List CompiledScriptAttribute) :=
  some (customAttributes.getD [] ++ [compileScriptAttribute variablesCount args.1 args.2])

def Block.attributes (block : Block) : Option (List CompiledScriptAttribute) :=
  block.directives.foldl (otelNgxSetCustomAttribute variablesCount) none

end

/-! ### Merging -/

def mergedAttributes (prev conf : List CompiledScriptAttribute) :
    OrderedMap Bytes CompiledScriptAttribute :=
  (prev ++ conf).foldl (fun map attrib => map.insert attrib.key.pattern attrib) ∅

/-- The loop over the map: elements are overwritten from `index` on, and pushed at the end. -/
def writeBack (elts : List CompiledScriptAttribute) (index : ℕ) :
    List CompiledScriptAttribute → List CompiledScriptAttribute
  | [] => elts
  | attrib :: rest =>
    if index = elts.length then writeBack (elts ++ [attrib]) (index + 1) rest
    else writeBack (elts.set index attrib) (index + 1) rest

/-- The custom attributes of `MergeLocConf`. -/
def mergeCustomAttributes (order : IterationOrder)
    (prev conf : Option (List CompiledScriptAttribute)) : Option (List CompiledScriptAttribute) :=
  match prev, conf with
  | some prev, none => some prev
  | some prev, some conf =>
    some (writeBack conf 0 (order.iterate ((mergedAttributes prev conf).entries.map Prod.snd)))
  | none, conf => conf

/-- A block in some blocks, the outermost one first: each is merged with what is around it. -/
def mergeBlocks (variablesCount : Bytes → ℕ) : List Block → Option (List CompiledScriptAttribute)
  | [] => none
  | outermost :: blocks =>
    blocks.foldl
      (fun prev block =>
        mergeCustomAttributes block.order prev (block.attributes variablesCount))
      (outermost.attributes variablesCount)

/-! ### The value of a key -/

/-- The script of the last directive for a key in the innermost block that has one. -/
def innermost (blocks : List Block) (pattern : Bytes) : Option Bytes :=
  blocks.reverse.findSome? fun block => lastValue block.directives pattern

/-- The last attribute with a pattern as its key. -/
def decides (attributes : List CompiledScriptAttribute) (pattern : Bytes) :
    Option CompiledScriptAttribute :=
  lastValue (attributes.map fun attrib => (attrib.key.pattern, attrib)) pattern

/-- Keys with different patterns have different names in a request. -/
def DistinctNames (ngx : NgxCore) (variablesCount : Bytes → ℕ) (blocks : List Block)
    (req : NgxHttpRequest) : Prop :=
  ∀ directive ∈ blocks.flatMap Block.directives, ∀ directive' ∈ blocks.flatMap Block.directives,
    ∀ name, (compileScript variablesCount directive.1).run ngx req = some name →
      (compileScript variablesCount directive'.1).run ngx req = some name →
        directive.1 = directive'.1

variable {variablesCount : Bytes → ℕ}

theorem writeBack_eq (elts attributes : List CompiledScriptAttribute) {index : ℕ}
    (hindex : index ≤ elts.length) :
    writeBack elts index attributes =
      elts.take index ++ (attributes ++ elts.drop (index + attributes.length)) := by
  induction attributes generalizing elts index with
  | nil => exact (List.take_append_drop index elts).symm
  | cons attrib rest ih =>
    rw [writeBack]
    split
    case isTrue hend =>
      have hlength : (elts ++ [attrib]).length = index + 1 := by
        rw [List.length_append, List.length_singleton, hend]
      have hdrop : elts.drop (index + (attrib :: rest).length) = [] :=
        List.drop_eq_nil_of_le (hend ▸ Nat.le_add_right _ _)
      have hdrop' : (elts ++ [attrib]).drop (index + 1 + rest.length) = [] :=
        List.drop_eq_nil_of_le (hlength.symm ▸ Nat.le_add_right _ _)
      rw [ih _ (Nat.le_of_eq hlength.symm), hdrop, hdrop', ← hlength, List.take_length, hend,
        List.take_length, List.append_assoc, List.singleton_append, List.cons_append]
    case isFalse hinside =>
      have hlt : index < elts.length := Nat.lt_of_le_of_ne hindex hinside
      have hlength : (elts.take index ++ [attrib]).length = index + 1 := by
        rw [List.length_append, List.length_take, List.length_singleton]
        omega
      have htake : (elts.set index attrib).take (index + 1) = elts.take index ++ [attrib] := by
        rw [List.set_eq_take_append_cons_drop, if_pos hlt, ← List.singleton_append,
          ← List.append_assoc, List.take_left' hlength]
      rw [ih _ (by rw [List.length_set]; exact hlt), htake, List.drop_set_of_lt (by omega),
        List.append_assoc, List.singleton_append, List.cons_append, List.length_cons,
        Nat.add_assoc, Nat.add_comm 1]

theorem decides_append (xs ys : List CompiledScriptAttribute) (pattern : Bytes) :
    decides (xs ++ ys) pattern = (decides ys pattern).or (decides xs pattern) := by
  rw [decides, decides, decides, List.map_append, lastValue_append]

theorem find?_mergedAttributes (prev conf : List CompiledScriptAttribute) (pattern : Bytes) :
    (mergedAttributes prev conf).find? pattern =
      (decides conf pattern).or (decides prev pattern) := by
  rw [← decides_append, decides, mergedAttributes]
  have hfold := find?_foldl_insert ∅
    ((prev ++ conf).map fun attrib => (attrib.key.pattern, attrib)) pattern
  rw [List.foldl_map] at hfold
  exact hfold.trans (Option.or_none ..)

/-- Every entry of the map is an attribute of one of the arrays, under the pattern of its key. -/
theorem of_mem_mergedAttributes {prev conf : List CompiledScriptAttribute}
    {entry : Bytes × CompiledScriptAttribute} (h : entry ∈ (mergedAttributes prev conf).entries) :
    ∃ attrib ∈ prev ++ conf, (attrib.key.pattern, attrib) = entry := by
  have hnodup : ((mergedAttributes prev conf).entries.map Prod.fst).Nodup :=
    OrderedMap.keys_nodup _
  have hfind := find?_eq_lastValue (mergedAttributes prev conf) entry.1
  rw [LastWins.lastValue_of_mem hnodup h, find?_mergedAttributes, ← decides_append, decides,
    lastValue_eq_some_iff] at hfind
  obtain ⟨pre, post, heq, -⟩ := hfind
  have hmem : entry ∈ (prev ++ conf).map fun attrib => (attrib.key.pattern, attrib) :=
    heq ▸ List.mem_append_right pre List.mem_cons_self
  exact List.mem_map.mp hmem

/-- However the map is walked, what is written decides as the two arrays do. -/
theorem decides_iterate (order : IterationOrder) (prev conf : List CompiledScriptAttribute)
    (pattern : Bytes) :
    decides (order.iterate ((mergedAttributes prev conf).entries.map Prod.snd)) pattern =
      (decides conf pattern).or (decides prev pattern) := by
  have hpairs : ((mergedAttributes prev conf).entries.map Prod.snd).map
      (fun attrib => (attrib.key.pattern, attrib)) = (mergedAttributes prev conf).entries := by
    rw [List.map_map]
    refine (List.map_congr_left fun entry hentry => ?_).trans (List.map_id _)
    obtain ⟨attrib, -, rfl⟩ := of_mem_mergedAttributes hentry
    rfl
  have hperm := (order.perm ((mergedAttributes prev conf).entries.map Prod.snd)).map
    fun attrib => (attrib.key.pattern, attrib)
  rw [hpairs] at hperm
  rw [decides, ← lastValue_perm hperm.symm (OrderedMap.keys_nodup _), ← find?_eq_lastValue,
    find?_mergedAttributes]

/-- What is left of the longer array decides as the whole array does. -/
theorem decides_drop (conf : List CompiledScriptAttribute) (n : ℕ) (pattern : Bytes)
    (x : Option CompiledScriptAttribute) :
    (decides (conf.drop n) pattern).or ((decides conf pattern).or x) =
      (decides conf pattern).or x := by
  have hconf := decides_append (conf.take n) (conf.drop n) pattern
  rw [List.take_append_drop] at hconf
  rw [hconf]
  cases decides (conf.drop n) pattern with
  | none => rfl
  | some attrib => rfl

theorem decides_merge (order : IterationOrder)
    (prev conf : Option (List CompiledScriptAttribute)) (pattern : Bytes) :
    decides ((mergeCustomAttributes order prev conf).getD []) pattern =
      (decides (conf.getD []) pattern).or (decides (prev.getD []) pattern) := by
  cases prev with
  | none =>
    rw [mergeCustomAttributes]
    exact (Option.or_none ..).symm
  | some prev =>
    cases conf with
    | none => rfl
    | some conf =>
      rw [mergeCustomAttributes, Option.getD_some, writeBack_eq conf _ (Nat.zero_le _),
        List.take_zero, List.nil_append, decides_append, decides_iterate, decides_drop]
      rfl

theorem attributes_eq (block : Block) :
    (block.attributes variablesCount).getD [] =
      block.directives.map fun args => compileScriptAttribute variablesCount args.1 args.2 := by
  rw [Block.attributes]
  induction block.directives using List.reverseRecOn with
  | nil => rfl
  | append_singleton directives args ih =>
    rw [List.foldl_append, List.map_append, ← ih]
    rfl

theorem decides_attributes (block : Block) (pattern : Bytes) :
    decides ((block.attributes variablesCount).getD []) pattern =
      (lastValue block.directives pattern).map (compileScriptAttribute variablesCount pattern) := by
  rw [attributes_eq, decides, List.map_map]
  induction block.directives using List.reverseRecOn with
  | nil => rfl
  | append_singleton directives args ih =>
    rw [List.map_append, lastValue_append, lastValue_append, ih, List.map_singleton,
      LastWins.lastValue_singleton, LastWins.lastValue_singleton]
    by_cases hkey : args.1 = pattern
    · subst hkey
      rw [if_pos rfl]
      exact congrArg (Option.or · _) (if_pos rfl)
    · rw [if_neg hkey]
      exact congrArg (Option.or · _) (if_neg hkey)

theorem mergeBlocks_concat (blocks : List Block) (block : Block) :
    mergeBlocks variablesCount (blocks ++ [block]) =
      mergeCustomAttributes block.order (mergeBlocks variablesCount blocks)
        (block.attributes variablesCount) := by
  cases blocks with
  | nil => rfl
  | cons outermost blocks =>
    rw [List.cons_append, mergeBlocks, List.foldl_append]
    rfl

theorem innermost_concat (blocks : List Block) (block : Block) (pattern : Bytes) :
    innermost (blocks ++ [block]) pattern =
      (lastValue block.directives pattern).or (innermost blocks pattern) := by
  rw [innermost, List.reverse_append, List.reverse_singleton, List.singleton_append,
    List.findSome?_cons]
  cases lastValue block.directives pattern with
  | none => rfl
  | some script => rfl

/-- For each pattern the merged attributes have the script of the innermost block's last
directive. -/
theorem decides_mergeBlocks (blocks : List Block) (pattern : Bytes) :
    decides ((mergeBlocks variablesCount blocks).getD []) pattern =
      (innermost blocks pattern).map (compileScriptAttribute variablesCount pattern) := by
  induction blocks using List.reverseRecOn with
  | nil => rfl
  | append_singleton blocks block ih =>
    rw [mergeBlocks_concat, decides_merge, ih, decides_attributes, innermost_concat]
    cases lastValue block.directives pattern with
    | none => rfl
    | some script => rfl

/-! ### What the span has -/

theorem mem_mergeCustomAttributes {order : IterationOrder}
    {prev conf : Option (List CompiledScriptAttribute)} {attrib : CompiledScriptAttribute}
    (h : attrib ∈ (mergeCustomAttributes order prev conf).getD []) :
    attrib ∈ prev.getD [] ∨ attrib ∈ conf.getD [] := by
  cases prev with
  | none => exact Or.inr h
  | some prev =>
    cases conf with
    | none => exact Or.inl h
    | some conf =>
      rw [mergeCustomAttributes, Option.getD_some, writeBack_eq conf _ (Nat.zero_le _),
        List.take_zero, List.nil_append] at h
      rcases List.mem_append.mp h with h | h
      · obtain ⟨entry, hentry, rfl⟩ := List.mem_map.mp ((order.perm _).subset h)
        obtain ⟨attrib, hattrib, rfl⟩ := of_mem_mergedAttributes hentry
        exact List.mem_append.mp hattrib
      · exact Or.inr (List.mem_of_mem_drop h)

/-- Nothing is merged that is no directive of some block. -/
theorem directive_of_mem_mergeBlocks {blocks : List Block} {attrib : CompiledScriptAttribute}
    (h : attrib ∈ (mergeBlocks variablesCount blocks).getD []) :
    ∃ directive ∈ blocks.flatMap Block.directives,
      compileScriptAttribute variablesCount directive.1 directive.2 = attrib := by
  induction blocks using List.reverseRecOn with
  | nil => cases h
  | append_singleton blocks block ih =>
    rw [mergeBlocks_concat] at h
    rw [List.flatMap_append, List.flatMap_singleton]
    rcases mem_mergeCustomAttributes h with h | h
    · obtain ⟨directive, hdirective, heq⟩ := ih h
      exact ⟨directive, List.mem_append_left _ hdirective, heq⟩
    · rw [attributes_eq] at h
      obtain ⟨directive, hdirective, heq⟩ := List.mem_map.mp h
      exact ⟨directive, List.mem_append_right _ hdirective, heq⟩

theorem directive_of_innermost {blocks : List Block} {pattern script : Bytes}
    (h : innermost blocks pattern = some script) :
    (pattern, script) ∈ blocks.flatMap Block.directives := by
  obtain ⟨block, hblock, hlast⟩ := List.exists_of_findSome?_eq_some h
  obtain ⟨pre, post, heq, -⟩ := lastValue_eq_some_iff.mp hlast
  refine List.mem_flatMap.mpr ⟨block, List.mem_reverse.mp hblock, ?_⟩
  rw [heq]
  exact List.mem_append_right pre List.mem_cons_self

theorem run_of_eval {ngx : NgxCore} {attrib : CompiledScriptAttribute} {req : NgxHttpRequest}
    {name : Bytes} {value : AttributeValue} (h : attrib.eval ngx req = some (name, value)) :
    attrib.key.run ngx req = some name := by
  rw [CompiledScriptAttribute.eval] at h
  split at h
  case h_1 key _ hkey _ =>
    rw [hkey, (Prod.mk.inj (Option.some.inj h)).1]
  case h_2 => cases h

/-- An attribute that decides for its pattern is set last under its name, if no other pattern
has that name. -/
theorem lastValue_scriptWrites {ngx : NgxCore} {attributes : List CompiledScriptAttribute}
    {pattern name : Bytes} {attrib : CompiledScriptAttribute} {req : NgxHttpRequest}
    {value : AttributeValue} (hdecides : decides attributes pattern = some attrib)
    (heval : attrib.eval ngx req = some (name, value))
    (hother : ∀ other ∈ attributes, ∀ v, other.eval ngx req = some (name, v) →
      other.key.pattern = pattern) :
    lastValue (scriptWrites ngx attributes req) name = some value := by
  obtain ⟨pre, post, hsplit, hpost⟩ := lastValue_eq_some_iff.mp hdecides
  obtain ⟨before, rest, rfl, -, hrest⟩ := List.map_eq_append_iff.mp hsplit
  obtain ⟨attrib', behind, rfl, hattrib, rfl⟩ := List.map_eq_cons_iff.mp hrest
  obtain rfl : attrib' = attrib := (Prod.mk.inj hattrib).2
  rw [scriptWrites, List.filterMap_append,
    List.filterMap_cons_some (f := fun attrib : CompiledScriptAttribute => attrib.eval ngx req)
      heval]
  refine lastValue_eq_some_iff.mpr ⟨_, _, rfl, fun hmem => hpost ?_⟩
  obtain ⟨write, hwrite, hname⟩ := List.mem_map.mp hmem
  obtain ⟨other, hbehind, hvalue⟩ := List.mem_filterMap.mp hwrite
  have hpattern : other.key.pattern = pattern :=
    hother other (List.mem_append_right _ (List.mem_cons_of_mem _ hbehind)) write.2
      (hvalue.trans (by rw [← hname]))
  rw [List.map_map]
  exact List.mem_map.mpr ⟨other, hbehind, hpattern⟩

/-- In a request whose keys have different names for different patterns, the span has for each
pattern what the last directive for it gives, of the innermost block that has one. -/
theorem custom_attributes_inherited (ngx : NgxCore) (variablesCount : Bytes → ℕ)
    (blocks : List Block) (scriptAttributes : List CompiledScriptAttribute) {s : State}
    {req : NgxHttpRequest} {context n : ℕ}
    (hblocks : req.locConf.customAttributes = (mergeBlocks variablesCount blocks).getD [])
    (henabled : isOtelEnabled ngx req = true) (hcontext : getTraceContext s req = some context)
    (hspan : s.contexts[context]?.bind TraceContext.request_span = some n)
    (hn : n < s.tracer.spans.length) (hnames : DistinctNames ngx variablesCount blocks req) :
    ∃ s', finishNgxSpan ngx scriptAttributes s req = some s' ∧
      ∀ pattern script, innermost blocks pattern = some script →
        ∀ name value,
          (compileScriptAttribute variablesCount pattern script).eval ngx req = some (name, value) →
            attributeOf s'.tracer n name = some value := by
  obtain ⟨s', hfinish, hattributes⟩ :=
    attributeOf_finishNgxSpan henabled hcontext hspan hn scriptAttributes
  refine ⟨s', hfinish, fun pattern script hinner name value heval => ?_⟩
  have hdecides : decides ((mergeBlocks variablesCount blocks).getD []) pattern = _ :=
    decides_mergeBlocks blocks pattern
  rw [hinner, Option.map_some] at hdecides
  have hlast := lastValue_scriptWrites hdecides heval fun other hother v hvalue => by
    obtain ⟨directive, hdirective, rfl⟩ := directive_of_mem_mergeBlocks hother
    exact hnames directive hdirective (pattern, script) (directive_of_innermost hinner) name
      (run_of_eval hvalue) (run_of_eval heval)
  rw [hattributes, finishWrites, lastValue_append, hblocks, hlast, Option.some_or, Option.some_or]

/-! ### A server with a location -/

def countDollars (s : Bytes) : ℕ := s.count 36

def backwards : IterationOrder := ⟨List.reverse, List.reverse_perm⟩

/-- The location has two directives for one key, so its array is longer than the map. -/
def sampleBlocks : List Block :=
  [⟨[(ascii "tenant", ascii "a")], backwards⟩,
    ⟨[(ascii "tenant", ascii "b"), (ascii "tenant", ascii "c")], backwards⟩]

def sampleInLocation : NgxHttpRequest :=
  requestIn { location true (ascii "/") with
    customAttributes := (mergeBlocks countDollars sampleBlocks).getD [] } false

theorem custom_attributes_sample :
    ∃ s', finishNgxSpan noMatches []
        (startNgxSpan noMatches nothingExtracted (request .init) sampleInLocation)
        sampleInLocation = some s' ∧
      ∀ pattern script, innermost sampleBlocks pattern = some script →
        ∀ name value, (compileScriptAttribute countDollars pattern script).eval noMatches
            sampleInLocation = some (name, value) →
          attributeOf s'.tracer 0 name = some value := by
  have hrun : ∀ directive ∈ sampleBlocks.flatMap Block.directives,
      (compileScript countDollars directive.1).run noMatches sampleInLocation =
        some directive.1 := by
    decide +kernel
  refine custom_attributes_inherited noMatches countDollars sampleBlocks [] rfl rfl rfl rfl
    Nat.zero_lt_one ?_
  intro directive hdirective directive' hdirective' name hname hname'
  have hsame := (hrun directive hdirective).symm.trans hname
  exact Option.some.inj (hsame.trans (hname'.symm.trans (hrun directive' hdirective')))

end Nginx

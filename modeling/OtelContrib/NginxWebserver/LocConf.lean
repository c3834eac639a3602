/-
The configuration of the webserver module for nginx (`ngx_http_opentelemetry_module.c`).

The directives are read in the order of the file; when all are read, the blocks are
merged, every server and after it its locations from the outside in.  A directive has
its arguments as nginx parsed them.  The options go without `nginxModule` here.

The contexts are in static variables.  They stay what they were when the same master reads a
configuration once more, so that loading starts with whatever an earlier one stored.

* `load_ok`, `load_outsideArray` — the contexts that are stored are those of the
  directives and one of a block around others, and they have to fit the array behind
  what is there.
-/
import OtelContrib.Sdk.AttributeValue
import Mathlib.Data.List.Basic

open Otel.Common (cString)

namespace NginxWebserver

/-! ### The configuration of a location -/

inductive StrOption
  | otelSpanExporter | otelExporterEndpoint | otelExporterOtlpHeaders | otelSslCertificatePath
  | otelSpanProcessor | otelSampler | serviceName | serviceNamespace | serviceInstanceId
  | cookieMatchPattern | delimiter | segment | matchfilter | matchpattern | segmentType
  | segmentParameter | requestHeaders | responseHeaders | operationName
  deriving DecidableEq

inductive FlagOption
  | enabled | otelSslEnabled | resolveBackends | traceAsError | reportAllInstrumentedModules
  | maskCookie | maskSmUser | trustIncomingSpans
  deriving DecidableEq

inductive NumOption
  | otelMaxQueueSize | otelScheduledDelayMillis | otelExportTimeoutMillis | otelMaxExportBatchSize
  deriving DecidableEq

/-- `ngx_http_opentelemetry_loc_conf_t`: an option is `none` as long as it is unset, for a
string as long as its data is null. -/
structure LocConf where
  str : StrOption → Option Bytes
  flag : FlagOption → Option Bool
  num : NumOption → Option UInt64
  propagatorType : Option Bytes
  attributes : Option (List Bytes)
  ignorePaths : Option (List Bytes)

/-- Namespace, name and instance id of a service. -/
abbrev Triple := Bytes × Bytes × Bytes

/-- What `ngx_http_opentelemetry_merge_loc_conf` gives to what is set nowhere. -/
def StrOption.default : StrOption → Bytes
  | .segmentType => ascii "First"
  | .segmentParameter => ascii "2"
  | _ => []

def FlagOption.default : FlagOption → Bool
  | .enabled | .resolveBackends | .trustIncomingSpans => true
  | _ => false

def NumOption.default : NumOption → UInt64
  | .otelMaxQueueSize => 2048
  | .otelScheduledDelayMillis => 5000
  | .otelExportTimeoutMillis => 30000
  | .otelMaxExportBatchSize => 512

namespace LocConf

/-- `ngx_http_opentelemetry_create_loc_conf`. -/
def create : LocConf := ⟨fun _ => none, fun _ => none, fun _ => none, none, none, none⟩

/-- `ngx_otel_set_attributes` and `ngx_conf_merge_ignore_paths`. -/
def mergeArray (prev conf : Option (List Bytes)) : Option (List Bytes) :=
  if conf.any (· ≠ []) then conf
  else if prev.any (· ≠ []) ∧ conf = none then prev
  else conf

/-- The options of `ngx_http_opentelemetry_merge_loc_conf`. -/
def merge (prev conf : LocConf) : LocConf where
  str o := some ((conf.str o).getD ((prev.str o).getD o.default))
  flag o := some ((conf.flag o).getD ((prev.flag o).getD o.default))
  num o := some ((conf.num o).getD ((prev.num o).getD o.default))
  propagatorType := some (conf.propagatorType.getD (prev.propagatorType.getD (ascii "w3c")))
  attributes := mergeArray prev.attributes conf.attributes
  ignorePaths := mergeArray prev.ignorePaths conf.ignorePaths

/-- The text of an option; merging leaves no option unset. -/
def text (conf : LocConf) (o : StrOption) : Bytes := (conf.str o).getD []

def triple (conf : LocConf) : Triple :=
  (conf.text .serviceNamespace, conf.text .serviceName, conf.text .serviceInstanceId)

/-- No part of the triple is null. -/
def tripleSet (conf : LocConf) : Bool :=
  (conf.str .serviceName).isSome && (conf.str .serviceNamespace).isSome &&
    (conf.str .serviceInstanceId).isSome

end LocConf

/-! ### Directives -/

inductive Directive
  | str (o : StrOption) (value : Bytes)
  | flag (o : FlagOption) (value : Bool)
  | num (o : NumOption) (value : UInt64)
  | propagatorType (value : Bytes)
  | attributes (values : List Bytes)
  | ignorePaths (values : List Bytes)
  | webserverContext (sNamespace sName sInstanceId : Bytes)

namespace Directive

/-- nginx's own setters refuse an option that is set. -/
def isDuplicate (conf : LocConf) : Directive → Bool
  | .str o _ => (conf.str o).isSome
  | .flag o _ => (conf.flag o).isSome
  | .num o _ => (conf.num o).isSome
  | _ => false

/-- What a directive sets in the configuration of its block. -/
def set (conf : LocConf) : Directive → LocConf
  | .str o value => { conf with str := fun o' => if o' = o then some value else conf.str o' }
  | .flag o value => { conf with flag := fun o' => if o' = o then some value else conf.flag o' }
  | .num o value => { conf with num := fun o' => if o' = o then some value else conf.num o' }
  | .propagatorType value =>
    { conf with
      propagatorType := some
        (if cString value = ascii "b3" ∨ cString value = ascii "B3" then ascii "b3"
          else ascii "w3c") }
  | .attributes values => { conf with attributes := some (values.map cString) }
  | .ignorePaths values => { conf with ignorePaths := some (values.map cString) }
  | .webserverContext sNamespace sName sInstanceId =>
    { conf with
      str := fun o => match o with
        | .serviceNamespace => some sNamespace
        | .serviceName => some sName
        | .serviceInstanceId => some sInstanceId
        | o => conf.str o }

/-- The context of a `NginxModuleWebserverContext`. -/
def context? : Directive → Option Triple
  | .webserverContext sNamespace sName sInstanceId => some (sNamespace, sName, sInstanceId)
  | _ => none

end Directive

/-! ### Contexts -/

/-- The places of `contexts`. -/
def MAX_CONTEXTS : ℕ := 5

/-- nginx rejects a configuration, or a context is stored outside of the array. -/
inductive LoadError
  | isDuplicate | outsideArray
  deriving DecidableEq

/-- The contexts up to `c_count`, and whether `isGlobalContextSet`. -/
structure Contexts where
  contexts : List Triple
  isGlobalContextSet : Bool
  fits : contexts.length ≤ MAX_CONTEXTS

namespace Contexts

/-- The static variables of a process that has read no configuration. -/
def new : Contexts := ⟨[], false, Nat.zero_le _⟩

/-- A store at `contexts[c_count++]`. -/
def store (c : Contexts) (t : Triple) : Except LoadError Contexts :=
  if hlt : c.contexts.length < MAX_CONTEXTS then
    .ok { c with
      contexts := c.contexts ++ [t]
      fits := by
        rw [List.length_append]
        exact hlt }
  else .error .outsideArray

/-- `ngx_otel_context_set`, less what it sets in the configuration. -/
def ngxOtelContextSet (c : Contexts) (d : Directive) : Except LoadError Contexts :=
  match d.context? with
  | some t => c.store t
  | none => .ok c

/-- `ngx_otel_set_global_context`. -/
def ngxOtelSetGlobalContext (c : Contexts) (prev : LocConf) : Except LoadError Contexts :=
  if c.isGlobalContextSet then .ok c
  else if prev.tripleSet then { c with isGlobalContextSet := true }.store prev.triple
  else .ok c

end Contexts

/-! ### Blocks -/

/-- What a block contains, in order: directives, and blocks of its own. -/
inductive Items
  | nil
  | directive (d : Directive) (rest : Items)
  | block (items rest : Items)

/-- The configurations of blocks and of the blocks in them. -/
inductive Blocks
  | nil
  | block (conf : LocConf) (inner rest : Blocks)

/-- Reading what is left of a block with the given configuration. -/
def Items.read (c : Contexts) (conf : LocConf) :
    Items → Except LoadError (Contexts × LocConf × Blocks)
  | .nil => .ok (c, conf, .nil)
  | .directive d rest =>
    if d.isDuplicate conf then .error .isDuplicate
    else do
      let c ← c.ngxOtelContextSet d
      rest.read c (d.set conf)
  | .block items rest => do
    let (c, conf', inner) ← items.read c .create
    let (c, conf, blocks) ← rest.read c conf
    .ok (c, conf, .block conf' inner blocks)

/-- Merging the blocks of one level, each with the blocks in it. -/
def Blocks.merge (c : Contexts) (prev : LocConf) : Blocks → Except LoadError (Contexts × Blocks)
  | .nil => .ok (c, .nil)
  | .block conf inner rest => do
    let c ← c.ngxOtelSetGlobalContext prev
    let (c, inner) ← inner.merge c (prev.merge conf)
    let (c, rest) ← rest.merge c prev
    .ok (c, .block (prev.merge conf) inner rest)

/-- Loading the http block: the contexts, and the configurations of its servers. -/
def load (before : Contexts) (http : Items) : Except LoadError (Contexts × Blocks) := do
  let (c, conf, servers) ← http.read before .create
  servers.merge c conf

/-- The configurations that a request can have. -/
def Blocks.toList : Blocks → List LocConf
  | .nil => []
  | .block conf inner rest => conf :: (inner.toList ++ rest.toList)

/-! ### What is stored -/

/-- The configuration of a block after what is in it was read. -/
def Items.conf (conf : LocConf) : Items → LocConf
  | .nil => conf
  | .directive d rest => rest.conf (d.set conf)
  | .block _ rest => rest.conf conf

/-- The blocks in a block, before they are merged. -/
def Items.blocks : Items → Blocks
  | .nil => .nil
  | .directive _ rest => rest.blocks
  | .block items rest => .block (items.conf .create) items.blocks rest.blocks

/-- The contexts of the directives, in the order of the file. -/
def Items.contexts : Items → List Triple
  | .nil => []
  | .directive d rest => d.context?.toList ++ rest.contexts
  | .block items rest => items.contexts ++ rest.contexts

/-- The triple of the first block around another one of which all was given. -/
def Blocks.globalContext (prev : LocConf) : Blocks → Option Triple
  | .nil => none
  | .block conf inner rest =>
    if prev.tripleSet then some prev.triple
    else (inner.globalContext (prev.merge conf)).or (rest.globalContext prev)

/-- All contexts that loading stores; that of a block around others only once in a process. -/
def stores (before : Contexts) (http : Items) : List Triple :=
  http.contexts ++
    if before.isGlobalContextSet then []
    else (http.blocks.globalContext (http.conf .create)).toList

/-- The merged configurations of blocks and of the blocks in them. -/
def Blocks.merged (prev : LocConf) : Blocks → Blocks
  | .nil => .nil
  | .block conf inner rest =>
    .block (prev.merge conf) (inner.merged (prev.merge conf)) (rest.merged prev)

section

variable {ε α β : Type}

theorem bind_eq_ok {x : Except ε α} {f : α → Except ε β} {b : β} :
    x >>= f = .ok b ↔ ∃ a, x = .ok a ∧ f a = .ok b := by
  cases x with
  | error e => simp [bind, Except.bind]
  | ok a => simp [bind, Except.bind]

theorem bind_eq_error {x : Except ε α} {f : α → Except ε β} {e : ε} :
    x >>= f = .error e ↔ x = .error e ∨ ∃ a, x = .ok a ∧ f a = .error e := by
  cases x with
  | error e => simp [bind, Except.bind]
  | ok a => simp [bind, Except.bind]

theorem map_eq_ok {x : Except ε α} {f : α → β} {b : β} :
    x.map f = .ok b ↔ ∃ a, x = .ok a ∧ f a = b := by
  cases x with
  | error e => simp [Except.map]
  | ok a => simp [Except.map]

theorem map_eq_error {x : Except ε α} {f : α → β} {e : ε} : x.map f = .error e ↔ x = .error e := by
  cases x with
  | error e => simp [Except.map]
  | ok a => simp [Except.map]

end

variable {c c' : Contexts} {prev conf conf' : LocConf} {items http : Items}
    {blocks blocks' : Blocks}

theorem store_ok {t : Triple} (h : c.store t = .ok c') :
    c'.contexts = c.contexts ++ [t] ∧ c'.isGlobalContextSet = c.isGlobalContextSet := by
  rw [Contexts.store] at h
  split at h
  next =>
    obtain rfl := Except.ok.inj h
    exact ⟨rfl, rfl⟩
  next => cases h

theorem store_outsideArray {t : Triple} {e : LoadError} (h : c.store t = .error e) :
    MAX_CONTEXTS ≤ c.contexts.length := by
  rw [Contexts.store] at h
  split at h
  next => cases h
  next hle => exact Nat.not_lt.mp hle

theorem ngxOtelContextSet_ok {d : Directive} (h : c.ngxOtelContextSet d = .ok c') :
    c'.contexts = c.contexts ++ d.context?.toList ∧
      c'.isGlobalContextSet = c.isGlobalContextSet := by
  rw [Contexts.ngxOtelContextSet] at h
  split at h
  next t ht =>
    rw [ht]
    exact store_ok h
  next hnone =>
    obtain rfl := Except.ok.inj h
    rw [hnone, Option.toList_none, List.append_nil]
    exact ⟨rfl, rfl⟩

/-- Reading stores the contexts of the directives. -/
theorem read_ok (h : items.read c conf = .ok (c', conf', blocks)) :
    (c'.contexts = c.contexts ++ items.contexts ∧
        c'.isGlobalContextSet = c.isGlobalContextSet) ∧
      conf' = items.conf conf ∧ blocks = items.blocks := by
  induction items generalizing c conf c' conf' blocks with
  | nil =>
    cases h
    rw [Items.contexts, List.append_nil]
    exact ⟨⟨rfl, rfl⟩, rfl, rfl⟩
  | directive d rest ih =>
    rw [Items.read] at h
    split at h
    next => cases h
    next =>
      obtain ⟨c₁, hset, hrest⟩ := bind_eq_ok.mp h
      obtain ⟨hcontexts₁, hset₁⟩ := ngxOtelContextSet_ok hset
      obtain ⟨⟨hcontexts, hset⟩, rfl, rfl⟩ := ih hrest
      refine ⟨⟨?_, hset.trans hset₁⟩, rfl, rfl⟩
      rw [hcontexts, hcontexts₁, Items.contexts, List.append_assoc]
  | block items rest ihitems ihrest =>
    rw [Items.read] at h
    obtain ⟨⟨c₁, conf₁, inner⟩, hitems, h⟩ := bind_eq_ok.mp h
    obtain ⟨⟨c₂, conf₂, blocks₂⟩, hrest, h⟩ := bind_eq_ok.mp h
    obtain ⟨⟨hcontexts₁, hset₁⟩, rfl, rfl⟩ := ihitems hitems
    obtain ⟨⟨hcontexts₂, hset₂⟩, rfl, rfl⟩ := ihrest hrest
    cases h
    refine ⟨⟨?_, hset₂.trans hset₁⟩, rfl, rfl⟩
    rw [hcontexts₂, hcontexts₁, Items.contexts, List.append_assoc]

/-- Reading goes outside of the array only if there are too many contexts. -/
theorem read_outsideArray (h : items.read c conf = .error .outsideArray) :
    MAX_CONTEXTS < (c.contexts ++ items.contexts).length := by
  induction items generalizing c conf with
  | nil => cases h
  | directive d rest ih =>
    rw [Items.read] at h
    split at h
    next => cases h
    next =>
      rw [Items.contexts, ← List.append_assoc]
      rcases bind_eq_error.mp h with hset | ⟨c₁, hset, hrest⟩
      · rw [Contexts.ngxOtelContextSet] at hset
        split at hset
        next t ht =>
          have hle := store_outsideArray hset
          rw [ht, List.length_append, List.length_append]
          show MAX_CONTEXTS < c.contexts.length + 1 + _
          omega
        next => cases hset
      · rw [← (ngxOtelContextSet_ok hset).1]
        exact ih hrest
  | block items rest ihitems ihrest =>
    rw [Items.read] at h
    rw [Items.contexts, ← List.append_assoc, List.length_append]
    rcases bind_eq_error.mp h with hitems | ⟨⟨c₁, conf₁, inner⟩, hitems, h⟩
    · exact Nat.lt_of_lt_of_le (ihitems hitems) (Nat.le_add_right _ _)
    · rw [← (read_ok hitems).1.1, ← List.length_append]
      rcases bind_eq_error.mp h with hrest | ⟨_, _, h⟩
      · exact ihrest hrest
      · cases h

/-- Once it is set, merging only merges. -/
theorem merge_of_set (hset : c.isGlobalContextSet = true) (prev : LocConf) :
    blocks.merge c prev = .ok (c, blocks.merged prev) := by
  induction blocks generalizing prev with
  | nil => rfl
  | block conf inner rest ihinner ihrest =>
    rw [Blocks.merge, Contexts.ngxOtelSetGlobalContext, if_pos hset]
    dsimp only [bind, Except.bind]
    rw [ihinner]
    dsimp only
    rw [ihrest]
    rfl

/-- Merging stores the global context, if there is one. -/
theorem merge_of_unset (hunset : c.isGlobalContextSet = false) (prev : LocConf) :
    blocks.merge c prev =
      match blocks.globalContext prev with
      | none => .ok (c, blocks.merged prev)
      | some t => ({ c with isGlobalContextSet := true }.store t).map fun c =>
          (c, blocks.merged prev) := by
  induction blocks generalizing prev with
  | nil => rfl
  | block conf inner rest ihinner ihrest =>
    rw [Blocks.merge, Contexts.ngxOtelSetGlobalContext,
      if_neg (by rw [hunset]; exact Bool.false_ne_true), Blocks.globalContext]
    split
    next hprev =>
      -- stored here, and nothing more later
      dsimp only [bind, Except.bind]
      cases hstore : ({ c with isGlobalContextSet := true } : Contexts).store prev.triple with
      | error e => rfl
      | ok c₁ =>
        have hset : c₁.isGlobalContextSet = true := (store_ok hstore).2
        dsimp only
        rw [merge_of_set hset]
        dsimp only
        rw [merge_of_set hset]
        rfl
    next =>
      dsimp only [bind, Except.bind]
      rw [ihinner]
      cases inner.globalContext (prev.merge conf) with
      | none =>
        dsimp only
        rw [ihrest, Option.none_or]
        cases rest.globalContext prev with
        | none => rfl
        | some t =>
          dsimp only
          cases ({ c with isGlobalContextSet := true } : Contexts).store t with
          | error e => rfl
          | ok c₁ => rfl
      | some t =>
        rw [Option.some_or]
        dsimp only
        cases hstore : ({ c with isGlobalContextSet := true } : Contexts).store t with
        | error e => rfl
        | ok c₁ =>
          have hset : c₁.isGlobalContextSet = true := (store_ok hstore).2
          dsimp only [Except.map]
          rw [merge_of_set hset]
          rfl

/-- What merging the blocks that were read stores. -/
theorem merge_cases (prev : LocConf) :
    (blocks.merge c prev = .ok (c, blocks.merged prev) ∧
        (if c.isGlobalContextSet then [] else (blocks.globalContext prev).toList) = []) ∨
      ∃ t, (if c.isGlobalContextSet then [] else (blocks.globalContext prev).toList) = [t] ∧
        blocks.merge c prev = ({ c with isGlobalContextSet := true }.store t).map fun c =>
          (c, blocks.merged prev) := by
  by_cases hset : c.isGlobalContextSet = true
  · exact .inl ⟨merge_of_set hset prev, if_pos hset⟩
  · rw [merge_of_unset (Bool.eq_false_iff.mpr hset), if_neg hset]
    cases blocks.globalContext prev with
    | none => exact .inl ⟨rfl, rfl⟩
    | some t => exact .inr ⟨t, rfl, rfl⟩

/-- A configuration that is loaded fits the array, and the array holds what is stored. -/
theorem load_ok {before : Contexts} (h : load before http = .ok (c, blocks)) :
    c.contexts = before.contexts ++ stores before http ∧
      blocks = http.blocks.merged (http.conf .create) := by
  obtain ⟨⟨c₁, conf, servers⟩, hread, hmerge⟩ := bind_eq_ok.mp h
  obtain ⟨⟨hcontexts, hset⟩, rfl, rfl⟩ := read_ok hread
  dsimp only at hmerge
  rw [stores, ← hset, ← List.append_assoc, ← hcontexts]
  rcases merge_cases (http.conf .create) with ⟨hmerged, hnone⟩ | ⟨t, ht, hmerged⟩
  · rw [hmerged] at hmerge
    cases hmerge
    rw [hnone, List.append_nil]
    exact ⟨rfl, rfl⟩
  · rw [hmerged] at hmerge
    obtain ⟨c₂, hstore, hresult⟩ := map_eq_ok.mp hmerge
    cases hresult
    rw [ht]
    exact ⟨(store_ok hstore).1, rfl⟩

theorem load_outsideArray {before : Contexts} (h : load before http = .error .outsideArray) :
    MAX_CONTEXTS < (before.contexts ++ stores before http).length := by
  rw [stores, ← List.append_assoc, List.length_append]
  rcases bind_eq_error.mp h with hread | ⟨⟨c₁, conf, servers⟩, hread, hmerge⟩
  · exact Nat.lt_of_lt_of_le (read_outsideArray hread) (Nat.le_add_right _ _)
  · obtain ⟨⟨hcontexts, hset⟩, rfl, rfl⟩ := read_ok hread
    dsimp only at hmerge
    rw [← hset, ← hcontexts]
    rcases merge_cases (http.conf .create) with ⟨hmerged, -⟩ | ⟨t, ht, hmerged⟩
    · rw [hmerged] at hmerge
      cases hmerge
    · rw [hmerged] at hmerge
      rw [ht]
      have hfull := store_outsideArray (map_eq_error.mp hmerge)
      exact Nat.lt_succ_of_le hfull

end NginxWebserver

/-
Directives that the nginx module runs itself (`nginx_config.cpp`, `otel_ngx_module.cpp`).

`OtelNgxConfHandler` looks a directive up among the commands of all modules of nginx, and
`OtelNgxSetPropagation` runs the directives of a format through it, with the arguments of
`opentelemetry_propagate` put aside.  Commands are nginx's, with any effect.

* `otelNgxConfHandler_eq` — the first command with the name that is of the same part of nginx
  and may stand in the place decides, also when it refuses the directive;
* `set_propagation` — `opentelemetry_propagate` succeeds exactly when its format is known and
  `proxy_set_header` and `fastcgi_param` take two arguments in the place; then their arrays have
  the pairs of the format at their ends, and nothing else has changed but the format.
-/
import OtelContrib.Lib.EarlyReturn
import OtelContrib.Nginx.Upstream

open Otel Otel.Common
open EarlyReturn (search search_nil search_cons_of_pos search_cons_of_neg foldlM_search)

namespace Nginx

/-! ### Constants of nginx -/

def NGX_OK : ℤ := 0

def NGX_ERROR : ℤ := -1

def NGX_CONF_BLOCK_START : ℤ := 1

def NGX_CONF_NOARGS : ℕ := 0x1

def NGX_CONF_TAKE1 : ℕ := 0x2

def NGX_CONF_TAKE2 : ℕ := 0x4

def NGX_CONF_TAKE3 : ℕ := 0x8

def NGX_CONF_TAKE4 : ℕ := 0x10

def NGX_CONF_TAKE5 : ℕ := 0x20

def NGX_CONF_TAKE6 : ℕ := 0x40

def NGX_CONF_TAKE7 : ℕ := 0x80

def NGX_CONF_MAX_ARGS : ℕ := 8

def NGX_CONF_BLOCK : ℕ := 0x100

def NGX_CONF_FLAG : ℕ := 0x200

def NGX_CONF_ANY : ℕ := 0x400

def NGX_CONF_1MORE : ℕ := 0x800

def NGX_CONF_2MORE : ℕ := 0x1000

def NGX_DIRECT_CONF : ℕ := 0x10000

def NGX_MAIN_CONF : ℕ := 0x1000000

/-- The type of a module that may be used in every part of nginx, `"CONF"`. -/
def NGX_CONF_MODULE : ℕ := 0x464E4F43

def argument_number : List ℕ :=
  [NGX_CONF_NOARGS, NGX_CONF_TAKE1, NGX_CONF_TAKE2, NGX_CONF_TAKE3,
    NGX_CONF_TAKE4, NGX_CONF_TAKE5, NGX_CONF_TAKE6, NGX_CONF_TAKE7]

/-- Whether two sets of flags meet. -/
def has (type flags : ℕ) : Bool := type &&& flags ≠ 0

/-! ### Commands -/

/-- A `void* conf` that a command is given. -/
inductive ConfPointer
  | null
  | direct (index : ℕ)
  | main (index : ℕ)
  | element (confp ctx_index : ℕ)
  deriving DecidableEq

/-- An `OtelNgxLocationConf` before it is merged.  What is `none` is unset, and a regular
expression that is `some none` is null; without custom attributes there is no array. -/
structure LocationSettings where
  enabled : Option Bool
  trustIncomingSpans : Option Bool
  captureHeaders : Option Bool
  sensitiveHeaderNames : Option (Option Bytes)
  sensitiveHeaderValues : Option (Option Bytes)
  ignore_paths : Option (Option Bytes)
  propagationType : TracePropagationType
  operationNameScript : NgxCompiledScript
  customAttributes : Option (List CompiledScriptAttribute)

/-- What commands write: the configurations of locations, the array of pairs at an offset in a
configuration, and the rest. -/
structure ConfMemory (Rest : Type) where
  locConfs : ConfPointer → LocationSettings
  keyvals : ConfPointer → ℕ → Headers
  rest : Rest

/-- The place of a directive; `ctx` has the array of configurations at an offset, if there is
one. -/
structure NgxPlace where
  cmd_type : ℕ
  module_type : ℕ
  ctx : Option (ℕ → Option ℕ)

/-- `ngx_conf_t`, with the name of the directive as the first argument. -/
structure NgxConf (Rest : Type) extends NgxPlace where
  args : List Bytes
  log : List Bytes
  memory : ConfMemory Rest

/-- What a command returns. -/
inductive SetResult
  | NGX_CONF_OK | NGX_CONF_ERROR
  | text (rv : Bytes)
  deriving DecidableEq

structure NgxCommand (Rest : Type) where
  name : Bytes
  type : ℕ
  conf : ℕ
  offset : ℕ
  set : ConfPointer → NgxConf Rest → SetResult × NgxConf Rest

structure NgxModule (Rest : Type) where
  type : ℕ
  index : ℕ
  ctx_index : ℕ
  commands : Option (List (NgxCommand Rest))

section

variable {Rest : Type}

/-- An error of the configuration. -/
def NgxConf.fail (cf : NgxConf Rest) (text : Bytes) : ℤ × NgxConf Rest :=
  (NGX_ERROR, { cf with log := cf.log ++ [text] })

/-- `name`, which there is for every directive. -/
def NgxConf.name (cf : NgxConf Rest) : Bytes := cf.args.headD []

/-- Is the directive's argument count right? -/
def argsAllowed (type nelts : ℕ) : Bool :=
  if has type NGX_CONF_ANY then true
  else if has type NGX_CONF_FLAG then nelts = 2
  else if has type NGX_CONF_1MORE then 2 ≤ nelts
  else if has type NGX_CONF_2MORE then 3 ≤ nelts
  else if NGX_CONF_MAX_ARGS < nelts then false
  else has type (argument_number.getD (nelts - 1) 0)

/-- The directive's configuration context. -/
def NgxPlace.confPointer (place : NgxPlace) (module : NgxModule Rest) (cmd : NgxCommand Rest) :
    ConfPointer :=
  if has cmd.type NGX_DIRECT_CONF then .direct module.index
  else if has cmd.type NGX_MAIN_CONF then .main module.index
  else
    match place.ctx.bind fun ctx => ctx cmd.conf with
    | some confp => .element confp module.ctx_index
    | none => .null

/-- What the loop does with a command that it does not pass over: the function returns. -/
def runCommand (cf : NgxConf Rest) (last : ℤ) (module : NgxModule Rest) (cmd : NgxCommand Rest) :
    ℤ × NgxConf Rest :=
  let name := cString cf.name
  if ¬has cmd.type NGX_CONF_BLOCK ∧ last ≠ NGX_OK then
    cf.fail (ascii "directive \"" ++ name ++ ascii "\" is not terminated by \";\"")
  else if has cmd.type NGX_CONF_BLOCK ∧ last ≠ NGX_CONF_BLOCK_START then
    cf.fail (ascii "directive \"" ++ name ++ ascii "\" has no opening \"\x7b\"")
  else if ¬argsAllowed cmd.type cf.args.length then
    cf.fail (ascii "invalid number of arguments in \"" ++ name ++ ascii "\" directive")
  else
    match cmd.set (cf.confPointer module cmd) cf with
    | (.NGX_CONF_OK, cf) => (NGX_OK, cf)
    | (.NGX_CONF_ERROR, cf) => (NGX_ERROR, cf)
    | (.text rv, cf) => cf.fail (ascii "\"" ++ name ++ ascii "\" directive " ++ rv)

/-- The loop over the commands of a module with its `found`; an exception returns from the
function. -/
def commandLoop (cf : NgxConf Rest) (last : ℤ) (module : NgxModule Rest) :
    List (NgxCommand Rest) → Bool → Except (ℤ × NgxConf Rest) Bool
  | [], found => .ok found
  | cmd :: commands, found =>
    if cmd.name.length = 0 then .ok found
    else if cf.name.length ≠ cmd.name.length then commandLoop cf last module commands found
    else if cString cf.name ≠ cString cmd.name then commandLoop cf last module commands found
    else if module.type ≠ NGX_CONF_MODULE ∧ module.type ≠ cf.module_type then
      commandLoop cf last module commands true
    else if ¬has cmd.type cf.cmd_type then commandLoop cf last module commands true
    else .error (runCommand cf last module cmd)

/-- The commands of one module. -/
def moduleLoop (cf : NgxConf Rest) (last : ℤ) (found : Bool) (module : NgxModule Rest) :
    Except (ℤ × NgxConf Rest) Bool :=
  match module.commands with
  | none => .ok found
  | some commands => commandLoop cf last module commands found

def otelNgxConfHandler (modules : List (NgxModule Rest)) (cf : NgxConf Rest) (last : ℤ) :
    ℤ × NgxConf Rest :=
  match modules.foldlM (moduleLoop cf last) false with
  | .error result => result
  | .ok true => cf.fail (ascii "\"" ++ cString cf.name ++ ascii "\" directive is not allowed here")
  | .ok false => cf.fail (ascii "unknown directive \"" ++ cString cf.name ++ ascii "\"")

/-! ### `opentelemetry_propagate` -/

/-- The format that is asked for, and nothing if it is not supported. -/
def requestedType (args : List Bytes) : Option TracePropagationType :=
  if args.length = 2 then
    let propagationType := args.getD 1 []
    if propagationType = ascii "b3" then some .TracePropagationB3
    else if propagationType = ascii "b3multi" then some .TracePropagationB3Multi
    else if propagationType = ascii "w3c" then some .TracePropagationW3C
    else none
  else some .TracePropagationW3C

def HeaderPropagation.args (propagation : HeaderPropagation) : List Bytes :=
  [propagation.directive, propagation.parameter, propagation.variableName]

/-- The loop over the directives of a format, up to one that fails. -/
def propagationLoop (modules : List (NgxModule Rest)) :
    List HeaderPropagation → NgxConf Rest → SetResult × NgxConf Rest
  | [], conf => (.NGX_CONF_OK, conf)
  | propagation :: vars, conf =>
    match otelNgxConfHandler modules { conf with args := propagation.args } 0 with
    | (result, conf) =>
      if result ≠ NGX_OK then (.NGX_CONF_ERROR, conf) else propagationLoop modules vars conf

def ConfMemory.setLocConf (memory : ConfMemory Rest) (locConf : ConfPointer)
    (settings : LocationSettings) : ConfMemory Rest :=
  { memory with locConfs := Function.update memory.locConfs locConf settings }

def ConfMemory.setPropagationType (memory : ConfMemory Rest) (locConf : ConfPointer)
    (type : TracePropagationType) : ConfMemory Rest :=
  memory.setLocConf locConf { memory.locConfs locConf with propagationType := type }

def otelNgxSetPropagation (modules : List (NgxModule Rest)) (conf : NgxConf Rest)
    (locConf : ConfPointer) : SetResult × NgxConf Rest :=
  match requestedType conf.args with
  | none =>
    (.NGX_CONF_ERROR, { conf with log := conf.log ++ [ascii "Unsupported propagation type"] })
  | some type =>
    let oldArgs := conf.args
    let (result, conf) := propagationLoop modules (propagationVars type)
      { conf with memory := conf.memory.setPropagationType locConf type }
    (result, { conf with args := oldArgs })

/-! ### Which command decides -/

/-- The commands of a module up to the end of its table. -/
def NgxModule.table (module : NgxModule Rest) : List (NgxModule Rest × NgxCommand Rest) :=
  ((module.commands.getD []).takeWhile fun cmd => cmd.name.length ≠ 0).map fun cmd => (module, cmd)

/-- The commands of all modules. -/
def commandsOf (modules : List (NgxModule Rest)) : List (NgxModule Rest × NgxCommand Rest) :=
  modules.flatMap NgxModule.table

def named (name : Bytes) (entry : NgxModule Rest × NgxCommand Rest) : Bool :=
  name.length = entry.2.name.length ∧ cString name = cString entry.2.name

/-- Whether a command is one for a directive in a place. -/
def admits (place : NgxPlace) (name : Bytes) (entry : NgxModule Rest × NgxCommand Rest) : Bool :=
  named name entry ∧ (entry.1.type = NGX_CONF_MODULE ∨ entry.1.type = place.module_type) ∧
    has entry.2.type place.cmd_type

theorem commandLoop_eq (cf : NgxConf Rest) (last : ℤ) (module : NgxModule Rest)
    (commands : List (NgxCommand Rest)) (found : Bool) :
    commandLoop cf last module commands found =
      search (admits cf.toNgxPlace cf.name) (named cf.name)
        (fun entry => runCommand cf last entry.1 entry.2)
        ((commands.takeWhile fun cmd => cmd.name.length ≠ 0).map fun cmd => (module, cmd))
        found := by
  induction commands generalizing found with
  | nil => simp [commandLoop]
  | cons cmd commands ih =>
    rw [commandLoop]
    by_cases hend : cmd.name.length = 0
    · rw [if_pos hend, List.takeWhile_cons_of_neg (by simpa using hend), List.map_nil, search_nil]
    rw [if_neg hend, List.takeWhile_cons_of_pos (by simpa using hend), List.map_cons]
    by_cases hname : named cf.name (module, cmd) = true
    · obtain ⟨hlength, htext⟩ := of_decide_eq_true hname
      rw [if_neg (not_not_intro hlength), if_neg (not_not_intro htext)]
      by_cases hadmits : admits cf.toNgxPlace cf.name (module, cmd) = true
      · obtain ⟨-, htype, hplace⟩ := of_decide_eq_true hadmits
        rw [search_cons_of_pos hadmits, if_neg (by tauto), if_neg (not_not_intro hplace)]
      · rw [Bool.not_eq_true] at hadmits
        rw [search_cons_of_neg hadmits, hname, Bool.or_true, ih]
        have hrefused := of_decide_eq_false hadmits
        by_cases htype : module.type ≠ NGX_CONF_MODULE ∧ module.type ≠ cf.module_type
        · rw [if_pos htype]
        · rw [if_neg htype, if_pos (by tauto)]
    · have hadmits : admits cf.toNgxPlace cf.name (module, cmd) = false := by
        simp [admits, hname]
      rw [Bool.not_eq_true] at hname
      rw [search_cons_of_neg hadmits, hname, Bool.or_false, ih]
      have hother := of_decide_eq_false hname
      by_cases hlength : cf.name.length = cmd.name.length
      · rw [if_neg (not_not_intro hlength), if_pos (by tauto)]
      · rw [if_pos hlength]

/-- The first command for the directive in its place decides; the text of the error without one
tells whether there is a command with its name at all. -/
theorem otelNgxConfHandler_eq (modules : List (NgxModule Rest)) (cf : NgxConf Rest) (last : ℤ) :
    otelNgxConfHandler modules cf last =
      match (commandsOf modules).find? (admits cf.toNgxPlace cf.name) with
      | some entry => runCommand cf last entry.1 entry.2
      | none =>
        cf.fail (if (commandsOf modules).any (named cf.name) then
          ascii "\"" ++ cString cf.name ++ ascii "\" directive is not allowed here"
        else ascii "unknown directive \"" ++ cString cf.name ++ ascii "\"") := by
  have hloop : moduleLoop cf last = fun found module =>
      search (admits cf.toNgxPlace cf.name) (named cf.name)
        (fun entry => runCommand cf last entry.1 entry.2) module.table found := by
    funext found module
    rw [moduleLoop, NgxModule.table]
    cases module.commands with
    | none => simp
    | some commands => exact commandLoop_eq cf last module commands found
  rw [otelNgxConfHandler, hloop, foldlM_search, search, ← commandsOf]
  cases (commandsOf modules).find? (admits cf.toNgxPlace cf.name) with
  | some entry => rfl
  | none =>
    rw [Bool.false_or]
    cases (commandsOf modules).any (named cf.name) <;> rfl

/-! ### The directives of a format -/

/-- A pair at the end of the array in a slot, that is at an offset in a configuration. -/
def ConfMemory.push (memory : ConfMemory Rest) (slot : ConfPointer × ℕ) (pair : Bytes × Bytes) :
    ConfMemory Rest :=
  { memory with
    keyvals := fun conf offset =>
      memory.keyvals conf offset ++ if slot = (conf, offset) then [pair] else [] }

/-- What `proxy_set_header` and `fastcgi_param` are documented to do, with memory for it: their
two arguments are a new pair in an array of the configuration. -/
def AddsPair (cmd : NgxCommand Rest) : Prop :=
  ∀ pointer cf name key value, cf.args = [name, key, value] →
    cmd.set pointer cf =
      (.NGX_CONF_OK, { cf with memory := cf.memory.push (pointer, cmd.offset) (key, value) })

/-- The command that decides in a place, if it takes two arguments and a semicolon. -/
def takerOf (modules : List (NgxModule Rest)) (place : NgxPlace) (directive : Bytes) :
    Option (NgxModule Rest × NgxCommand Rest) :=
  ((commandsOf modules).find? (admits place directive)).filter fun entry =>
    ¬has entry.2.type NGX_CONF_BLOCK ∧ argsAllowed entry.2.type 3

/-- The array for a directive in a place. -/
def slotOf (modules : List (NgxModule Rest)) (place : NgxPlace) (directive : Bytes) :
    Option (ConfPointer × ℕ) :=
  (takerOf modules place directive).map fun entry =>
    (place.confPointer entry.1 entry.2, entry.2.offset)

/-- The commands that take a directive with two arguments here add them to an array. -/
def AddPairs (modules : List (NgxModule Rest)) (place : NgxPlace) : Prop :=
  ∀ directive ∈ [ascii "proxy_set_header", ascii "fastcgi_param"],
    ∀ entry, takerOf modules place directive = some entry → AddsPair entry.2

/-- What the directives of a format add to the array in a slot. -/
def pairsFor (slots : Bytes → Option (ConfPointer × ℕ)) (vars : List HeaderPropagation)
    (slot : ConfPointer × ℕ) : Headers :=
  (vars.filter fun var => slots var.directive = some slot).map fun var =>
    (var.parameter, var.variableName)

def ConfMemory.pushAll (memory : ConfMemory Rest) (slots : Bytes → Option (ConfPointer × ℕ))
    (vars : List HeaderPropagation) : ConfMemory Rest :=
  { memory with
    keyvals := fun conf offset =>
      memory.keyvals conf offset ++ pairsFor slots vars (conf, offset) }

theorem ConfMemory.pushAll_nil (memory : ConfMemory Rest)
    (slots : Bytes → Option (ConfPointer × ℕ)) : memory.pushAll slots [] = memory := by
  simp [ConfMemory.pushAll, pairsFor]

theorem ConfMemory.pushAll_cons (memory : ConfMemory Rest)
    {slots : Bytes → Option (ConfPointer × ℕ)} {var : HeaderPropagation}
    {slot : ConfPointer × ℕ} (hslot : slots var.directive = some slot)
    (vars : List HeaderPropagation) :
    memory.pushAll slots (var :: vars) =
      (memory.push slot (var.parameter, var.variableName)).pushAll slots vars := by
  have hkeyvals (conf : ConfPointer) (offset : ℕ) :
      pairsFor slots (var :: vars) (conf, offset) =
        (if slot = (conf, offset) then [(var.parameter, var.variableName)] else []) ++
          pairsFor slots vars (conf, offset) := by
    by_cases h : slot = (conf, offset)
    · simp [pairsFor, hslot, h]
    · simp [pairsFor, hslot, h]
  simp only [ConfMemory.pushAll, ConfMemory.push, hkeyvals, List.append_assoc]

theorem handler_of_taker {modules : List (NgxModule Rest)} (cf : NgxConf Rest)
    {directive key value : Bytes} {slot : ConfPointer × ℕ}
    (hslot : slotOf modules cf.toNgxPlace directive = some slot)
    (hadds : ∀ entry, takerOf modules cf.toNgxPlace directive = some entry → AddsPair entry.2)
    (hargs : cf.args = [directive, key, value]) :
    otelNgxConfHandler modules cf 0 =
      (NGX_OK, { cf with memory := cf.memory.push slot (key, value) }) := by
  obtain ⟨entry, htaker, rfl⟩ := Option.map_eq_some_iff.mp hslot
  obtain ⟨hfind, htakes⟩ := Option.filter_eq_some_iff.mp htaker
  obtain ⟨hblock, hallowed⟩ := of_decide_eq_true htakes
  have hname : cf.name = directive := by
    rw [NgxConf.name, hargs]
    rfl
  have hcount : cf.args.length = 3 := by
    rw [hargs]
    rfl
  rw [otelNgxConfHandler_eq, hname, hfind]
  show runCommand cf 0 entry.1 entry.2 = _
  rw [runCommand, if_neg (fun h => h.2 rfl), if_neg (fun h => hblock h.1), hcount,
    if_neg (not_not_intro hallowed), hadds entry htaker _ cf directive key value hargs]

theorem handler_of_no_taker {modules : List (NgxModule Rest)} (cf : NgxConf Rest)
    {directive key value : Bytes} (hslot : slotOf modules cf.toNgxPlace directive = none)
    (hargs : cf.args = [directive, key, value]) :
    ∃ text, otelNgxConfHandler modules cf 0 = cf.fail text := by
  have hname : cf.name = directive := by
    rw [NgxConf.name, hargs]
    rfl
  have hcount : cf.args.length = 3 := by
    rw [hargs]
    rfl
  rw [otelNgxConfHandler_eq, hname]
  cases hfind : (commandsOf modules).find? (admits cf.toNgxPlace directive) with
  | none => exact ⟨_, rfl⟩
  | some entry =>
    have hrefused := Option.map_eq_none_iff.mp hslot
    rw [takerOf, hfind, Option.filter_some, ite_eq_right_iff] at hrefused
    show ∃ text, runCommand cf 0 entry.1 entry.2 = _
    rw [runCommand, hcount]
    by_cases hblock : has entry.2.type NGX_CONF_BLOCK = true
    · rw [if_neg (fun h => h.1 hblock), if_pos ⟨hblock, by decide⟩]
      exact ⟨_, rfl⟩
    · rw [if_neg (fun h => h.2 rfl), if_neg (fun h => hblock h.1)]
      by_cases hallowed : argsAllowed entry.2.type 3 = true
      · exact absurd (hrefused (decide_eq_true ⟨hblock, hallowed⟩)) (Option.some_ne_none _)
      · rw [if_pos hallowed]
        exact ⟨_, rfl⟩

theorem propagationLoop_of_takers {modules : List (NgxModule Rest)} {vars : List HeaderPropagation}
    (cf : NgxConf Rest)
    (hadds : ∀ var ∈ vars, ∀ entry, takerOf modules cf.toNgxPlace var.directive = some entry →
      AddsPair entry.2)
    (htakers : ∀ var ∈ vars, ∃ slot, slotOf modules cf.toNgxPlace var.directive = some slot) :
    ∃ args, propagationLoop modules vars cf =
      (.NGX_CONF_OK,
        { cf with
          args := args
          memory := cf.memory.pushAll (slotOf modules cf.toNgxPlace) vars }) := by
  induction vars generalizing cf with
  | nil =>
    refine ⟨cf.args, ?_⟩
    rw [propagationLoop, ConfMemory.pushAll_nil]
  | cons var vars ih =>
    obtain ⟨slot, hslot⟩ := htakers var List.mem_cons_self
    have hrun := handler_of_taker { cf with args := var.args } hslot
      (hadds var List.mem_cons_self) rfl
    obtain ⟨args, hrest⟩ := ih
      { cf with
        args := var.args
        memory := cf.memory.push slot (var.parameter, var.variableName) }
      (fun var hvar => hadds var (List.mem_cons_of_mem _ hvar))
      (fun var hvar => htakers var (List.mem_cons_of_mem _ hvar))
    refine ⟨args, ?_⟩
    rw [propagationLoop, hrun]
    show (if NGX_OK ≠ NGX_OK then _ else _) = _
    rw [if_neg (not_not_intro rfl), ConfMemory.pushAll_cons _ hslot]
    exact hrest

theorem propagationLoop_of_no_taker {modules : List (NgxModule Rest)}
    {vars : List HeaderPropagation} (cf : NgxConf Rest)
    (hadds : ∀ var ∈ vars, ∀ entry, takerOf modules cf.toNgxPlace var.directive = some entry →
      AddsPair entry.2)
    {var : HeaderPropagation} (hvar : var ∈ vars)
    (hslot : slotOf modules cf.toNgxPlace var.directive = none) :
    (propagationLoop modules vars cf).1 = .NGX_CONF_ERROR := by
  induction vars generalizing cf with
  | nil => exact absurd hvar List.not_mem_nil
  | cons first vars ih =>
    rw [propagationLoop]
    cases hfirst : slotOf modules cf.toNgxPlace first.directive with
    | none =>
      obtain ⟨text, hrun⟩ := handler_of_no_taker { cf with args := first.args } hfirst rfl
      rw [hrun]
      exact congrArg Prod.fst (if_pos (by decide))
    | some slot =>
      have hrun := handler_of_taker { cf with args := first.args } hfirst
        (hadds first List.mem_cons_self) rfl
      have hlater : var ∈ vars := by
        refine (List.mem_cons.mp hvar).resolve_left fun heq => ?_
        rw [← heq, hslot] at hfirst
        exact absurd hfirst (by simp)
      rw [hrun]
      show (if NGX_OK ≠ NGX_OK then _ else propagationLoop modules vars _).1 = _
      rw [if_neg (not_not_intro rfl)]
      exact ih _ (fun var hvar => hadds var (List.mem_cons_of_mem _ hvar)) hlater hslot

/-- Each format has directives of both kinds, and no others. -/
theorem directive_propagationVars (type : TracePropagationType) (directive : Bytes) :
    (∃ var ∈ propagationVars type, var.directive = directive) ↔
      directive ∈ [ascii "proxy_set_header", ascii "fastcgi_param"] := by
  have hdirectives : directive ∈ (propagationVars type).map HeaderPropagation.directive ↔
      directive ∈ [ascii "proxy_set_header", ascii "fastcgi_param"] := by
    cases type <;>
      simp [propagationVars, b3PropagationVars, b3MultiPropagationVars, otelPropagationVars]
  rw [← hdirectives, List.mem_map]

/-- `opentelemetry_propagate` in any place, where the commands for the directives of a format do
what they are documented to do. -/
theorem set_propagation {modules : List (NgxModule Rest)} {conf : NgxConf Rest}
    (hadds : AddPairs modules conf.toNgxPlace) (locConf : ConfPointer) :
    ((otelNgxSetPropagation modules conf locConf).1 = .NGX_CONF_OK ↔
      requestedType conf.args ≠ none ∧
        slotOf modules conf.toNgxPlace (ascii "proxy_set_header") ≠ none ∧
        slotOf modules conf.toNgxPlace (ascii "fastcgi_param") ≠ none) ∧
    (otelNgxSetPropagation modules conf locConf).2.args = conf.args ∧
    ∀ type, requestedType conf.args = some type →
      (otelNgxSetPropagation modules conf locConf).1 = .NGX_CONF_OK →
        (otelNgxSetPropagation modules conf locConf).2 =
          { conf with
            memory := (conf.memory.setPropagationType locConf type).pushAll
              (slotOf modules conf.toNgxPlace) (propagationVars type) } := by
  have hboth (type : TracePropagationType) : ∀ var ∈ propagationVars type, ∀ entry,
      takerOf modules conf.toNgxPlace var.directive = some entry → AddsPair entry.2 :=
    fun var hvar => hadds _ ((directive_propagationVars type _).mp ⟨var, hvar, rfl⟩)
  cases htype : requestedType conf.args with
  | none =>
    have hrun : otelNgxSetPropagation modules conf locConf =
        (.NGX_CONF_ERROR,
          { conf with log := conf.log ++ [ascii "Unsupported propagation type"] }) := by
      rw [otelNgxSetPropagation, htype]
    rw [hrun]
    refine ⟨⟨fun h => ?_, fun h => absurd rfl h.1⟩, rfl, fun type h => ?_⟩ <;> cases h
  | some type =>
    have hrun : otelNgxSetPropagation modules conf locConf =
        ((propagationLoop modules (propagationVars type)
            { conf with memory := conf.memory.setPropagationType locConf type }).1,
          { (propagationLoop modules (propagationVars type)
              { conf with memory := conf.memory.setPropagationType locConf type }).2 with
            args := conf.args }) := by
      rw [otelNgxSetPropagation, htype]
    rw [hrun]
    by_cases htakers : ∀ var ∈ propagationVars type,
        ∃ slot, slotOf modules conf.toNgxPlace var.directive = some slot
    · obtain ⟨args, hloop⟩ := propagationLoop_of_takers
        { conf with memory := conf.memory.setPropagationType locConf type } (hboth type) htakers
      rw [hloop]
      have hslot (directive : Bytes)
          (h : directive ∈ [ascii "proxy_set_header", ascii "fastcgi_param"]) :
          slotOf modules conf.toNgxPlace directive ≠ none := by
        obtain ⟨var, hvar, rfl⟩ := (directive_propagationVars type directive).mpr h
        obtain ⟨slot, hslot⟩ := htakers var hvar
        rw [hslot]
        exact Option.some_ne_none _
      refine ⟨⟨fun _ => ⟨Option.some_ne_none _, hslot _ (by simp), hslot _ (by simp)⟩,
        fun _ => rfl⟩, rfl, fun type' htype' _ => ?_⟩
      rw [← Option.some.inj htype']
    · simp only [not_forall] at htakers
      obtain ⟨var, hvar, hnone⟩ := htakers
      have hslot : slotOf modules conf.toNgxPlace var.directive = none := by
        rw [Option.eq_none_iff_forall_not_mem]
        exact fun slot hslot => hnone ⟨slot, hslot⟩
      have herror := propagationLoop_of_no_taker
        { conf with memory := conf.memory.setPropagationType locConf type } (hboth type) hvar hslot
      rw [herror]
      refine ⟨⟨fun h => ?_, fun h => ?_⟩, rfl, fun type' _ h => ?_⟩
      · cases h
      · have hdirective := (directive_propagationVars type var.directive).mp ⟨var, hvar, rfl⟩
        rcases List.mem_cons.mp hdirective with heq | heq
        · exact absurd (heq ▸ hslot) h.2.1
        · exact absurd (List.mem_singleton.mp heq ▸ hslot) h.2.2
      · cases h

end

def NGX_HTTP_MODULE : ℕ := 0x50545448

/-- A command as `AddsPair` documents it. -/
def addPair (offset : ℕ) (pointer : ConfPointer) (cf : NgxConf Unit) : SetResult × NgxConf Unit :=
  match cf.args with
  | [_, key, value] =>
    (.NGX_CONF_OK, { cf with memory := cf.memory.push (pointer, offset) (key, value) })
  | _ => (.NGX_CONF_ERROR, cf)

/-- Two of nginx's modules, each with a command for all places in `http` and an end of its table. -/
def sampleModules : List (NgxModule Unit) :=
  [⟨NGX_HTTP_MODULE, 5, 0, none⟩,
    ⟨NGX_HTTP_MODULE, 6, 1, some
      [⟨ascii "proxy_set_header", 0xE000004, 16, 8, addPair 8⟩, ⟨[], 0, 0, 0, addPair 0⟩]⟩,
    ⟨NGX_HTTP_MODULE, 7, 2, some
      [⟨ascii "fastcgi_param", 0xE00000C, 16, 24, addPair 24⟩, ⟨[], 0, 0, 0, addPair 0⟩]⟩]

/-- The place of a directive in the location whose configurations are in an array. -/
def samplePlace (confp : ℕ) : NgxPlace :=
  ⟨0x8000000, NGX_HTTP_MODULE, some fun offset => if offset = 16 then some confp else none⟩

theorem sampleModules_addPairs (place : NgxPlace) : AddPairs sampleModules place := by
  intro directive _ entry htaker
  obtain ⟨hfind, -⟩ := Option.filter_eq_some_iff.mp htaker
  have hadds (name : Bytes) (type offset : ℕ) :
      AddsPair ⟨name, type, 16, offset, addPair offset⟩ := by
    intro pointer cf name key value hargs
    simp only [addPair, hargs]
  have hmem := List.mem_of_find?_eq_some hfind
  rw [show commandsOf sampleModules =
    [(⟨NGX_HTTP_MODULE, 6, 1, _⟩, ⟨ascii "proxy_set_header", 0xE000004, 16, 8, addPair 8⟩),
      (⟨NGX_HTTP_MODULE, 7, 2, _⟩, ⟨ascii "fastcgi_param", 0xE00000C, 16, 24, addPair 24⟩)]
    from rfl] at hmem
  simp only [List.mem_cons, List.not_mem_nil, or_false] at hmem
  rcases hmem with rfl | rfl
  · exact hadds _ _ _
  · exact hadds _ _ _

end Nginx

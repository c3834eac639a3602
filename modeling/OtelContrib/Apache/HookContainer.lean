/-
The hooks that the module puts around the hooks of other modules.

Apache keeps pointers to the module lists of the container's entries and reads them when it
sorts the hooks.  An entry is built as a temporary, whose list points into its own string,
and then moved into a pair and from there into the map.

* `addHook_spec` — a new entry points into its own string exactly when its module's name
  does not lie in the string object;
* `stage_hooks_iff` — after any run over different stages each hook is put next to its
  module, and each entry points into itself, exactly when all these names are so long.
-/
import OtelContrib.Lib.StringObject
import OtelContrib.Lib.Text
import Mathlib.Data.Int.Notation
import Mathlib.Data.List.Basic
import Mathlib.Data.List.Nodup
import Mathlib.Tactic.Set

open StringObject (Memory Str Place construct destroy construct_text construct_frame
  construct_inside construct_wellFormed move_text move_frame move_next move_address
  move_data_ne move_move_data_eq_iff move_wellFormed destroy_frame)

namespace Apache

/-! ### Hooks of other modules -/

/-- What an entry of Apache's array of hooks says of a hook. -/
structure HookStruct where
  szName : Bytes
  nOrder : ℤ
  deriving DecidableEq

namespace ExcludedModules

/-- The module itself. -/
def excludedAlways : List Bytes := [ascii "mod_apache_otel.cpp"]

/-- For Apache 2.4. -/
def excluded24 : List Bytes :=
  ["core.c", "http_core.c", "mod_access_compat.c", "mod_actions.c", "mod_alias.c",
    "mod_allowmethods.c", "mod_auth_basic.c", "mod_auth_digest.c", "mod_authn_anon.c",
    "mod_authn_core.c", "mod_authn_dbd.c", "mod_authn_dbm.c", "mod_authn_file.c",
    "mod_authn_socache.c", "mod_authz_core.c", "mod_authz_dbd.c", "mod_authz_dbm.c",
    "mod_authz_groupfile.c", "mod_authz_host.c", "mod_authz_owner.c", "mod_authz_user.c",
    "mod_autoindex.c", "mod_cache.c", "mod_cache_disk.c", "mod_cgi.c", "mod_data.c", "mod_dbd.c",
    "mod_deflate.c", "mod_dir.c", "mod_dumpio.c", "mod_echo.c", "mod_env.c", "mod_expires.c",
    "mod_ext_filter.c", "mod_filter.c", "mod_headers.c", "mod_include.c", "mod_info.c",
    "mod_lbmethod_bybusyness.c", "mod_lbmethod_byrequests.c", "mod_lbmethod_bytraffic.c",
    "mod_lbmethod_heartbeat.c", "mod_log_config.c", "mod_logio.c", "mod_lua.c", "mod_mime.c",
    "mod_mime_magic.c", "mod_negotiation.c", "mod_remoteip.c", "mod_reqtimeout.c", "mod_rewrite.c",
    "mod_setenvif.c", "mod_slotmem_plain.c", "mod_slotmem_shm.c", "mod_so.c", "mod_socache_dbm.c",
    "mod_socache_memcache.c", "mod_socache_shmcb.c", "mod_status.c", "mod_substitute.c",
    "mod_suexec.c", "mod_systemd.c", "mod_unique_id.c", "mod_unixd.c", "mod_userdir.c",
    "mod_version.c", "mod_vhost_alias.c", "prefork.c"].map ascii

def excluded22 : List Bytes :=
  ["core.c", "http_core.c", "mod_actions.c", "mod_alias.c", "mod_auth_basic.c", "mod_auth_digest.c",
    "mod_authn_alias.c", "mod_authn_anon.c", "mod_authn_dbm.c", "mod_authn_default.c",
    "mod_authn_file.c", "mod_authnz_ldap.c", "mod_authz_dbm.c", "mod_authz_default.c",
    "mod_authz_groupfile.c", "mod_authz_host.c", "mod_authz_owner.c", "mod_authz_user.c",
    "mod_autoindex.c", "mod_cache.c", "mod_cgi.c", "mod_deflate.c", "mod_dir.c", "mod_disk_cache.c",
    "mod_env.c", "mod_expires.c", "mod_ext_filter.c", "mod_file_cache.c", "mod_headers.c",
    "mod_include.c", "mod_info.c", "mod_log_config.c", "mod_logio.c", "mod_mem_cache.c",
    "mod_mime.c", "mod_mime_magic.c", "mod_negotiation.c", "mod_perl.c", "mod_python.c",
    "mod_rewrite.c", "mod_setenvif.c", "mod_so.c", "mod_speling.c", "mod_ssl.c", "mod_status.c",
    "mod_suexec.c", "mod_userdir.c", "mod_usertrack.c", "mod_version.c", "mod_vhost_alias.c",
    "prefork.c", "util_ldap.c"].map ascii

variable (userSpecified : List Bytes)

/-- The hooks of a stage that the module goes around; without any hook, `getHooks` gives `NULL`. -/
def findHookPoints (getHooks : Option (List HookStruct)) : List HookStruct :=
  (getHooks.getD []).filter fun hook =>
    hook.szName ∉ excludedAlways ∧
      (hook.szName ∈ userSpecified ∨ hook.szName ∉ excluded22 ∧ hook.szName ∉ excluded24)

end ExcludedModules

open ExcludedModules (findHookPoints)

/-! ### Stages -/

inductive Stage
  | headerParser | quickHandler | accessChecker | checkUserId | authChecker
  | typeChecker | fixups | insertFilter | handler | logTransaction
  deriving DecidableEq

/-- `otel_endpoint_indexes`, by the stage and from 1 on. -/
structure Endpoint where
  stage : Stage
  n : ℕ
  deriving DecidableEq

/-- The module's own handlers; `begin` is the handler that starts the interaction of an endpoint. -/
inductive Handler
  | begin (index : Endpoint)
  | interactionEnd
  | interactionEndHandler
  | interactionEndQuickHandler
  | interactionEndInsertFilter
  deriving DecidableEq

namespace Stage

def name : Stage → Bytes
  | .headerParser => ascii "header_parser"
  | .quickHandler => ascii "quick_handler"
  | .accessChecker => ascii "access_checker"
  | .checkUserId => ascii "check_user_id"
  | .authChecker => ascii "auth_checker"
  | .typeChecker => ascii "type_checker"
  | .fixups => ascii "fixups"
  | .insertFilter => ascii "insert_filter"
  | .handler => ascii "handler"
  | .logTransaction => ascii "log_transaction"

/-- The size of the stage's tables of handlers and of indexes. -/
def maxHooks : Stage → ℕ
  | .handler => 20
  | _ => 5

def indexes (stage : Stage) : List Endpoint :=
  (List.range stage.maxHooks).map fun i => ⟨stage, i + 1⟩

def endHandler : Stage → Handler
  | .quickHandler => .interactionEndQuickHandler
  | .insertFilter => .interactionEndInsertFilter
  | .handler => .interactionEndHandler
  | _ => .interactionEnd

end Stage

/-! ### The container -/

/-- `moduleList` is the first pointer of that array, the second one is `NULL`. -/
structure HookInfo where
  moduleList : Place
  stage : Bytes
  module : Str
  order : ℤ
  deriving DecidableEq

namespace HookInfo

variable (inObject : Bytes → Bool)

def new (m : Memory Bytes) (stage module : Bytes) (order : ℤ) : HookInfo × Memory Bytes :=
  let s := construct inObject m module
  (⟨s.1.data, stage, s.1, order⟩, s.2)

/-- The members are moved one by one, so the pointer is copied as it is. -/
def move (m : Memory Bytes) (hook : HookInfo) : HookInfo × Memory Bytes :=
  let s := StringObject.move [] m hook.module
  (⟨hook.moduleList, hook.stage, s.1, hook.order⟩, s.2)

end HookInfo

/-- A hook that was handed to Apache, with the entries whose module lists were passed for the
modules before and behind it. -/
structure Registration where
  stage : Stage
  handler : Handler
  aszPre : Option Endpoint
  aszSucc : Option Endpoint
  nOrder : ℤ
  deriving DecidableEq

/-- The container, the memory it lies in, and the hooks that were registered, oldest first. -/
structure Server where
  memory : Memory Bytes
  hooks : Endpoint → Option HookInfo
  registered : List Registration

namespace Server

variable (inObject : Bytes → Bool) (userSpecified : List Bytes)

def new (memory : Memory Bytes) : Server := ⟨memory, fun _ => none, []⟩

/-- A temporary is moved into a pair, and the pair into the map, which keeps an entry that it
has already. -/
def addHook (s : Server) (index : Endpoint) (stage module : Bytes) (order : ℤ) : Server :=
  let temporary := HookInfo.new inObject s.memory stage module order
  let pair := temporary.1.move temporary.2
  match s.hooks index with
  | some _ =>
    { s with memory := destroy (destroy pair.2 pair.1.module) temporary.1.module.movedFrom }
  | none =>
    let entry := pair.1.move pair.2
    { s with
      memory := destroy (destroy entry.2 pair.1.module.movedFrom) temporary.1.module.movedFrom
      hooks := Function.update s.hooks index (some entry.1) }

def getModuleList (s : Server) (index : Endpoint) : Option Endpoint :=
  if (s.hooks index).isSome then some index else none

/-- One hook of another module gets a handler before and one behind it. -/
def insertHook (s : Server) (index : Endpoint) (hook : HookStruct) : Server :=
  let s := s.addHook inObject index index.stage.name hook.szName hook.nOrder
  let moduleList := s.getModuleList index
  { s with
    registered := s.registered ++
      [⟨index.stage, .begin index, none, moduleList, hook.nOrder⟩,
        ⟨index.stage, index.stage.endHandler, moduleList, none, hook.nOrder⟩] }

/-- The loop over the hooks, with the indexes that are left. -/
def insertHooks (s : Server) : List HookStruct → List Endpoint → Server
  | [], _ => s
  | _ :: hooksNeeded, [] => s.insertHooks hooksNeeded []
  | hook :: hooksNeeded, index :: indexes =>
    (s.insertHook inObject index hook).insertHooks hooksNeeded indexes

end Server

/-- A stage, and the hooks that other modules have registered for it. -/
structure StageHooks where
  stage : Stage
  getModules : Option (List HookStruct)

namespace Server

variable (inObject : Bytes → Bool) (userSpecified : List Bytes)

def insertHooksForStage (s : Server) (call : StageHooks) : Server :=
  s.insertHooks inObject (findHookPoints userSpecified call.getModules) call.stage.indexes

/-- The stages one after the other. -/
def insertAll (s : Server) (calls : List StageHooks) : Server :=
  calls.foldl (insertHooksForStage inObject userSpecified) s

/-! ### What Apache reads -/

/-- The name that a module list gives; there is none where the pointer refers to no text. -/
def read (s : Server) (index : Endpoint) : Option Bytes :=
  (s.hooks index).bind fun entry => s.memory.text entry.moduleList

end Server

/-- A registered hook as Apache sorts it, with the name in each module list it was given. -/
structure Constraint where
  stage : Stage
  handler : Handler
  predecessors : Option (Option Bytes)
  successors : Option (Option Bytes)
  nOrder : ℤ
  deriving DecidableEq

def Registration.constraint (s : Server) (r : Registration) : Constraint :=
  ⟨r.stage, r.handler, r.aszPre.map s.read, r.aszSucc.map s.read, r.nOrder⟩

/-- A handler just before a module's hook and one just behind it. -/
def around (index : Endpoint) (hook : HookStruct) : List Constraint :=
  [⟨index.stage, .begin index, none, some (some hook.szName), hook.nOrder⟩,
    ⟨index.stage, index.stage.endHandler, some (some hook.szName), none, hook.nOrder⟩]

section

variable (userSpecified : List Bytes)

/-- The hooks of a stage that get handlers, with the endpoints these have. -/
def instrumented (call : StageHooks) : List (Endpoint × HookStruct) :=
  call.stage.indexes.zip (findHookPoints userSpecified call.getModules)

/-- The hooks are around the right modules, and every entry points into its own string. -/
structure Server.NamesModules (s : Server) (calls : List StageHooks) : Prop where
  registered : s.registered.map (Registration.constraint s) =
    (calls.flatMap (instrumented userSpecified)).flatMap fun p => around p.1 p.2
  own : ∀ index entry, s.hooks index = some entry → entry.moduleList = entry.module.data

end

/-! ### One entry -/

section

variable {inObject : Bytes → Bool} {s : Server} {index : Endpoint} {hook : HookStruct}

/-- An entry for a hook has the name of its module, which its list points to only where the
name does not lie in the string object. -/
structure Entry (inObject : Bytes → Bool) (m : Memory Bytes) (hook : HookStruct)
    (entry : HookInfo) : Prop where
  module_lt : entry.module.data.number < m.next
  module_text : m.text entry.module.data = some hook.szName
  own_iff : entry.moduleList = entry.module.data ↔ inObject hook.szName = false

/-- What was there stays as it is. -/
structure Keeps (m m' : Memory Bytes) : Prop where
  next_le : m.next ≤ m'.next
  frame : ∀ p : Place, p.number < m.next → m'.text p = m.text p

theorem Entry.keep {m m' : Memory Bytes} {entry : HookInfo} (h : Entry inObject m hook entry)
    (hkeeps : Keeps m m') : Entry inObject m' hook entry where
  module_lt := Nat.lt_of_lt_of_le h.module_lt hkeeps.next_le
  module_text := (hkeeps.frame _ h.module_lt).trans h.module_text
  own_iff := h.own_iff

theorem addHook_spec (stage : Bytes) (hindex : s.hooks index = none) :
    ∃ entry, (s.addHook inObject index stage hook.szName hook.nOrder).hooks =
        Function.update s.hooks index (some entry) ∧
      (s.addHook inObject index stage hook.szName hook.nOrder).registered = s.registered ∧
      Entry inObject (s.addHook inObject index stage hook.szName hook.nOrder).memory hook entry ∧
      Keeps s.memory (s.addHook inObject index stage hook.szName hook.nOrder).memory := by
  set temporary := construct inObject s.memory hook.szName with htemporary
  set pair := StringObject.move [] temporary.2 temporary.1 with hpair
  set entry := StringObject.move [] pair.2 pair.1 with hentry
  have hadd : s.addHook inObject index stage hook.szName hook.nOrder =
      { s with
        memory := destroy (destroy entry.2 pair.1.movedFrom) temporary.1.movedFrom
        hooks := Function.update s.hooks index
          (some ⟨temporary.1.data, stage, entry.1, hook.nOrder⟩) } := by
    rw [Server.addHook, hindex]
    rfl
  have hwell : temporary.1.WellFormed temporary.2 := construct_wellFormed
  have hwell' : pair.1.WellFormed pair.2 := move_wellFormed hwell
  have haddress : temporary.1.address = s.memory.next := rfl
  have haddress' : pair.1.address = s.memory.next + 1 := move_address
  have hnext : pair.2.next = s.memory.next + 2 := move_next
  -- the entry's text is in neither of the two objects that are gone
  have hne : entry.1.data ≠ temporary.1.movedFrom.data :=
    move_data_ne hwell' (by omega)
  have hne' : entry.1.data ≠ pair.1.movedFrom.data := move_data_ne hwell' (by omega)
  refine ⟨⟨temporary.1.data, stage, entry.1, hook.nOrder⟩, by rw [hadd], by rw [hadd],
    ?_, ?_⟩
  · rw [hadd]
    refine ⟨(move_wellFormed hwell').number_lt, ?_, ?_⟩
    · calc
        _ = entry.2.text entry.1.data := (destroy_frame hne).trans (destroy_frame hne')
        _ = pair.2.text pair.1.data := move_text hwell'
        _ = temporary.2.text temporary.1.data := move_text hwell
        _ = some hook.szName := construct_text
    · exact eq_comm.trans ((move_move_data_eq_iff hwell).trans
        ((not_congr construct_inside).trans (Bool.not_eq_true _).to_iff))
  · rw [hadd]
    refine ⟨?_, fun p hp => ?_⟩
    · have hlast : entry.2.next = pair.2.next + 1 := move_next
      show s.memory.next ≤ entry.2.next
      omega
    · have hold : ∀ n, s.memory.next ≤ n → p ≠ .object n := by
        intro n hn h
        subst h
        exact absurd hp (Nat.not_lt_of_le hn)
      calc
        _ = entry.2.text p :=
          (destroy_frame (hold _ (by omega))).trans (destroy_frame (hold _ (by omega)))
        _ = pair.2.text p := move_frame (by omega) (hold _ (by omega))
        _ = temporary.2.text p := move_frame (Nat.lt_succ_of_lt hp) (hold _ (by omega))
        _ = s.memory.text p := construct_frame hp

/-! ### Runs -/

/-- The two hooks that are registered for one of another module. -/
def hookRegistrations (index : Endpoint) (hook : HookStruct) : List Registration :=
  [⟨index.stage, .begin index, none, some index, hook.nOrder⟩,
    ⟨index.stage, index.stage.endHandler, some index, none, hook.nOrder⟩]

/-- What holds after the hooks of `added` got handlers. -/
structure Holds (inObject : Bytes → Bool) (s : Server) (added : List (Endpoint × HookStruct)) :
    Prop where
  entries : ∀ p ∈ added, ∃ entry, s.hooks p.1 = some entry ∧ Entry inObject s.memory p.2 entry
  known : ∀ index, index ∉ added.map Prod.fst → s.hooks index = none
  registered : s.registered = added.flatMap fun p => hookRegistrations p.1 p.2

variable {added : List (Endpoint × HookStruct)}

theorem holds_new (memory : Memory Bytes) : Holds inObject (.new memory) [] where
  entries := nofun
  known _ _ := rfl
  registered := rfl

theorem Holds.insertHook (h : Holds inObject s added) (hindex : index ∉ added.map Prod.fst)
    (hook : HookStruct) :
    Holds inObject (s.insertHook inObject index hook) (added ++ [(index, hook)]) := by
  obtain ⟨entry, hhooks, hregistered, hentry, hkeeps⟩ :=
    @addHook_spec inObject s index hook index.stage.name (h.known index hindex)
  have hlist : (s.addHook inObject index index.stage.name hook.szName hook.nOrder).getModuleList
      index = some index := by
    rw [Server.getModuleList, hhooks, Function.update_self]
    rfl
  refine ⟨?_, ?_, ?_⟩
  · intro p hp
    show ∃ entry, (s.addHook inObject index index.stage.name hook.szName hook.nOrder).hooks p.1 =
      some entry ∧ _
    rw [hhooks]
    rcases List.mem_append.mp hp with hp | hp
    · obtain ⟨old, hold, hentry'⟩ := h.entries p hp
      have hne : p.1 ≠ index := fun heq => hindex (heq ▸ List.mem_map_of_mem hp)
      exact ⟨old, (Function.update_of_ne hne _ _).trans hold, hentry'.keep hkeeps⟩
    · obtain rfl := List.mem_singleton.mp hp
      exact ⟨entry, Function.update_self _ _ _, hentry⟩
  · intro other hother
    rw [List.map_append, List.mem_append, not_or] at hother
    have hne : other ≠ index := fun heq => hother.2 (List.mem_singleton.mpr heq)
    show (s.addHook inObject index index.stage.name hook.szName hook.nOrder).hooks other = none
    rw [hhooks, Function.update_of_ne hne]
    exact h.known other hother.1
  · rw [Server.insertHook, hlist, hregistered, h.registered, List.flatMap_append]
    rfl

theorem Holds.insertHooks (h : Holds inObject s added) (hooksNeeded : List HookStruct)
    {indexes : List Endpoint} (hnew : ∀ index ∈ indexes, index ∉ added.map Prod.fst)
    (hnodup : indexes.Nodup) :
    Holds inObject (s.insertHooks inObject hooksNeeded indexes)
      (added ++ indexes.zip hooksNeeded) := by
  induction hooksNeeded generalizing s added indexes with
  | nil =>
    rw [List.zip_nil_right, List.append_nil]
    exact h
  | cons hook hooksNeeded ih =>
    cases indexes with
    | nil =>
      exact ih h (fun _ hmem => nomatch hmem) List.nodup_nil
    | cons index indexes =>
      rw [List.nodup_cons] at hnodup
      have hone := h.insertHook (hnew index List.mem_cons_self) hook
      have hrest := ih hone (fun other hother => ?_) hnodup.2
      · rw [List.append_assoc] at hrest
        exact hrest
      · rw [List.map_append, List.mem_append, not_or]
        refine ⟨hnew other (List.mem_cons_of_mem index hother), fun hmem => hnodup.1 ?_⟩
        have heq : other = index := List.mem_singleton.mp hmem
        exact heq ▸ hother

theorem nodup_indexes (stage : Stage) : stage.indexes.Nodup := by
  refine List.Nodup.map (fun i j hij => ?_) List.nodup_range
  exact Nat.succ.inj (congrArg Endpoint.n hij)

theorem stage_of_mem_indexes {stage : Stage} (h : index ∈ stage.indexes) :
    index.stage = stage := by
  obtain ⟨i, _, rfl⟩ := List.mem_map.mp h
  rfl

variable {userSpecified : List Bytes}

theorem stage_of_mem_instrumented {call : StageHooks} {p : Endpoint × HookStruct}
    (h : p ∈ instrumented userSpecified call) : p.1.stage = call.stage :=
  stage_of_mem_indexes (List.of_mem_zip h).1

theorem Holds.insertAll (h : Holds inObject s added) (calls : List StageHooks)
    (hnew : ∀ call ∈ calls, ∀ p ∈ added, p.1.stage ≠ call.stage)
    (hnodup : (calls.map StageHooks.stage).Nodup) :
    Holds inObject (s.insertAll inObject userSpecified calls)
      (added ++ calls.flatMap (instrumented userSpecified)) := by
  induction calls generalizing s added with
  | nil =>
    rw [List.flatMap_nil, List.append_nil]
    exact h
  | cons call calls ih =>
    rw [List.map_cons, List.nodup_cons] at hnodup
    have hstage := h.insertHooks (findHookPoints userSpecified call.getModules)
      (fun index hindex hmem => by
        obtain ⟨p, hp, rfl⟩ := List.mem_map.mp hmem
        exact hnew call List.mem_cons_self p hp (stage_of_mem_indexes hindex))
      (nodup_indexes call.stage)
    have hrest := ih hstage (fun call' hcall' p hp => ?_) hnodup.2
    · rw [List.append_assoc] at hrest
      exact hrest
    · rcases List.mem_append.mp hp with hp | hp
      · exact hnew call' (List.mem_cons_of_mem call hcall') p hp
      · intro heq
        refine hnodup.1 ?_
        rw [← stage_of_mem_instrumented hp, heq]
        exact List.mem_map_of_mem hcall'

theorem Holds.own_iff (h : Holds inObject s added) :
    (∀ index entry, s.hooks index = some entry → entry.moduleList = entry.module.data) ↔
      ∀ p ∈ added, inObject p.2.szName = false := by
  constructor
  · intro hown p hp
    obtain ⟨entry, hentry, hspec⟩ := h.entries p hp
    exact hspec.own_iff.mp (hown p.1 entry hentry)
  · intro hlong index entry hentry
    have hmem : index ∈ added.map Prod.fst := by
      by_contra hnot
      exact Option.some_ne_none entry (hentry.symm.trans (h.known index hnot))
    obtain ⟨p, hp, rfl⟩ := List.mem_map.mp hmem
    obtain ⟨entry', hentry', hspec⟩ := h.entries p hp
    obtain rfl := Option.some.inj (hentry.symm.trans hentry')
    exact hspec.own_iff.mpr (hlong p hp)

/-- Where the entries point into themselves, Apache reads the modules' names. -/
theorem Holds.constraints (h : Holds inObject s added)
    (hlong : ∀ p ∈ added, inObject p.2.szName = false) :
    s.registered.map (Registration.constraint s) = added.flatMap fun p => around p.1 p.2 := by
  rw [h.registered, List.map_flatMap]
  refine List.flatMap_congr fun p hp => ?_
  obtain ⟨entry, hentry, hspec⟩ := h.entries p hp
  have hread : s.read p.1 = some p.2.szName := by
    rw [Server.read, hentry, Option.bind_some, hspec.own_iff.mpr (hlong p hp)]
    exact hspec.module_text
  simp only [hookRegistrations, around, Registration.constraint, List.map_cons, List.map_nil,
    Option.map_some, Option.map_none, hread]

theorem map_snd_zip_take {α β : Type} (xs : List α) (ys : List β) :
    (xs.zip ys).map Prod.snd = ys.take xs.length := by
  induction xs generalizing ys with
  | nil => rfl
  | cons x xs ih =>
    cases ys with
    | nil => rfl
    | cons y ys => exact congrArg (y :: ·) (ih ys)

/-- The modules that get hooks: as many of those that are not excluded as the stage has handlers. -/
theorem map_snd_instrumented (call : StageHooks) :
    (instrumented userSpecified call).map Prod.snd =
      (findHookPoints userSpecified call.getModules).take call.stage.maxHooks := by
  rw [instrumented, map_snd_zip_take, Stage.indexes, List.length_map, List.length_range]

end

/-! ### Every module gets its own name -/

/-- A run over different stages puts the hooks around the right modules, with entries that point
into themselves, exactly when no name of these modules lies in a string object. -/
theorem stage_hooks_iff (inObject : Bytes → Bool) (userSpecified : List Bytes)
    (memory : Memory Bytes) {calls : List StageHooks}
    (hstages : (calls.map StageHooks.stage).Nodup) :
    (Server.insertAll inObject userSpecified (.new memory) calls).NamesModules userSpecified calls ↔
      ∀ call ∈ calls,
        ∀ hook ∈ (findHookPoints userSpecified call.getModules).take call.stage.maxHooks,
          inObject hook.szName = false := by
  have h : Holds inObject (Server.insertAll inObject userSpecified (.new memory) calls)
      ([] ++ calls.flatMap (instrumented userSpecified)) :=
    (holds_new memory).insertAll calls (fun _ _ _ hp => nomatch hp) hstages
  rw [List.nil_append] at h
  have hcond : (∀ p ∈ calls.flatMap (instrumented userSpecified), inObject p.2.szName = false) ↔
      ∀ call ∈ calls,
        ∀ hook ∈ (findHookPoints userSpecified call.getModules).take call.stage.maxHooks,
          inObject hook.szName = false := by
    simp only [← map_snd_instrumented, List.mem_map, List.mem_flatMap]
    constructor
    · rintro hall call hcall hook ⟨p, hp, rfl⟩
      exact hall p ⟨call, hcall, hp⟩
    · rintro hall p ⟨call, hcall, hp⟩
      exact hall call hcall p.2 ⟨p, hp, rfl⟩
  rw [← hcond]
  exact ⟨fun hnames => h.own_iff.mp hnames.own,
    fun hlong => ⟨h.constraints hlong, h.own_iff.mpr hlong⟩⟩

/-- Up to 15 characters lie in the string object. -/
def sampleInObject (text : Bytes) : Bool := text.length ≤ 15

def sampleCalls (szName : Bytes) : List StageHooks :=
  [⟨.fixups, none⟩, ⟨.handler, some [⟨ascii "core.c", 30⟩, ⟨szName, 10⟩]⟩]

theorem stage_hooks_sample :
    (Server.insertAll sampleInObject [] (.new ⟨fun _ => none, 0⟩)
      (sampleCalls (ascii "mod_proxy_balancer.c"))).NamesModules []
        (sampleCalls (ascii "mod_proxy_balancer.c")) :=
  (stage_hooks_iff sampleInObject [] ⟨fun _ => none, 0⟩ (by decide)).mpr (by decide +kernel)

/-- The module list for `mod_proxy.c` points to the string of a temporary that is gone. -/
theorem short_name_dangles :
    (Server.insertAll sampleInObject [] (.new ⟨fun _ => none, 0⟩)
      (sampleCalls (ascii "mod_proxy.c"))).read ⟨.handler, 1⟩ = none ∧
    ¬(Server.insertAll sampleInObject [] (.new ⟨fun _ => none, 0⟩)
      (sampleCalls (ascii "mod_proxy.c"))).NamesModules [] (sampleCalls (ascii "mod_proxy.c")) := by
  have hpoints : findHookPoints [] (some [⟨ascii "core.c", 30⟩, ⟨ascii "mod_proxy.c", 10⟩]) =
      [⟨ascii "mod_proxy.c", 10⟩] := by
    decide +kernel
  have hserver : Server.insertAll sampleInObject [] (.new ⟨fun _ => none, 0⟩)
      (sampleCalls (ascii "mod_proxy.c")) =
        Server.insertHook sampleInObject (.new ⟨fun _ => none, 0⟩) ⟨.handler, 1⟩
          ⟨ascii "mod_proxy.c", 10⟩ := by
    simp only [Server.insertAll, sampleCalls, List.foldl_cons, List.foldl_nil,
      Server.insertHooksForStage, hpoints]
    rfl
  rw [hserver]
  refine ⟨by decide +kernel, fun h => ?_⟩
  have hown := h.own ⟨.handler, 1⟩ _ rfl
  revert hown
  decide +kernel

end Apache

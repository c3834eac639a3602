/-
How the webserver module wraps the phase handlers of nginx
(`ngx_http_opentelemetry_init` and its table of monitored modules).

What the modules have pushed into the arrays of the phases is what it is when the hook
runs.  It is a postconfiguration hook itself and runs in its module's place, so that the
modules behind that one have pushed nothing yet.  An access outside of an array is
undefined, and `none` here.

* `Wrapped` — what the loop over the modules has done when some of its steps are done;
* `pipeline_iff` — the phases call what was registered, and every wrapper keeps the
  handler of its own module, exactly when the modules are `Aligned`.
-/
import OtelContrib.Lib.Text
import Mathlib.Data.List.Basic
import Mathlib.Data.List.Nodup
import Mathlib.Data.List.TakeWhile
import Mathlib.Logic.Function.Basic

namespace NginxWebserver

/-! ### The table -/

/-- `ngx_http_phases`. -/
inductive Phase
  | postRead | serverRewrite | findConfig | rewrite | postRewrite | preaccess | access | postAccess
  | precontent | content | log
  deriving DecidableEq

/-- `NGX_HTTP_INDEX`. -/
inductive NgxHttpIndex
  | realip | rewrite | limitConn | limitReq | limitAuthReq | authBasic | access | static
  | gzipStatic | dav | autoIndex | index | randomIndex | log | tryFiles | mirror
  deriving DecidableEq

namespace NgxHttpIndex

/-- The names in `otel_monitored_modules`. -/
def name : NgxHttpIndex → Bytes
  | realip => ascii "ngx_http_realip_module"
  | rewrite => ascii "ngx_http_rewrite_module"
  | limitConn => ascii "ngx_http_limit_conn_module"
  | limitReq => ascii "ngx_http_limit_req_module"
  | limitAuthReq => ascii "ngx_http_auth_request_module"
  | authBasic => ascii "ngx_http_auth_basic_module"
  | access => ascii "ngx_http_access_module"
  | static => ascii "ngx_http_static_module"
  | gzipStatic => ascii "ngx_http_gzip_static_module"
  | dav => ascii "ngx_http_dav_module"
  | autoIndex => ascii "ngx_http_autoindex_module"
  | index => ascii "ngx_http_index_module"
  | randomIndex => ascii "ngx_http_random_index_module"
  | log => ascii "ngx_http_log_module"
  | tryFiles => ascii "ngx_http_try_files_module"
  | mirror => ascii "ngx_http_mirror_module"

/-- The first `phase_count` of the phases; one that is not given is the first there is. -/
def ph : NgxHttpIndex → List Phase
  | realip => [.preaccess, .postRead]
  | rewrite => [.rewrite, .postRead]
  | limitConn | limitReq => [.preaccess]
  | limitAuthReq | authBasic | access => [.access]
  | static | gzipStatic | dav | autoIndex | index | randomIndex => [.content]
  | log => [.log]
  | tryFiles | mirror => [.precontent]

/-- `otel_monitored_modules`, in its order. -/
def monitoredModules : List NgxHttpIndex :=
  [realip, rewrite, limitConn, limitReq, limitAuthReq, authBasic, access, static, gzipStatic, dav,
    autoIndex, index, randomIndex, log, tryFiles, mirror]

end NgxHttpIndex

/-- `isOTelMonitored`. -/
def isOTelMonitored (str : Bytes) : Option NgxHttpIndex :=
  NgxHttpIndex.monitoredModules.find? fun i => i.name = str

/-! ### Modules and handlers -/

/-- A module, and the handlers that it has pushed. -/
structure NgxModule (H : Type) where
  name : Bytes
  isHttp : Bool
  pushed : List (Phase × H)

/-- The modules in their order, all with names of their own. -/
structure ModuleOrder (H : Type) where
  modules : List (NgxModule H)
  nodup : (modules.map NgxModule.name).Nodup

/-- What is in a place of an array. -/
inductive Slot (H : Type)
  | original (handler : H)
  | wrapper (i : NgxHttpIndex)

/-- The arrays of the phases, the saved handlers, and the counters of the loop. -/
structure Handlers (H : Type) where
  elts : Phase → List (Slot H)
  h : NgxHttpIndex → Option (Slot H)
  counter : Phase → ℕ

variable {H : Type}

/-- The handlers of a phase, with the modules they are of. -/
def registered (order : ModuleOrder H) (p : Phase) : List (Bytes × H) :=
  order.modules.flatMap fun m => m.pushed.filterMap fun e =>
    if e.1 = p then some (m.name, e.2) else none

namespace Handlers

def new (order : ModuleOrder H) : Handlers H :=
  ⟨fun p => (registered order p).map fun e => .original e.2, fun _ => none, fun _ => 0⟩

/-- One of the cases of the loop: the handler that is counted is saved, and the wrapper
takes a place. -/
def replace (s : Handlers H) (i : NgxHttpIndex) (p : Phase) (place : ℕ) : Option (Handlers H) :=
  match (s.elts p)[s.counter p]? with
  | none => some s
  | some handler =>
    if place < (s.elts p).length then
      some
        { elts := Function.update s.elts p ((s.elts p).set place (.wrapper i))
          h := Function.update s.h i (some handler)
          counter := Function.update s.counter p (s.counter p + 1) }
    else none

/-- The cases; the one for the log phase has the counter of the content phase for the
place of the wrapper. -/
def wrapPhase (s : Handlers H) (i : NgxHttpIndex) : Phase → Option (Handlers H)
  | .findConfig | .postRewrite | .postAccess => some s
  | .log => s.replace i .log (s.counter .content)
  | p => s.replace i p (s.counter p)

/-- The handler that a place leads to. -/
def call (s : Handlers H) : Slot H → Option H
  | .original handler => some handler
  | .wrapper i =>
    match s.h i with
    | some (.original handler) => some handler
    | _ => none

end Handlers

/-- `ngx_http_opentelemetry_init`. -/
def ngxHttpOpentelemetryInit (order : ModuleOrder H) : Option (Handlers H) :=
  order.modules.foldlM
    (fun s m =>
      if m.isHttp then
        match isOTelMonitored m.name with
        | some i => i.ph.foldlM (fun s p => s.wrapPhase i p) s
        | none => some s
      else some s)
    (Handlers.new order)

/-! ### The steps of the loop -/

/-- The monitored modules, in the order of the modules. -/
def monitoredIndices (order : ModuleOrder H) : List NgxHttpIndex :=
  order.modules.filterMap fun m => if m.isHttp then isOTelMonitored m.name else none

/-- The modules with their phases. -/
def steps (order : ModuleOrder H) : List (NgxHttpIndex × Phase) :=
  (monitoredIndices order).flatMap fun i => i.ph.map fun p => (i, p)

/-- The modules that have a phase in some steps. -/
def wrappers (done : List (NgxHttpIndex × Phase)) (p : Phase) : List NgxHttpIndex :=
  done.filterMap fun e => if e.2 = p then some e.1 else none

/-- How many handlers of the content phase are wrapped before the log phase. -/
def contentBefore (order : ModuleOrder H) (done : List (NgxHttpIndex × Phase)) : ℕ :=
  min (wrappers (done.takeWhile fun e => e.2 ≠ .log) .content).length
    (registered order .content).length

/-- Handlers, the first ones of them wrapped. -/
def wrapFirst : List (Bytes × H) → List NgxHttpIndex → List (Slot H)
  | [], _ => []
  | e :: handlers, [] => .original e.2 :: wrapFirst handlers []
  | _ :: handlers, i :: is => .wrapper i :: wrapFirst handlers is

theorem init_eq (order : ModuleOrder H) :
    ngxHttpOpentelemetryInit order =
      (steps order).foldlM (fun s e => s.wrapPhase e.1 e.2) (Handlers.new order) := by
  rw [ngxHttpOpentelemetryInit, steps, monitoredIndices]
  generalize Handlers.new order = s
  induction order.modules generalizing s with
  | nil => rfl
  | cons m modules ih =>
    rw [List.foldlM_cons, List.filterMap_cons]
    cases m.isHttp with
    | false =>
      rw [if_neg Bool.false_ne_true, if_neg Bool.false_ne_true]
      exact ih s
    | true =>
      rw [if_pos rfl, if_pos rfl]
      cases isOTelMonitored m.name with
      | none => exact ih s
      | some i =>
        dsimp only
        rw [List.flatMap_cons, List.foldlM_append, List.foldlM_map]
        exact congrArg _ (funext fun s => ih s)

theorem wrapFirst_nil (handlers : List (Bytes × H)) :
    wrapFirst handlers [] = handlers.map fun e => .original e.2 := by
  induction handlers with
  | nil => rfl
  | cons e handlers ih => exact congrArg _ ih

theorem length_wrapFirst (handlers : List (Bytes × H)) (is : List NgxHttpIndex) :
    (wrapFirst handlers is).length = handlers.length := by
  induction handlers generalizing is with
  | nil => rfl
  | cons e handlers ih =>
    cases is with
    | nil => exact congrArg _ (ih [])
    | cons i is => exact congrArg _ (ih is)

theorem getElem?_wrapFirst (handlers : List (Bytes × H)) (is : List NgxHttpIndex) (k : ℕ) :
    (wrapFirst handlers is)[k]? = handlers[k]?.map fun e =>
      match is[k]? with
      | some i => .wrapper i
      | none => .original e.2 := by
  induction handlers generalizing is k with
  | nil => rfl
  | cons e handlers ih =>
    cases is with
    | nil =>
      cases k with
      | zero => rfl
      | succ k => exact ih [] k
    | cons i is =>
      cases k with
      | zero => rfl
      | succ k => exact ih is k

/-- Wrapping the next one; when all are wrapped nothing changes. -/
theorem set_wrapFirst (handlers : List (Bytes × H)) (is : List NgxHttpIndex) (i : NgxHttpIndex) :
    (wrapFirst handlers is).set is.length (.wrapper i) = wrapFirst handlers (is ++ [i]) := by
  induction handlers generalizing is with
  | nil => rfl
  | cons e handlers ih =>
    cases is with
    | nil => rfl
    | cons i' is => exact congrArg _ (ih is)

/-! ### What the loop has done -/

/-- The handlers after some steps.  In every phase but the log phase the first ones are
wrapped, and a saved handler is one of those that were counted for its module. -/
structure Wrapped (order : ModuleOrder H) (done : List (NgxHttpIndex × Phase)) (s : Handlers H) :
    Prop where
  elts : ∀ p, p ≠ .log → s.elts p = wrapFirst (registered order p) (wrappers done p)
  log : s.elts .log =
    if wrappers done .log = [] then wrapFirst (registered order .log) []
    else (wrapFirst (registered order .log) []).set (contentBefore order done) (.wrapper .log)
  inside : wrappers done .log ≠ [] → registered order .log ≠ [] →
    contentBefore order done < (registered order .log).length
  counter : ∀ p, s.counter p = min (wrappers done p).length (registered order p).length
  saved : ∀ i slot, s.h i = some slot → ∃ (p : Phase) (k : ℕ) (e : Bytes × H),
    (wrappers done p)[k]? = some i ∧ (registered order p)[k]? = some e ∧ slot = .original e.2
  present : ∀ (p : Phase) (k : ℕ) (i : NgxHttpIndex) (e : Bytes × H),
    (wrappers done p)[k]? = some i → (registered order p)[k]? = some e → s.h i ≠ none

theorem wrappers_append (done done' : List (NgxHttpIndex × Phase)) (p : Phase) :
    wrappers (done ++ done') p = wrappers done p ++ wrappers done' p :=
  List.filterMap_append

theorem wrappers_snoc_self (done : List (NgxHttpIndex × Phase)) (i : NgxHttpIndex) (p : Phase) :
    wrappers (done ++ [(i, p)]) p = wrappers done p ++ [i] := by
  rw [wrappers_append]
  exact congrArg _ (List.filterMap_cons_some (if_pos rfl))

theorem wrappers_snoc_of_ne (done : List (NgxHttpIndex × Phase)) (i : NgxHttpIndex) {p p' : Phase}
    (hne : p ≠ p') : wrappers (done ++ [(i, p)]) p' = wrappers done p' := by
  have hnone : wrappers [(i, p)] p' = [] := List.filterMap_cons_none (if_neg hne)
  rw [wrappers_append, hnone, List.append_nil]

/-- What is wrapped stays where it is. -/
theorem getElem?_wrappers_snoc {done : List (NgxHttpIndex × Phase)} {p : Phase} {k : ℕ}
    {i : NgxHttpIndex}
    (h : (wrappers done p)[k]? = some i) (e : NgxHttpIndex × Phase) :
    (wrappers (done ++ [e]) p)[k]? = some i := by
  rwa [wrappers_append, List.getElem?_append_left (List.getElem?_eq_some_iff.mp h).1]

theorem wrapped_new (order : ModuleOrder H) : Wrapped order [] (Handlers.new order) where
  elts p _ := (wrapFirst_nil _).symm
  log := (wrapFirst_nil _).symm
  inside h := absurd rfl h
  counter _ := (Nat.zero_min _).symm
  saved _ _ h := by cases h
  present _ _ _ _ h := by cases h

variable {order : ModuleOrder H} {done : List (NgxHttpIndex × Phase)} {s s' : Handlers H}
  {i : NgxHttpIndex} {p : Phase}

/-- The place that is counted, as long as there are handlers. -/
theorem Wrapped.counted (I : Wrapped order done s) (hlog : p = .log → wrappers done .log = []) :
    (s.elts p)[s.counter p]? =
      (registered order p)[(wrappers done p).length]?.map fun e => .original e.2 := by
  have helts : s.elts p = wrapFirst (registered order p) (wrappers done p) := by
    by_cases hp : p = .log
    · subst hp
      rw [I.log, hlog rfl, if_pos rfl]
    · exact I.elts p hp
  rw [helts, I.counter, getElem?_wrapFirst]
  rcases Nat.lt_or_ge (wrappers done p).length (registered order p).length with hlt | hge
  · rw [Nat.min_eq_left (Nat.le_of_lt hlt),
      List.getElem?_eq_none (l := wrappers done p) (Nat.le_refl _)]
  · rw [Nat.min_eq_right hge, List.getElem?_eq_none (Nat.le_refl _), List.getElem?_eq_none hge]
    rfl

theorem wrappers_log_eq_nil : wrappers done .log = [] ↔ ∀ e ∈ done, e.2 ≠ .log := by
  rw [wrappers, List.filterMap_eq_nil_iff]
  refine forall₂_congr fun e _ => ?_
  rw [ite_eq_right_iff]
  exact ⟨fun h hlog => Option.some_ne_none _ (h hlog), fun h hlog => absurd hlog h⟩

theorem contentBefore_log (hnone : wrappers done .log = []) (i : NgxHttpIndex) :
    contentBefore order (done ++ [(i, .log)]) =
      min (wrappers done .content).length (registered order .content).length := by
  have hall : ∀ e ∈ done, decide (e.2 ≠ .log) = true := fun e he =>
    decide_eq_true (wrappers_log_eq_nil.mp hnone e he)
  rw [contentBefore, List.takeWhile_append_of_pos hall]
  exact congrArg (fun l => min (wrappers l .content).length _) (List.append_nil done)

theorem contentBefore_logged (hlogged : wrappers done .log ≠ [])
    (rest : List (NgxHttpIndex × Phase)) :
    contentBefore order (done ++ rest) = contentBefore order done := by
  rw [contentBefore, contentBefore, List.takeWhile_append, if_neg]
  intro hlength
  have hall := List.takeWhile_eq_self_iff.mp ((List.takeWhile_prefix _).eq_of_length hlength)
  exact hlogged (wrappers_log_eq_nil.mpr fun e he => of_decide_eq_true (hall e he))

theorem wrapPhase_eq (hp : p ∈ i.ph) (s : Handlers H) :
    s.wrapPhase i p = s.replace i p (if p = .log then s.counter .content else s.counter p) := by
  cases p with
  | findConfig | postRewrite | postAccess => cases i <;> simp [NgxHttpIndex.ph] at hp
  | _ => rfl

/-- Only the log module has the log phase. -/
theorem eq_log (hp : .log ∈ i.ph) : i = .log := by
  cases i <;> simp [NgxHttpIndex.ph] at hp ⊢

/-- A step of another phase does not concern the log phase. -/
theorem Wrapped.log_frame (I : Wrapped order done s) (hne : p ≠ .log) (i : NgxHttpIndex) :
    (s.elts .log =
      if wrappers (done ++ [(i, p)]) .log = [] then wrapFirst (registered order .log) []
      else (wrapFirst (registered order .log) []).set (contentBefore order (done ++ [(i, p)]))
        (.wrapper .log)) ∧
      (wrappers (done ++ [(i, p)]) .log ≠ [] → registered order .log ≠ [] →
        contentBefore order (done ++ [(i, p)]) < (registered order .log).length) := by
  rw [wrappers_snoc_of_ne done i hne, I.log]
  by_cases hlogged : wrappers done .log = []
  · rw [if_pos hlogged, if_pos hlogged]
    exact ⟨rfl, fun h => absurd hlogged h⟩
  · rw [contentBefore_logged hlogged]
    exact ⟨rfl, I.inside⟩

/-- A step without a handler that is left does nothing. -/
theorem Wrapped.passed (I : Wrapped order done s) (hlog : p = .log → wrappers done .log = [])
    (hnone : (registered order p)[(wrappers done p).length]? = none) (i : NgxHttpIndex) :
    Wrapped order (done ++ [(i, p)]) s := by
  have hle := List.getElem?_eq_none_iff.mp hnone
  have hempty : p = .log → registered order .log = [] := by
    rintro rfl
    rw [hlog rfl] at hle
    exact List.eq_nil_of_length_eq_zero (Nat.le_zero.mp hle)
  constructor
  · intro p' hp'
    rw [I.elts p' hp']
    by_cases hp : p = p'
    · subst hp
      rw [wrappers_snoc_self, ← set_wrapFirst, List.set_eq_of_length_le]
      rwa [length_wrapFirst]
    · rw [wrappers_snoc_of_ne done i hp]
  · by_cases hp : p = .log
    · rw [I.log, hempty hp]
      simp [wrapFirst]
    · exact (I.log_frame hp i).1
  · by_cases hp : p = .log
    · exact fun _ h => absurd (hempty hp) h
    · exact (I.log_frame hp i).2
  · intro p'
    rw [I.counter]
    by_cases hp : p = p'
    · subst hp
      rw [wrappers_snoc_self, List.length_append, Nat.min_eq_right hle,
        Nat.min_eq_right (Nat.le_add_right_of_le hle)]
    · rw [wrappers_snoc_of_ne done i hp]
  · intro i' slot hslot
    obtain ⟨p', k, e, hk, he, hslot⟩ := I.saved i' slot hslot
    exact ⟨p', k, e, getElem?_wrappers_snoc hk _, he, hslot⟩
  · intro p' k i' e hk he
    by_cases hp : p = p'
    · subst hp
      rw [wrappers_snoc_self, List.getElem?_append_left
        (Nat.lt_of_lt_of_le (List.getElem?_eq_some_iff.mp he).1 hle)] at hk
      exact I.present p k i' e hk he
    · rw [wrappers_snoc_of_ne done i hp] at hk
      exact I.present p' k i' e hk he

/-- A step with a handler that is left saves it and wraps a place. -/
theorem Wrapped.replaced (I : Wrapped order done s) (hp : p ∈ i.ph)
    (hlog : p = .log → wrappers done .log = []) {e : Bytes × H}
    (he : (registered order p)[(wrappers done p).length]? = some e) {place : ℕ}
    (hplace : place =
      if p = .log then contentBefore order (done ++ [(i, p)]) else (wrappers done p).length)
    (hinside : place < (registered order p).length) :
    Wrapped order (done ++ [(i, p)])
      { elts := Function.update s.elts p ((s.elts p).set place (.wrapper i))
        h := Function.update s.h i (some (.original e.2))
        counter := Function.update s.counter p (s.counter p + 1) } := by
  have hlt := (List.getElem?_eq_some_iff.mp he).1
  constructor
  · intro p' hp'
    dsimp only
    by_cases hpp' : p = p'
    · subst hpp'
      rw [if_neg hp'] at hplace
      rw [Function.update_self, wrappers_snoc_self, I.elts p hp', hplace, set_wrapFirst]
    · rw [Function.update_of_ne (Ne.symm hpp'), wrappers_snoc_of_ne done i hpp', I.elts p' hp']
  · dsimp only
    by_cases hpp' : p = .log
    · subst hpp'
      rw [if_pos rfl] at hplace
      rw [Function.update_self, I.log, if_pos (hlog rfl), wrappers_snoc_self,
        if_neg (List.append_ne_nil_of_right_ne_nil _ (List.cons_ne_nil i [])), hplace, eq_log hp]
    · rw [Function.update_of_ne (Ne.symm hpp')]
      exact (I.log_frame hpp' i).1
  · by_cases hpp' : p = .log
    · subst hpp'
      rw [if_pos rfl] at hplace
      exact fun _ _ => hplace ▸ hinside
    · exact (I.log_frame hpp' i).2
  · intro p'
    dsimp only
    by_cases hpp' : p = p'
    · subst hpp'
      rw [Function.update_self, wrappers_snoc_self, I.counter, List.length_append,
        Nat.min_eq_left (Nat.le_of_lt hlt)]
      exact (Nat.min_eq_left hlt).symm
    · rw [Function.update_of_ne (Ne.symm hpp'), wrappers_snoc_of_ne done i hpp', I.counter]
  · intro i' slot hslot
    dsimp only at hslot
    by_cases hii' : i' = i
    · subst hii'
      rw [Function.update_self] at hslot
      refine ⟨p, (wrappers done p).length, e, ?_, he, (Option.some.inj hslot).symm⟩
      rw [wrappers_snoc_self, List.getElem?_append_right (Nat.le_refl _), Nat.sub_self]
      rfl
    · rw [Function.update_of_ne hii'] at hslot
      obtain ⟨p', k, e', hk, he', hslot⟩ := I.saved i' slot hslot
      exact ⟨p', k, e', getElem?_wrappers_snoc hk _, he', hslot⟩
  · intro p' k i' e' hk he'
    dsimp only
    by_cases hii' : i' = i
    · subst hii'
      rw [Function.update_self]
      exact Option.some_ne_none _
    · rw [Function.update_of_ne hii']
      by_cases hpp' : p = p'
      · subst hpp'
        rw [wrappers_snoc_self] at hk
        rcases Nat.lt_or_ge k (wrappers done p).length with hlt' | hge
        · rw [List.getElem?_append_left hlt'] at hk
          exact I.present p k i' e' hk he'
        · rw [List.getElem?_append_right hge] at hk
          obtain ⟨hk0, hi⟩ := List.getElem?_eq_some_iff.mp hk
          rw [List.getElem_singleton] at hi
          exact absurd hi.symm hii'
      · rw [wrappers_snoc_of_ne done i hpp'] at hk
        exact I.present p' k i' e' hk he'

/-- The step lemma: the loop goes on, or the wrapper of the log phase has no place. -/
theorem Wrapped.step (I : Wrapped order done s) (hp : p ∈ i.ph)
    (hlog : p = .log → wrappers done .log = []) :
    (∃ s', s.wrapPhase i p = some s' ∧ Wrapped order (done ++ [(i, p)]) s') ∨
      s.wrapPhase i p = none ∧ p = .log ∧ registered order .log ≠ [] ∧
        (registered order .log).length ≤ contentBefore order (done ++ [(i, p)]) := by
  rw [wrapPhase_eq hp, Handlers.replace, I.counted hlog]
  cases he : (registered order p)[(wrappers done p).length]? with
  | none => exact .inl ⟨s, rfl, I.passed hlog he i⟩
  | some e =>
    have hlt := (List.getElem?_eq_some_iff.mp he).1
    have hlength : (s.elts p).length = (registered order p).length := by
      by_cases hpl : p = .log
      · subst hpl
        rw [I.log, if_pos (hlog rfl), length_wrapFirst]
      · rw [I.elts p hpl, length_wrapFirst]
    have hplace : (if p = .log then s.counter .content else s.counter p) =
        if p = .log then contentBefore order (done ++ [(i, p)]) else (wrappers done p).length := by
      by_cases hpl : p = .log
      · subst hpl
        rw [if_pos rfl, if_pos rfl, I.counter, contentBefore_log (hlog rfl)]
      · rw [if_neg hpl, if_neg hpl, I.counter, Nat.min_eq_left (Nat.le_of_lt hlt)]
    dsimp only [Option.map_some]
    rw [hlength]
    generalize (if p = .log then s.counter .content else s.counter p) = place at hplace ⊢
    by_cases hinside : place < (registered order p).length
    · rw [if_pos hinside]
      exact .inl ⟨_, rfl, I.replaced hp hlog he hplace hinside⟩
    · rw [if_neg hinside]
      have hpl : p = .log := by
        by_contra hpl
        rw [hplace, if_neg hpl] at hinside
        exact hinside hlt
      subst hpl
      rw [hplace, if_pos rfl] at hinside
      exact .inr ⟨rfl, rfl, List.ne_nil_of_length_pos (Nat.zero_lt_of_lt hlt),
        Nat.not_lt.mp hinside⟩

/-! ### The whole loop -/

theorem name_of_isOTelMonitored {str : Bytes} (h : isOTelMonitored str = some i) :
    i.name = str := by
  rw [isOTelMonitored] at h
  have hfound := List.find?_some h
  exact of_decide_eq_true hfound

/-- A module is monitored once. -/
theorem monitored_nodup (order : ModuleOrder H) : (monitoredIndices order).Nodup := by
  obtain ⟨modules, hnodup⟩ := order
  rw [monitoredIndices]
  dsimp only
  induction modules with
  | nil => exact .nil
  | cons m modules ih =>
    rw [List.map_cons, List.nodup_cons] at hnodup
    rw [List.filterMap_cons]
    split
    next => exact ih hnodup.2
    next i hi =>
      refine List.nodup_cons.mpr ⟨fun hmem => ?_, ih hnodup.2⟩
      have hname {m : NgxModule H}
          (h : (if m.isHttp then isOTelMonitored m.name else none) = some i) :
          i.name = m.name := by
        split at h
        next => exact name_of_isOTelMonitored h
        next => cases h
      obtain ⟨m', hm', hi'⟩ := List.mem_filterMap.mp hmem
      exact hnodup.1 (List.mem_map.mpr ⟨m', hm', (hname hi').symm.trans (hname hi)⟩)

theorem mem_steps {e : NgxHttpIndex × Phase} (h : e ∈ steps order) : e.2 ∈ e.1.ph := by
  obtain ⟨i, -, he⟩ := List.mem_flatMap.mp h
  obtain ⟨p, hp, rfl⟩ := List.mem_map.mp he
  exact hp

theorem steps_nodup (order : ModuleOrder H) : (steps order).Nodup := by
  rw [steps, List.nodup_flatMap]
  refine ⟨fun i _ => ?_, ?_⟩
  · refine List.Nodup.map (fun p p' h => (Prod.mk.inj h).2) ?_
    cases i <;> decide
  · refine (monitored_nodup order).imp fun hne => ?_
    intro e he he'
    obtain ⟨p, -, rfl⟩ := List.mem_map.mp he
    obtain ⟨p', -, h⟩ := List.mem_map.mp he'
    exact hne (Prod.mk.inj h).1.symm

/-- The log phase comes once. -/
theorem log_once {rest : List (NgxHttpIndex × Phase)} (h : steps order = done ++ (i, p) :: rest)
    (hlog : p = .log) : wrappers done .log = [] := by
  subst hlog
  rw [wrappers_log_eq_nil]
  intro e he hlog
  obtain ⟨i', p'⟩ := e
  obtain rfl : p' = .log := hlog
  have hnodup := steps_nodup order
  rw [h] at hnodup
  have hi' : i' = .log := eq_log (mem_steps (h ▸ List.mem_append_left _ he))
  have hi : i = .log := eq_log (mem_steps (h ▸ List.mem_append_right _ List.mem_cons_self))
  rw [hi', ← hi] at he
  exact (List.nodup_append.mp hnodup).2.2 _ he _ List.mem_cons_self rfl

theorem wrappers_append_ne_nil (h : wrappers done p ≠ []) (rest : List (NgxHttpIndex × Phase)) :
    wrappers (done ++ rest) p ≠ [] := by
  rw [wrappers_append]
  exact List.append_ne_nil_of_left_ne_nil h _

/-- The run lemma: the loop ends, or the wrapper of the log phase has no place. -/
theorem Wrapped.run {rest : List (NgxHttpIndex × Phase)} (I : Wrapped order done s)
    (h : steps order = done ++ rest) :
    (∃ s', rest.foldlM (fun s e => s.wrapPhase e.1 e.2) s = some s' ∧
      Wrapped order (steps order) s') ∨
      rest.foldlM (fun s e => s.wrapPhase e.1 e.2) s = none ∧ wrappers (steps order) .log ≠ [] ∧
        registered order .log ≠ [] ∧
          (registered order .log).length ≤ contentBefore order (steps order) := by
  induction rest generalizing done s with
  | nil => exact .inl ⟨s, rfl, by rwa [h, List.append_nil]⟩
  | cons e rest ih =>
    obtain ⟨i, p⟩ := e
    have hp : p ∈ i.ph := mem_steps (h ▸ List.mem_append_right _ List.mem_cons_self)
    have hsplit : steps order = done ++ [(i, p)] ++ rest := by rw [h, List.append_assoc]; rfl
    rw [List.foldlM_cons]
    obtain ⟨s', hs', I'⟩ | ⟨hs', rfl, hlog, hle⟩ := I.step hp (log_once h)
    · rw [hs']
      exact ih I' hsplit
    · rw [hs', hsplit]
      have hlogged : wrappers (done ++ [(i, .log)]) .log ≠ [] := by
        rw [wrappers_snoc_self]
        exact List.append_ne_nil_of_right_ne_nil _ (List.cons_ne_nil i [])
      exact .inr ⟨rfl, wrappers_append_ne_nil hlogged rest, hlog,
        (contentBefore_logged hlogged rest).symm ▸ hle⟩

theorem Wrapped.init (order : ModuleOrder H) :
    (∃ s, ngxHttpOpentelemetryInit order = some s ∧ Wrapped order (steps order) s) ∨
      ngxHttpOpentelemetryInit order = none ∧ wrappers (steps order) .log ≠ [] ∧
        registered order .log ≠ [] ∧
          (registered order .log).length ≤ contentBefore order (steps order) := by
  rw [init_eq]
  exact (wrapped_new order).run rfl

theorem mem_wrappers {k : ℕ} (h : (wrappers done p)[k]? = some i) : (i, p) ∈ done := by
  obtain ⟨⟨i', p'⟩, he, hi⟩ := List.mem_filterMap.mp (List.mem_of_getElem? h)
  dsimp only at hi
  split at hi
  next hp =>
    obtain rfl : p' = p := hp
    obtain rfl := Option.some.inj hi
    exact he
  next => cases hi

/-- The log phase has one wrapper. -/
theorem wrappers_log {k : ℕ} (h : (wrappers (steps order) .log)[k]? = some i) :
    i = .log ∧ k = 0 := by
  have hlog {k : ℕ} {i : NgxHttpIndex} (h : (wrappers (steps order) .log)[k]? = some i) :
      i = .log :=
    eq_log (mem_steps (mem_wrappers h))
  refine ⟨hlog h, ?_⟩
  have hnodup : (wrappers (steps order) .log).Nodup := by
    refine List.Nodup.filterMap (fun e e' i he he' => ?_) (steps_nodup order)
    rw [Option.mem_def, Option.ite_none_right_eq_some] at he he'
    exact Prod.ext ((Option.some.inj he.2).trans (Option.some.inj he'.2).symm)
      (he.1.trans he'.1.symm)
  obtain ⟨hk, -⟩ := List.getElem?_eq_some_iff.mp h
  have hpos := Nat.zero_lt_of_lt hk
  have hsame : (wrappers (steps order) .log)[k] = (wrappers (steps order) .log)[0] :=
    (hlog (List.getElem?_eq_getElem hk)).trans (hlog (List.getElem?_eq_getElem hpos)).symm
  exact hnodup.getElem_inj_iff.mp hsame

/-! ### The pipeline -/

/-- What is in the places of the arrays after the loop. -/
theorem Wrapped.getElem?_elts (I : Wrapped order (steps order) s) (hp : p ≠ .log) (k : ℕ) :
    (s.elts p)[k]? = (registered order p)[k]?.map fun e =>
      match (wrappers (steps order) p)[k]? with
      | some i => .wrapper i
      | none => .original e.2 := by
  rw [I.elts p hp, getElem?_wrapFirst]

theorem Wrapped.getElem?_log (I : Wrapped order (steps order) s) (k : ℕ) :
    (s.elts .log)[k]? = (registered order .log)[k]?.map fun e =>
      if wrappers (steps order) .log ≠ [] ∧ k = contentBefore order (steps order) then .wrapper .log
      else .original e.2 := by
  rw [I.log]
  by_cases hlogged : wrappers (steps order) .log = []
  · rw [if_pos hlogged, getElem?_wrapFirst]
    simp only [hlogged, ne_eq, not_true_eq_false, false_and, if_false, List.getElem?_nil]
  · rw [if_neg hlogged, List.getElem?_set, getElem?_wrapFirst, length_wrapFirst]
    by_cases hk : contentBefore order (steps order) = k
    · subst hk
      rw [if_pos rfl]
      by_cases hlt : contentBefore order (steps order) < (registered order .log).length
      · rw [if_pos hlt, List.getElem?_eq_getElem hlt, Option.map_some, if_pos ⟨hlogged, rfl⟩]
      · rw [if_neg hlt, List.getElem?_eq_none (Nat.not_lt.mp hlt)]
        rfl
    · rw [if_neg hk]
      simp only [Ne.symm hk, and_false, if_false, List.getElem?_nil]

/-- The phases are as they were: a place without a wrapper has its handler, a wrapper
has saved the handler that its module had there, and so a phase calls what was
registered, in its order. -/
structure PipelinePreserved (order : ModuleOrder H) (s : Handlers H) : Prop where
  kept : ∀ (p : Phase) (k : ℕ) (handler : H), (s.elts p)[k]? = some (.original handler) →
    (registered order p)[k]?.map Prod.snd = some handler
  saved : ∀ (p : Phase) (k : ℕ) (i : NgxHttpIndex), (s.elts p)[k]? = some (.wrapper i) →
    ∃ handler, (registered order p)[k]? = some (i.name, handler) ∧ s.h i = some (.original handler)
  calls : ∀ p, (s.elts p).map s.call = (registered order p).map fun e => some e.2

/-- What the loop counts on.  In every phase but the log phase the first handlers are
those of the monitored modules of the table, in its order, and a module with two phases
has one handler; the log module has the handler with the number of the monitored
handlers of the content phase before it, and it is the first one too. -/
structure Aligned (order : ModuleOrder H) : Prop where
  owned : ∀ (p : Phase) (k : ℕ) (i : NgxHttpIndex) (e : Bytes × H), p ≠ .log →
    (wrappers (steps order) p)[k]? = some i → (registered order p)[k]? = some e → e.1 = i.name
  same : ∀ (p p' : Phase) (k k' : ℕ) (i : NgxHttpIndex) (e e' : Bytes × H), p ≠ .log → p' ≠ .log →
    (wrappers (steps order) p)[k]? = some i → (registered order p)[k]? = some e →
    (wrappers (steps order) p')[k']? = some i → (registered order p')[k']? = some e' → e.2 = e'.2
  log : wrappers (steps order) .log ≠ [] → ∀ e, (registered order .log)[0]? = some e →
    (registered order .log)[contentBefore order (steps order)]? = some (NgxHttpIndex.log.name, e.2)

/-- A saved handler is one that the loop counted for the module. -/
theorem Wrapped.saved_of_wrapper (I : Wrapped order (steps order) s) (hp : p ≠ .log) {k : ℕ}
    {e : Bytes × H}
    (hk : (wrappers (steps order) p)[k]? = some i) (he : (registered order p)[k]? = some e) :
    ∃ (p' : Phase) (k' : ℕ) (e' : Bytes × H), p' ≠ .log ∧
      (wrappers (steps order) p')[k']? = some i ∧
      (registered order p')[k']? = some e' ∧ s.h i = some (.original e'.2) := by
  obtain ⟨slot, hslot⟩ := Option.ne_none_iff_exists'.mp (I.present p k i e hk he)
  obtain ⟨p', k', e', hk', he', rfl⟩ := I.saved i slot hslot
  refine ⟨p', k', e', ?_, hk', he', hslot⟩
  rintro rfl
  obtain ⟨rfl, -⟩ := wrappers_log hk'
  have hph : p ∈ NgxHttpIndex.log.ph := mem_steps (mem_wrappers hk)
  exact hp (List.mem_singleton.mp hph)

/-- The log wrapper calls the first handler of the log phase. -/
theorem Wrapped.saved_log (I : Wrapped order (steps order) s)
    (hlogged : wrappers (steps order) .log ≠ [])
    {e : Bytes × H} (he : (registered order .log)[0]? = some e) :
    s.h .log = some (.original e.2) := by
  obtain ⟨i, hi⟩ : ∃ i, (wrappers (steps order) .log)[0]? = some i :=
    ⟨_, List.getElem?_eq_getElem (List.length_pos_of_ne_nil hlogged)⟩
  obtain ⟨rfl, -⟩ := wrappers_log hi
  obtain ⟨slot, hslot⟩ := Option.ne_none_iff_exists'.mp (I.present .log 0 .log e hi he)
  obtain ⟨p, k, e', hk, he', rfl⟩ := I.saved .log slot hslot
  obtain rfl : p = .log := List.mem_singleton.mp (mem_steps (mem_wrappers hk))
  obtain ⟨-, rfl⟩ := wrappers_log hk
  rw [hslot, Option.some.inj (he'.symm.trans he)]

theorem Wrapped.preserved (I : Wrapped order (steps order) s) (hal : Aligned order) :
    PipelinePreserved order s := by
  have hkept (p : Phase) (k : ℕ) (handler : H) (h : (s.elts p)[k]? = some (.original handler)) :
      (registered order p)[k]?.map Prod.snd = some handler := by
    by_cases hp : p = .log
    · subst hp
      rw [I.getElem?_log] at h
      obtain ⟨e, he, hslot⟩ := Option.map_eq_some_iff.mp h
      split at hslot
      next => cases hslot
      next =>
        rw [he, Option.map_some, Slot.original.inj hslot]
    · rw [I.getElem?_elts hp] at h
      obtain ⟨e, he, hslot⟩ := Option.map_eq_some_iff.mp h
      split at hslot
      next => cases hslot
      next =>
        rw [he, Option.map_some, Slot.original.inj hslot]
  have hsaved (p : Phase) (k : ℕ) (i : NgxHttpIndex) (h : (s.elts p)[k]? = some (.wrapper i)) :
      ∃ handler, (registered order p)[k]? = some (i.name, handler) ∧
        s.h i = some (.original handler) := by
    by_cases hp : p = .log
    · subst hp
      rw [I.getElem?_log] at h
      obtain ⟨e, he, hslot⟩ := Option.map_eq_some_iff.mp h
      split at hslot
      next hcond =>
        obtain ⟨hlogged, rfl⟩ := hcond
        obtain rfl := Slot.wrapper.inj hslot
        obtain ⟨e0, he0⟩ : ∃ e0, (registered order .log)[0]? = some e0 :=
          ⟨_, List.getElem?_eq_getElem (Nat.zero_lt_of_lt (List.getElem?_eq_some_iff.mp he).1)⟩
        exact ⟨e0.2, hal.log hlogged e0 he0, I.saved_log hlogged he0⟩
      next => cases hslot
    · rw [I.getElem?_elts hp] at h
      obtain ⟨e, he, hslot⟩ := Option.map_eq_some_iff.mp h
      split at hslot
      next i' hi' =>
        obtain rfl := Slot.wrapper.inj hslot
        obtain ⟨p', k', e', hp', hk', he', hh⟩ := I.saved_of_wrapper hp hi' he
        refine ⟨e.2, ?_, ?_⟩
        · rw [he, ← hal.owned p k i' e hp hi' he]
        · rw [hh, hal.same p p' k k' i' e e' hp hp' hi' he hk' he']
      next => cases hslot
  refine ⟨hkept, hsaved, fun p => List.ext_getElem? fun k => ?_⟩
  rw [List.getElem?_map, List.getElem?_map]
  cases hslot : (s.elts p)[k]? with
  | none =>
    have hnone : (registered order p)[k]? = none := by
      by_cases hp : p = .log
      · subst hp
        rw [I.getElem?_log] at hslot
        exact Option.map_eq_none_iff.mp hslot
      · rw [I.getElem?_elts hp] at hslot
        exact Option.map_eq_none_iff.mp hslot
    rw [hnone]
    rfl
  | some slot =>
    cases slot with
    | original handler =>
      obtain ⟨e, he, rfl⟩ := Option.map_eq_some_iff.mp (hkept p k handler hslot)
      rw [he]
      rfl
    | wrapper i =>
      obtain ⟨handler, he, hh⟩ := hsaved p k i hslot
      rw [he, Option.map_some, Option.map_some, Handlers.call, hh]

theorem Wrapped.aligned (I : Wrapped order (steps order) s) (hpre : PipelinePreserved order s) :
    Aligned order := by
  have hwrapped {p : Phase} {k : ℕ} {i : NgxHttpIndex} {e : Bytes × H} (hp : p ≠ .log)
      (hk : (wrappers (steps order) p)[k]? = some i) (he : (registered order p)[k]? = some e) :
      e.1 = i.name ∧ s.h i = some (.original e.2) := by
    have hslot : (s.elts p)[k]? = some (.wrapper i) := by
      rw [I.getElem?_elts hp, he, hk]
      rfl
    obtain ⟨handler, he', hh⟩ := hpre.saved p k i hslot
    obtain rfl := Option.some.inj (he.symm.trans he')
    exact ⟨rfl, hh⟩
  constructor
  · intro p k i e hp hk he
    exact (hwrapped hp hk he).1
  · intro p p' k k' i e e' hp hp' hk he hk' he'
    exact Slot.original.inj (Option.some.inj ((hwrapped hp hk he).2.symm.trans
      (hwrapped hp' hk' he').2))
  · intro hlogged e he
    have hne : registered order .log ≠ [] :=
      List.ne_nil_of_length_pos (Nat.zero_lt_of_lt (List.getElem?_eq_some_iff.mp he).1)
    have hslot : (s.elts .log)[contentBefore order (steps order)]? = some (.wrapper .log) := by
      rw [I.getElem?_log, List.getElem?_eq_getElem (I.inside hlogged hne), Option.map_some,
        if_pos ⟨hlogged, rfl⟩]
    obtain ⟨handler, he', hh⟩ := hpre.saved .log _ .log hslot
    rw [I.saved_log hlogged he] at hh
    rw [he', Slot.original.inj (Option.some.inj hh)]

/-- The wrapping keeps within the arrays and preserves the pipeline exactly when the
modules are aligned. -/
theorem pipeline_iff (order : ModuleOrder H) :
    (∃ s, ngxHttpOpentelemetryInit order = some s ∧ PipelinePreserved order s) ↔ Aligned order := by
  constructor
  · rintro ⟨s, hs, hpre⟩
    obtain ⟨s', hs', I⟩ | ⟨hnone, -⟩ := Wrapped.init order
    · obtain rfl := Option.some.inj (hs.symm.trans hs')
      exact I.aligned hpre
    · rw [hnone] at hs
      cases hs
  · intro hal
    obtain ⟨s, hs, I⟩ | ⟨-, hlogged, hne, hle⟩ := Wrapped.init order
    · exact ⟨s, hs, I.preserved hal⟩
    · obtain ⟨e, he⟩ : ∃ e, (registered order .log)[0]? = some e :=
        ⟨_, List.getElem?_eq_getElem (List.length_pos_of_ne_nil hne)⟩
      have hplace := hal.log hlogged e he
      rw [List.getElem?_eq_none hle] at hplace
      cases hplace

/-- A third module with a handler of the first phase. -/
def sampleOrder : ModuleOrder ℕ where
  modules :=
    [⟨NgxHttpIndex.realip.name, true, [(.postRead, 0), (.preaccess, 0)]⟩,
      ⟨NgxHttpIndex.rewrite.name, true, [(.serverRewrite, 1), (.rewrite, 1)]⟩,
      ⟨ascii "ngx_http_custom_module", true, [(.postRead, 2)]⟩]
  nodup := by decide

/-- The table gives the rewrite module one phase and a count of two: the wrapper of the
rewrite module takes the place of the third one, and has lost its own handler. -/
theorem rewrite_wraps_custom :
    ∃ s, ngxHttpOpentelemetryInit sampleOrder = some s ∧ ¬ PipelinePreserved sampleOrder s := by
  refine ⟨_, rfl, fun hpre => ?_⟩
  obtain ⟨handler, hreg, -⟩ := hpre.saved .postRead 1 .rewrite rfl
  have hname : (registered sampleOrder .postRead)[1]?.map Prod.fst =
      some (ascii "ngx_http_custom_module") := rfl
  rw [hreg] at hname
  have hne : NgxHttpIndex.rewrite.name ≠ ascii "ngx_http_custom_module" := by decide
  exact hne (Option.some.inj hname)

end NginxWebserver

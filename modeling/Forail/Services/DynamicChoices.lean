import Forail.Core.Json
import Forail.Core.Runs
import Mathlib.Data.Rat.Defs
import Mathlib.Order.Basic

/-!
# The cache of dynamic choices

The choices of a survey question are resolved in the scope of a template and kept for some
seconds.  The cache is shared by all processes, each of which may pause between its steps.
-/

namespace Forail.DynamicChoices

open Forail.Json Forail.Runs

structure Template where
  pk : Option ℕ
  organizationId : Option ℕ
  inventoryId : Option ℕ
  deriving DecidableEq

/-- A call of `resolve_dynamic_choices`; `variable` and `config` are from its question. -/
structure Request where
  «variable» : Value
  config : Value
  template : Option Template

/-- `dumps` is `json.dumps` with sorted keys, `digest` the hexadecimal SHA-256 of a text, and
`jinja2Enabled` the answer of `jinja2_source_enabled`. -/
structure Surroundings where
  texts : Texts
  dumps : Value → String
  digest : String → String
  jinja2Enabled : Bool

inductive Source where
  | dbQuery
  | apiEndpoint
  | jinja2
  deriving DecidableEq

structure Entry where
  choices : List String
  expires : Rat

/-- What a source gave for a call, and when the call ended. -/
structure Resolution where
  request : Request
  choices : List String
  time : Rat

structure State where
  clock : Rat
  cache : String → Option Entry
  calls : List Request
  resolved : List Resolution

inductive Event where
  | pass (seconds : Rat)
  /-- The cache drops an entry, or is cleared. -/
  | evict (key : String)
  | ask (request : Request)
  /-- A call that was not answered from the cache goes on with what its source gives, or raises. -/
  | answer (call : ℕ) (values : Except String (List Value))

variable (surroundings : Surroundings)

def scope (template : Template) : Value :=
  let id : Option ℕ → Value := fun id => id.elim .null fun id => .int id
  .list [id template.pk, id template.organizationId, id template.inventoryId]

namespace Request

variable (request : Request)

def document (template : Template) : Value :=
  .list [request.variable, request.config, scope template]

/-- `_cache_key` -/
def cacheKey : Option String :=
  request.template.bind fun template =>
    template.pk.map fun _ =>
      "dynamic_survey_choices_" ++ surroundings.digest (surroundings.dumps (request.document template))

/-- The source that is asked; without one there are no choices. -/
def source : Option Source :=
  let type := request.config.get "source_type"
  if type.isText "db_query" then some .dbQuery
  else if type.isText "api_endpoint" then some .apiEndpoint
  else if type.isText "jinja2" && surroundings.jinja2Enabled then some .jinja2
  else none

/-- The seconds for which choices are kept, `none` if they are not; other values raise. -/
def cacheTtl : Option Rat :=
  match (request.config.tryGetOr "cache_ttl" (.int 60)).toOption.bind Value.number with
  | some (.finite seconds) => if 0 < seconds then some seconds else none
  | _ => none

end Request

namespace State

variable (state : State)

def start (clock : Rat) : State where
  clock := clock
  cache _ := none
  calls := []
  resolved := []

/-- `cache.get` of the key of a request. -/
def cached (request : Request) : Option (List String) :=
  (request.cacheKey surroundings).bind fun key =>
    (state.cache key).bind fun entry =>
      if state.clock < entry.expires then some entry.choices else none

def store (request : Request) (values : List Value) : State :=
  let choices := values.map surroundings.texts.text
  let resolved := ⟨request, choices, state.clock⟩ :: state.resolved
  match request.cacheKey surroundings, request.cacheTtl with
  | some key, some ttl =>
      { state with
        resolved := resolved
        cache := fun other =>
          if other = key then some ⟨choices, state.clock + ttl⟩ else state.cache other }
  | _, _ => { state with resolved := resolved }

def step : Event → Option State
  | .pass seconds => if 0 ≤ seconds then some { state with clock := state.clock + seconds } else none
  | .evict key =>
      some { state with cache := fun other => if other = key then none else state.cache other }
  | .ask request =>
      if request.config.truthy && (request.config.get "enabled").truthy then
        some (if (state.cached surroundings request).isSome then state
          else { state with calls := request :: state.calls })
      else none
  | .answer call values =>
      (state.calls[call]?).map fun request =>
        let state := { state with calls := state.calls.eraseIdx call }
        match request.source surroundings, values with
        | some _, .ok values => state.store surroundings request values
        | _, _ => state

end State

/-! ## What is served -/

/-- The entry under the key is what the call has cached. -/
structure Resolution.Backs (resolution : Resolution) (key : String) (entry : Entry) : Prop where
  cacheKey : resolution.request.cacheKey surroundings = some key
  source : resolution.request.source surroundings ≠ none
  choices : resolution.choices = entry.choices
  expires : ∃ ttl ∈ resolution.request.cacheTtl, entry.expires = resolution.time + ttl

/-- Documents with the same digest have the same text, and this text is only that of documents with
the same members. -/
structure Separates (request : Request) (template : Template) (request' : Request)
    (template' : Template) : Prop where
  digest : surroundings.digest (surroundings.dumps (request.document template)) =
      surroundings.digest (surroundings.dumps (request'.document template')) →
    surroundings.dumps (request.document template) =
      surroundings.dumps (request'.document template')
  dumps : surroundings.dumps (request.document template) =
      surroundings.dumps (request'.document template') →
    surroundings.dumps request.variable = surroundings.dumps request'.variable ∧
      surroundings.dumps request.config = surroundings.dumps request'.config ∧
        scope template = scope template'

theorem scope_injective : Function.Injective scope := by
  rintro ⟨pk, organizationId, inventoryId⟩ ⟨pk', organizationId', inventoryId'⟩ hscope
  have hid : ∀ id id' : Option ℕ, id.elim Value.null (fun id => .int id) =
      id'.elim Value.null (fun id => .int id) → id = id' := by
    rintro (_ | id) (_ | id') hid
    · rfl
    · cases hid
    · cases hid
    · exact congrArg some (Int.ofNat.inj (Value.int.inj hid))
  simp only [scope, Value.list.injEq, List.cons.injEq, and_true] at hscope
  obtain ⟨hpk, horganization, hinventory⟩ := hscope
  rw [hid _ _ hpk, hid _ _ horganization, hid _ _ hinventory]

namespace State

def Traced (state : State) : Prop :=
  ∀ key entry, state.cache key = some entry →
    ∃ resolution ∈ state.resolved, resolution.Backs surroundings key entry

variable {surroundings : Surroundings} {state state' : State}

theorem store_traced (htraced : state.Traced surroundings) {request : Request}
    (hsource : request.source surroundings ≠ none) (values : List Value) :
    (state.store surroundings request values).Traced surroundings := by
  have hold : ∀ key entry, state.cache key = some entry → ∃ resolution ∈
      ⟨request, values.map surroundings.texts.text, state.clock⟩ :: state.resolved,
        resolution.Backs surroundings key entry := by
    intro key entry hentry
    obtain ⟨resolution, hresolution, hbacks⟩ := htraced key entry hentry
    exact ⟨resolution, List.mem_cons_of_mem _ hresolution, hbacks⟩
  rw [store]
  split
  · next key ttl hkey httl =>
    intro other entry hentry
    dsimp only at hentry
    split at hentry
    · next hother =>
      obtain rfl := Option.some.inj hentry
      exact ⟨_, List.mem_cons_self, hkey.trans (congrArg some hother.symm), hsource, rfl, ttl, httl,
        rfl⟩
    · exact hold other entry hentry
  · exact hold

theorem step_traced (htraced : state.Traced surroundings) {event : Event}
    (hstep : state.step surroundings event = some state') : state'.Traced surroundings := by
  cases event with
  | pass seconds =>
    obtain ⟨-, hstep⟩ := Option.ite_none_right_eq_some.mp hstep
    obtain rfl := Option.some.inj hstep
    exact htraced
  | evict key =>
    obtain rfl := Option.some.inj hstep
    intro other entry hentry
    dsimp only at hentry
    split at hentry
    · cases hentry
    · exact htraced other entry hentry
  | ask request =>
    obtain ⟨-, hstep⟩ := Option.ite_none_right_eq_some.mp hstep
    obtain rfl := Option.some.inj hstep
    split
    · exact htraced
    · exact htraced
  | answer call values =>
    obtain ⟨request, -, rfl⟩ := Option.map_eq_some_iff.mp hstep
    have hpopped : { state with calls := state.calls.eraseIdx call }.Traced surroundings := htraced
    dsimp only
    split
    · next hsource => exact store_traced hpopped (by simp [hsource]) _
    · exact hpopped

/-- What the cache serves was resolved in the same scope, and was cached not too long ago. -/
theorem served_of_run {clock : Rat}
    (hrun : Run (step surroundings) (fun _ _ => True) (start clock) state) {request : Request}
    {template : Template} (htemplate : request.template = some template) {choices : List String}
    (hcached : state.cached surroundings request = some choices)
    (hseparates : ∀ resolution ∈ state.resolved, ∀ other ∈ resolution.request.template,
      Separates surroundings resolution.request other request template) :
    ∃ resolution ∈ state.resolved, resolution.request.template = some template ∧
      surroundings.dumps resolution.request.variable = surroundings.dumps request.variable ∧
      surroundings.dumps resolution.request.config = surroundings.dumps request.config ∧
      resolution.request.source surroundings ≠ none ∧ resolution.choices = choices ∧
      ∃ ttl ∈ resolution.request.cacheTtl, state.clock < resolution.time + ttl := by
  have htraced : state.Traced surroundings :=
    hrun.invariant (Traced surroundings) (fun _ _ hentry => by cases hentry)
      fun _ _ _ htraced _ hstep => step_traced htraced hstep
  obtain ⟨key, hkey, hcached⟩ := Option.bind_eq_some_iff.mp hcached
  obtain ⟨entry, hentry, hcached⟩ := Option.bind_eq_some_iff.mp hcached
  obtain ⟨hlive, hchoices⟩ := Option.ite_none_right_eq_some.mp hcached
  obtain ⟨resolution, hresolution, hbacks⟩ := htraced key entry hentry
  obtain ⟨other, hother, hkey'⟩ := Option.bind_eq_some_iff.mp hbacks.cacheKey
  obtain ⟨_, -, hkey'⟩ := Option.map_eq_some_iff.mp hkey'
  obtain ⟨asked, hasked, hkey⟩ := Option.bind_eq_some_iff.mp hkey
  obtain rfl := Option.some.inj (htemplate.symm.trans hasked)
  obtain ⟨_, -, hkey⟩ := Option.map_eq_some_iff.mp hkey
  have hdigest := String.append_right_inj _ |>.mp (hkey'.trans hkey.symm)
  have hseparated := hseparates resolution hresolution other hother
  obtain ⟨hvariable, hconfig, hscope⟩ := hseparated.dumps (hseparated.digest hdigest)
  obtain rfl := scope_injective hscope
  obtain ⟨ttl, httl, hexpires⟩ := hbacks.expires
  exact ⟨resolution, hresolution, hother, hvariable, hconfig, hbacks.source,
    hbacks.choices.trans (Option.some.inj hchoices), ttl, httl, hexpires ▸ hlive⟩

def hostQuestion : Request where
  «variable» := .str "host"
  config := .dict [("enabled", .bool true), ("source_type", .str "db_query")]
  template := some ⟨some 5, some 1, some 3⟩

def plainSurroundings : Surroundings where
  texts := ⟨fun _ => "", fun _ => ""⟩
  dumps
    | .str text => "\"" ++ text ++ "\""
    | .dict _ => "\x7b\"enabled\": true, \"source_type\": \"db_query\"\x7d"
    | _ => "[\"host\", \x7b\"enabled\": true, \"source_type\": \"db_query\"\x7d, [5, 1, 3]]"
  digest text := text
  jinja2Enabled := false

theorem served_within_a_minute : ∃ (state : State) (resolution : Resolution),
    resolution ∈ state.resolved ∧ resolution.choices = ["web1"] ∧
      ∃ ttl ∈ resolution.request.cacheTtl, state.clock < resolution.time + ttl := by
  have hserved : ([Event.ask hostQuestion, .answer 0 (.ok [.str "web1"]), .pass 59].foldlM
      (step plainSurroundings) (start 0)).any (fun state =>
        decide (state.cached plainSurroundings hostQuestion = some ["web1"]) &&
          state.resolved.all fun resolution =>
            decide (resolution.request.template = hostQuestion.template ∧
              plainSurroundings.dumps resolution.request.variable = "\"host\"" ∧
                plainSurroundings.dumps resolution.request.config =
                  plainSurroundings.dumps hostQuestion.config)) = true := by decide +kernel
  obtain ⟨state, hrun, htest⟩ := exists_run_of_any _ hserved
  simp only [Bool.and_eq_true, decide_eq_true_eq, List.all_eq_true] at htest
  obtain ⟨hcached, hresolved⟩ := htest
  obtain ⟨resolution, hresolution, -, -, -, -, hchoices, httl⟩ :=
    served_of_run hrun rfl hcached fun resolution hresolution other hother => by
      obtain ⟨htemplate, hvariable, hconfig⟩ := hresolved resolution hresolution
      obtain rfl := Option.some.inj (htemplate.symm.trans hother)
      exact ⟨fun _ => rfl, fun _ => ⟨hvariable, hconfig, rfl⟩⟩
  exact ⟨state, resolution, hresolution, hchoices, httl⟩

end State

end Forail.DynamicChoices

import Forail.Core.Runs
import Forail.Utils.NamedUrlWalks

/-!
# The counters that named URLs leave on the graph

All requests share the nodes.  A walk that comes to its end brings the counters back to
zero, so it has no effect on later calls; a URL that is rejected below the node where
its reading starts leaves counters behind.
-/

namespace Forail.NamedUrl

open Forail.Runs Forail.Texts Forail.StackWalk

inductive Call (Node Obj : Type*) where
  | namedUrlFormat (node : Node)
  | generateNamedUrl (node : Node) (obj : Obj)
  | populateNamedUrlQueryKwargs (node : Node) (kwargs : Kwargs) (namedUrl : Text)
      (ignoreDigits : Bool)

inductive Result where
  | text (text : Text)
  | populated (result : Except String PopulateResult)

section Definitions

variable {Node Obj : Type*} [DecidableEq Node] (graph : NamedUrlGraph Node)
  (objects : Objects Obj)

def Call.perform (fuel : ℕ) (state : GraphState Node Obj) :
    Call Node Obj → Option (Result × GraphState Node Obj)
  | .namedUrlFormat node =>
      (graph.namedUrlFormat fuel node state).map (Prod.map .text id)
  | .generateNamedUrl node obj =>
      (graph.generateNamedUrl objects fuel node obj state).map (Prod.map .text id)
  | .populateNamedUrlQueryKwargs node kwargs namedUrl ignoreDigits =>
      (graph.populateNamedUrlQueryKwargs fuel node kwargs namedUrl ignoreDigits state).map
        (Prod.map .populated id)

def step (state : GraphState Node Obj) (event : Call Node Obj × ℕ) :
    Option (GraphState Node Obj) :=
  (event.1.perform graph objects event.2 state).map Prod.snd

def Returns (state : GraphState Node Obj) (call : Call Node Obj) (result : Result) : Prop :=
  ∃ fuel state', call.perform graph objects fuel state = some (result, state')

/-- Every counter is at zero, and every call returns what it returns on a fresh
graph. -/
structure Independent (state : GraphState Node Obj) : Prop where
  counters : ∀ node, state.counter node = 0
  returns : ∀ call, ∃ result, Returns graph objects state call result
  results : ∀ call result, Returns graph objects state call result ↔
    Returns graph objects .fresh call result

def RejectedAtOnce (node : Node) (names : List Text) : Prop :=
  ∃ name ∈ names.head?, name ≠ [] ∧
    (split namedUrlResInnerDilimiter name).length ≠ (graph.fields node).length

/-- A URL that is read is declined as a number, has enough components of the right
form for the node, or is rejected at its first component. -/
def Unwinds : Call Node Obj → Prop
  | .populateNamedUrlQueryKwargs node _ namedUrl ignoreDigits =>
      (ignoreDigits = true ∧ isPositiveNumber namedUrl ≠ some false) ∨
        (consume graph node (namedUrlNames namedUrl)).isSome ∨
        RejectedAtOnce graph node (namedUrlNames namedUrl)
  | _ => True

end Definitions

/-! ## One call on a fresh graph -/

variable {Node Obj : Type*} [DecidableEq Node] {graph : NamedUrlGraph Node}
  {objects : Objects Obj} {node : Node} {fuel : ℕ} {call : Call Node Obj}
  {state state' : GraphState Node Obj} {result : Result}

theorem format_fresh (node : Node) :
    ∃ fuel result, Call.perform graph objects fuel .fresh (.namedUrlFormat node) =
      some (result, .fresh) := by
  obtain ⟨acc, hwalk⟩ : ∃ acc, walk graph.walks graph.formatHooks node ⟨[], []⟩ = .ok acc :=
    exists_walk_ok (fun _ _ _ hvisit => by simp [NamedUrlGraph.formatHooks] at hvisit) node _
  obtain ⟨fuel, hrun⟩ := stops_of_ok hwalk
  refine ⟨fuel, .text (namedUrlResDilimiter.intercalate acc.components), ?_⟩
  rw [Call.perform, NamedUrlGraph.namedUrlFormat, GraphState.fresh, hrun]
  rfl

theorem generate_fresh (node : Node) (obj : Obj) :
    ∃ fuel, graph.generateNamedUrl objects fuel node obj .fresh =
      some (namedUrlResDilimiter.intercalate (components graph objects node obj), .fresh) := by
  have hobj : Function.update (fun _ => none) node (some obj) node = some obj := by
    rw [Function.update_self]
  have hvacant : Vacant graph (Function.update (fun _ => none) node (some obj)) node := by
    intro other hother
    exact Function.update_of_ne (fun heq => (heq ▸ hother).false) _ _
  have hwalk : walk graph.walks (graph.generateHooks objects) node
      ⟨Function.update (fun _ => none) node (some obj), []⟩ = _ :=
    walk_generate node obj _ hobj hvacant
  obtain ⟨fuel, hrun⟩ := stops_of_ok hwalk
  refine ⟨fuel, ?_⟩
  rw [NamedUrlGraph.generateNamedUrl, GraphState.fresh, hrun]
  simp only [Option.map_some, List.nil_append, Function.update_idem]
  rw [Function.update_eq_self_iff.mpr rfl]

section Populate

variable {kwargs : Kwargs} {namedUrl : Text} {ignoreDigits : Bool}

def reading (graph : NamedUrlGraph Node) (node : Node) (kwargs : Kwargs) (namedUrl : Text) :
    Except PopulateState PopulateState :=
  walk graph.walks (graph.populateHooks (namedUrlNames namedUrl)) node ⟨kwargs, [], 0⟩

omit [DecidableEq Node] in
theorem consume_eq_reading :
    consume graph node (namedUrlNames namedUrl) =
      remaining (namedUrlNames namedUrl) (reading graph node kwargs namedUrl) :=
  (remaining_walk node ⟨kwargs, [], 0⟩).symm

theorem populate_declined
    (hdeclined : ignoreDigits = true ∧ isPositiveNumber namedUrl ≠ some false) :
    ∃ result, ∀ fuel state, Call.perform graph objects fuel state
      (.populateNamedUrlQueryKwargs node kwargs namedUrl ignoreDigits) = some (result, state) := by
  rw [hdeclined.1]
  simp only [Call.perform, NamedUrlGraph.populateNamedUrlQueryKwargs, if_true]
  cases hnumber : isPositiveNumber namedUrl with
  | none => exact ⟨.populated (.error "ValueError"), fun _ _ => rfl⟩
  | some positive =>
    cases positive with
    | true => exact ⟨.populated (.ok ⟨false, kwargs⟩), fun _ _ => rfl⟩
    | false => exact absurd hnumber hdeclined.2

section

variable (hread : ¬ (ignoreDigits = true ∧ isPositiveNumber namedUrl ≠ some false))
include hread

theorem populate_read :
    graph.populateNamedUrlQueryKwargs fuel node kwargs namedUrl ignoreDigits state =
      (run graph.walks (graph.populateHooks (namedUrlNames namedUrl)) fuel
        ⟨state.counter, [node], ⟨kwargs, [], 0⟩⟩).map fun ended =>
          (.ok ⟨ended.1 && decide (ended.2.acc.idx = (namedUrlNames namedUrl).length),
            ended.2.acc.kwargs⟩, { state with counter := ended.2.counter }) := by
  have hdigits : (if ignoreDigits then isPositiveNumber namedUrl else some false) =
      some false := by
    cases ignoreDigits with
    | false => rfl
    | true => exact not_not.mp fun hne => hread ⟨rfl, hne⟩
  rw [NamedUrlGraph.populateNamedUrlQueryKwargs, hdigits]

theorem populate_consumed
    {acc : PopulateState} (hwalk : reading graph node kwargs namedUrl = .ok acc) :
    ∃ fuel, graph.populateNamedUrlQueryKwargs fuel node kwargs namedUrl ignoreDigits
      (.fresh : GraphState Node Obj) =
        some (.ok ⟨decide (acc.idx = (namedUrlNames namedUrl).length), acc.kwargs⟩, .fresh) := by
  obtain ⟨fuel, hrun⟩ := stops_of_ok hwalk
  refine ⟨fuel, ?_⟩
  rw [populate_read hread, GraphState.fresh, hrun]
  rfl

theorem populate_rejected_at_once (hrejected : RejectedAtOnce graph node (namedUrlNames namedUrl)) :
    ∃ fuel result, Call.perform graph objects fuel .fresh
      (.populateNamedUrlQueryKwargs node kwargs namedUrl ignoreDigits) =
        some (result, .fresh) := by
  obtain ⟨name, hname, hne, hlength⟩ := hrejected
  have hvisit : (graph.populateHooks (namedUrlNames namedUrl)).visit node ⟨kwargs, [], 0⟩ =
      .reject ⟨kwargs, [], 0⟩ := by
    rw [visit_of_name (by rw [← List.head?_eq_getElem?]; exact hname) hne, if_pos hlength]
  obtain ⟨fuel, hrun⟩ : Stops graph.walks (graph.populateHooks (namedUrlNames namedUrl))
      ⟨fun _ => 0, [node], ⟨kwargs, [], 0⟩⟩ _ := stops_of_reject hvisit
  refine ⟨fuel, .populated (.ok ⟨false, kwargs⟩), ?_⟩
  rw [Call.perform, populate_read hread, GraphState.fresh, hrun]
  rfl

theorem populate_left
    {acc : PopulateState} (hwalk : reading graph node kwargs namedUrl = .error acc)
    (hrejected : ¬ RejectedAtOnce graph node (namedUrlNames namedUrl)) :
    ∃ fuel result state', Call.perform graph objects fuel .fresh
      (.populateNamedUrlQueryKwargs node kwargs namedUrl ignoreDigits) = some (result, state') ∧
        state'.counter node ≠ 0 := by
  have hvisit : ∀ acc', (graph.populateHooks (namedUrlNames namedUrl)).visit node
      ⟨kwargs, [], 0⟩ ≠ .reject acc' := by
    intro acc' hreject
    cases hnames : namedUrlNames namedUrl with
    | nil => exact absurd hnames (split_ne_nil _ _)
    | cons name names =>
      rw [hnames] at hreject hrejected
      by_cases hempty : name = []
      · rw [visit_of_empty (by rw [hempty]; rfl)] at hreject
        contradiction
      · rw [visit_of_name rfl hempty] at hreject
        split at hreject
        · next hlength => exact hrejected ⟨name, rfl, hempty, hlength⟩
        · contradiction
  obtain ⟨left, ⟨fuel, hrun⟩, -, hnode⟩ := stops_of_error hvisit hwalk
  refine ⟨fuel, .populated (.ok ⟨false, left.acc.kwargs⟩),
    { counter := left.counter, obj := fun _ => none }, ?_, hnode⟩
  rw [Call.perform, populate_read hread, GraphState.fresh, hrun]
  rfl

end

end Populate

/-! ## Any call -/

theorem map_run_add {S T : Type*} {hooks : Hooks Node (Link Node) S} {machine : Machine Node S}
    {f : Bool × Machine Node S → T} {ended : T}
    (hrun : (run graph.walks hooks fuel machine).map f = some ended) (more : ℕ) :
    (run graph.walks hooks (fuel + more) machine).map f = some ended := by
  obtain ⟨stopped, hstopped, rfl⟩ := Option.map_eq_some_iff.mp hrun
  rw [run_add hstopped more, Option.map_some]

theorem perform_add (hperform : call.perform graph objects fuel state = some (result, state'))
    (more : ℕ) : call.perform graph objects (fuel + more) state = some (result, state') := by
  cases call with
  | namedUrlFormat node =>
    rw [Call.perform, NamedUrlGraph.namedUrlFormat, Option.map_map] at hperform ⊢
    exact map_run_add hperform more
  | generateNamedUrl node obj =>
    rw [Call.perform, NamedUrlGraph.generateNamedUrl, Option.map_map] at hperform ⊢
    exact map_run_add hperform more
  | populateNamedUrlQueryKwargs node kwargs namedUrl ignoreDigits =>
    by_cases hread : ignoreDigits = true ∧ isPositiveNumber namedUrl ≠ some false
    · obtain ⟨declined, hdeclined⟩ : ∃ result, ∀ fuel state,
          Call.perform graph objects fuel state (.populateNamedUrlQueryKwargs node kwargs namedUrl
            ignoreDigits) = some (result, state) := populate_declined hread
      rw [hdeclined] at hperform ⊢
      exact hperform
    · rw [Call.perform, populate_read hread, Option.map_map] at hperform ⊢
      exact map_run_add hperform more

theorem perform_unique {fuel' : ℕ} {ended ended' : Result × GraphState Node Obj}
    (hperform : call.perform graph objects fuel state = some ended)
    (hperform' : call.perform graph objects fuel' state = some ended') : ended = ended' := by
  have hmore := perform_add hperform fuel'
  rw [Nat.add_comm, perform_add hperform' fuel] at hmore
  exact (Option.some.inj hmore).symm

theorem Returns.unique {result' : Result} (hreturns : Returns graph objects state call result)
    (hreturns' : Returns graph objects state call result') : result = result' := by
  obtain ⟨fuel, state', hperform⟩ := hreturns
  obtain ⟨fuel', state'', hperform'⟩ := hreturns'
  exact (Prod.mk.inj (perform_unique hperform hperform')).1

theorem perform_fresh (hunwinds : Unwinds graph call) :
    ∃ fuel result, call.perform graph objects fuel .fresh = some (result, .fresh) := by
  cases call with
  | namedUrlFormat node => exact format_fresh node
  | generateNamedUrl node obj =>
    obtain ⟨fuel, hgenerate⟩ : ∃ fuel, graph.generateNamedUrl objects fuel node obj .fresh = _ :=
      generate_fresh node obj
    exact ⟨fuel, .text _, by rw [Call.perform, hgenerate]; rfl⟩
  | populateNamedUrlQueryKwargs node kwargs namedUrl ignoreDigits =>
    by_cases hread : ignoreDigits = true ∧ isPositiveNumber namedUrl ≠ some false
    · obtain ⟨declined, hdeclined⟩ : ∃ result, ∀ fuel state,
          Call.perform graph objects fuel state (.populateNamedUrlQueryKwargs node kwargs namedUrl
            ignoreDigits) = some (result, state) := populate_declined hread
      exact ⟨0, declined, hdeclined 0 .fresh⟩
    · obtain hdeclined | hconsumed | hrejected := hunwinds
      · exact absurd hdeclined hread
      · rw [consume_eq_reading] at hconsumed
        cases hwalk : reading graph node kwargs namedUrl with
        | ok acc =>
          obtain ⟨fuel, hpopulate⟩ : ∃ fuel, graph.populateNamedUrlQueryKwargs fuel node kwargs
            namedUrl ignoreDigits (.fresh : GraphState Node Obj) = _ :=
              populate_consumed hread hwalk
          exact ⟨fuel, .populated _, by rw [Call.perform, hpopulate]; rfl⟩
        | error acc =>
          rw [hwalk] at hconsumed
          contradiction
      · exact populate_rejected_at_once hread hrejected

theorem perform_left (hunwinds : ¬ Unwinds graph call) :
    ∃ fuel result state', call.perform graph objects fuel .fresh = some (result, state') ∧
      ∃ node, state'.counter node ≠ 0 := by
  cases call with
  | namedUrlFormat node => exact absurd trivial hunwinds
  | generateNamedUrl node obj => exact absurd trivial hunwinds
  | populateNamedUrlQueryKwargs node kwargs namedUrl ignoreDigits =>
    rw [Unwinds, not_or, not_or, consume_eq_reading] at hunwinds
    obtain ⟨hread, hconsumed, hrejected⟩ := hunwinds
    cases hwalk : reading graph node kwargs namedUrl with
    | ok acc =>
      rw [hwalk] at hconsumed
      exact absurd rfl hconsumed
    | error acc =>
      obtain ⟨fuel, result, state', hperform, hcounter⟩ := populate_left hread hwalk hrejected
      exact ⟨fuel, result, state', hperform, node, hcounter⟩

theorem returns_fresh (call : Call Node Obj) : ∃ result, Returns graph objects .fresh call result := by
  by_cases hunwinds : Unwinds graph call
  · obtain ⟨fuel, result, hperform⟩ := perform_fresh hunwinds
    exact ⟨result, fuel, _, hperform⟩
  · obtain ⟨fuel, result, state', hperform, -⟩ := perform_left hunwinds
    exact ⟨result, fuel, state', hperform⟩

/-! ## Sequences of calls -/

theorem fresh_step {event : Call Node Obj × ℕ} (hunwinds : Unwinds graph event.1)
    (hstep : step graph objects .fresh event = some state) : state = .fresh := by
  obtain ⟨ended, hperform, rfl⟩ := Option.map_eq_some_iff.mp hstep
  obtain ⟨fuel, result, hfresh⟩ := perform_fresh hunwinds
  rw [perform_unique hperform hfresh]

/-- Lookups are independent in every run whose URLs are read to the end of the walk,
or are rejected before it has left its start. -/
theorem lookups_independent
    (hrun : Run (step graph objects) (fun _ event => Unwinds graph event.1) .fresh state) :
    Independent graph objects state := by
  have hfresh : state = .fresh := by
    apply hrun.invariant (fun state => state = .fresh) rfl
    rintro state event state' rfl hunwinds hstep
    exact fresh_step hunwinds hstep
  rw [hfresh]
  exact ⟨fun _ => rfl, returns_fresh, fun _ _ => Iff.rfl⟩

/-! ## A URL without an organization -/

def inventoryGraph : NamedUrlGraph Bool where
  fields _ := [['n', 'a', 'm', 'e']]
  adjList inventory := if inventory then [⟨['o', 'r', 'g'], false⟩] else []
  order inventory := inventory.toNat
  acyclic inventory link hlink := by
    cases inventory with
    | false => contradiction
    | true =>
      obtain rfl : link = _ := List.mem_singleton.mp hlink
      decide

def noObjects : Objects Unit where
  attr _ _ := none
  related _ _ := none

def organizationMissing : Call Bool Unit :=
  .populateNamedUrlQueryKwargs true [] ['a'] true

def organizationNamed : Call Bool Unit :=
  .populateNamedUrlQueryKwargs true [] ['a', '+', '+', 'o'] true

theorem unwinds_organizationNamed : Unwinds inventoryGraph organizationNamed := by
  have hnames : namedUrlNames ['a', '+', '+', 'o'] = [['a'], ['o']] := by decide
  have hinventory : consume inventoryGraph true [['a'], ['o']] =
      consume inventoryGraph false [['o']] >>= pure := consume_cons true _ _
  have horganization : consume inventoryGraph false [['o']] = some [] := consume_cons false _ _
  right
  left
  rw [hnames, hinventory, horganization]
  rfl

theorem lookups_independent_inventory :
    ∃ state, Run (step inventoryGraph noObjects) (fun _ event => Unwinds inventoryGraph event.1)
      .fresh state ∧ Independent inventoryGraph noObjects state := by
  obtain ⟨fuel, result, hperform⟩ :
      ∃ fuel result, organizationNamed.perform inventoryGraph noObjects fuel .fresh =
        some (result, .fresh) := perform_fresh unwinds_organizationNamed
  have hstep : step inventoryGraph noObjects .fresh (organizationNamed, fuel) = some .fresh := by
    rw [step, hperform, Option.map_some]
  exact ⟨_, .next (organizationNamed, fuel) .start unwinds_organizationNamed hstep,
    lookups_independent (.next (organizationNamed, fuel) .start unwinds_organizationNamed hstep)⟩

theorem counter_left_behind :
    ¬ ∀ (Node Obj : Type) [DecidableEq Node] (graph : NamedUrlGraph Node) (objects : Objects Obj)
      (state : GraphState Node Obj), Run (step graph objects) (fun _ _ => True) .fresh state →
        Independent graph objects state := by
  intro hclaim
  have hcalls : ([(organizationMissing, 5)].foldlM (step inventoryGraph noObjects)
      .fresh).any (fun state => decide (state.counter true = 1)) = true := by decide
  obtain ⟨state, hrun, hcounter⟩ := exists_run_of_any _ hcalls
  have hzero := (hclaim Bool Unit inventoryGraph noObjects state hrun).counters true
  rw [of_decide_eq_true hcounter] at hzero
  contradiction

end Forail.NamedUrl

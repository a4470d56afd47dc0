import Mathlib.Data.List.Basic
import Mathlib.Data.Nat.Basic
import Mathlib.Logic.Function.Basic
import Mathlib.Order.Basic

/-!
# Walks over a graph with a counter at every node

A walk keeps its place on a stack and, for each node on it, a counter of the links
already taken.  On counters at zero it is the recursion over the links, and brings
every counter back to zero; a walk that is rejected below its start leaves counters
behind.
-/

namespace Forail.StackWalk

structure Graph (Node Link : Type*) where
  links : Node → List Link
  target : Link → Node
  order : Node → ℕ
  acyclic : ∀ node, ∀ link ∈ links node, order (target link) < order node

inductive Visit (S : Type*) where
  | reject (acc : S)
  | pass (acc : S)
  | descend (acc : S)

/-- What a walk does at a node that it sees for the first time, at a link (which it
may leave out), and when no link is left. -/
structure Hooks (Node Link S : Type*) where
  visit : Node → S → Visit S
  enter : Node → Link → S → Bool × S
  leave : Node → S → S

structure Machine (Node S : Type*) where
  counter : Node → ℕ
  stack : List Node
  acc : S

variable {Node Link S : Type*} (graph : Graph Node Link) (hooks : Hooks Node Link S)

section Definitions

variable [DecidableEq Node]

/-- Takes the next link of the node on top, or leaves the node. -/
def advance (counter : Node → ℕ) (top : Node) (rest : List Node) (acc : S) :
    Machine Node S :=
  match (graph.links top)[counter top]? with
  | none => ⟨Function.update counter top 0, rest, hooks.leave top acc⟩
  | some link =>
      let counter := Function.update counter top (counter top + 1)
      match hooks.enter top link acc with
      | (true, acc) => ⟨counter, graph.target link :: top :: rest, acc⟩
      | (false, acc) => ⟨counter, top :: rest, acc⟩

/-- One turn of the loop; an error ends the walk. -/
def turn (counter : Node → ℕ) (top : Node) (rest : List Node) (acc : S) :
    Except (Machine Node S) (Machine Node S) :=
  if counter top = 0 then
    match hooks.visit top acc with
    | .reject acc => .error ⟨counter, top :: rest, acc⟩
    | .pass acc => .ok ⟨Function.update counter top 0, rest, acc⟩
    | .descend acc => .ok (advance graph hooks counter top rest acc)
  else .ok (advance graph hooks counter top rest acc)

/-- Whether the walk comes to its end, with the state it leaves. -/
def run : ℕ → Machine Node S → Option (Bool × Machine Node S)
  | _, ⟨counter, [], acc⟩ => some (true, ⟨counter, [], acc⟩)
  | 0, _ => none
  | fuel + 1, ⟨counter, top :: rest, acc⟩ =>
      match turn graph hooks counter top rest acc with
      | .error machine => some (false, machine)
      | .ok machine => run fuel machine

end Definitions

def walk (node : Node) (acc : S) : Except S S :=
  match hooks.visit node acc with
  | .reject acc => .error acc
  | .pass acc => .ok acc
  | .descend acc =>
      let links : Except S S := @List.foldlM (Except S) _ S {link // link ∈ graph.links node}
        (fun acc link =>
          match hooks.enter node link.1 acc with
          | (true, acc) => walk (graph.target link.1) acc
          | (false, acc) => .ok acc) acc (graph.links node).attach
      links.map (hooks.leave node)
termination_by graph.order node
decreasing_by exact graph.acyclic node link.1 link.2

def walkLink (node : Node) (acc : S) (link : Link) : Except S S :=
  match hooks.enter node link acc with
  | (true, acc) => walk graph hooks (graph.target link) acc
  | (false, acc) => .ok acc

def walkLinks (node : Node) (links : List Link) (acc : S) : Except S S :=
  @List.foldlM (Except S) _ S Link (walkLink graph hooks node) acc links

theorem walk_eq (node : Node) (acc : S) :
    walk graph hooks node acc =
      match hooks.visit node acc with
      | .reject acc => .error acc
      | .pass acc => .ok acc
      | .descend acc =>
          (walkLinks graph hooks node (graph.links node) acc).map (hooks.leave node) := by
  rw [walk]
  cases hooks.visit node acc with
  | reject acc => rfl
  | pass acc => rfl
  | descend acc =>
    simp only [walkLinks]
    congr 1
    calc List.foldlM _ acc (graph.links node).attach =
        List.foldlM (walkLink graph hooks node) acc (graph.links node).attach.unattach :=
          List.foldlM_subtype fun _ _ _ => rfl
      _ = List.foldlM (walkLink graph hooks node) acc (graph.links node) := by
          rw [List.unattach_attach]

variable {graph hooks} in
theorem exists_walk_ok (hvisit : ∀ node acc acc', hooks.visit node acc ≠ .reject acc') (node : Node)
    (acc : S) : ∃ acc', walk graph hooks node acc = .ok acc' := by
  have hlinks : ∀ links : List Link, (∀ link ∈ links, link ∈ graph.links node) →
      ∀ acc, ∃ acc', walkLinks graph hooks node links acc = .ok acc' := by
    intro links
    induction links with
    | nil => exact fun _ acc => ⟨acc, rfl⟩
    | cons link links ih =>
      intro hsub acc
      have hlink : ∃ acc', walkLink graph hooks node acc link = .ok acc' := by
        rw [walkLink]
        cases hooks.enter node link acc with
        | mk push acc =>
          cases push with
          | false => exact ⟨acc, rfl⟩
          | true =>
            have horder := graph.acyclic node link (hsub link List.mem_cons_self)
            exact exists_walk_ok hvisit (graph.target link) acc
      obtain ⟨acc', hacc⟩ := hlink
      rw [walkLinks, List.foldlM_cons, hacc]
      exact ih (fun other hother => hsub other (List.mem_cons_of_mem _ hother)) acc'
  rw [walk_eq]
  cases hfirst : hooks.visit node acc with
  | reject acc' => exact absurd hfirst (hvisit node acc acc')
  | pass acc' => exact ⟨acc', rfl⟩
  | descend acc' =>
    obtain ⟨acc'', hacc⟩ := hlinks (graph.links node) (fun _ hlink => hlink) acc'
    exact ⟨hooks.leave node acc'', by simp only [hacc]; rfl⟩
termination_by graph.order node

/-! ## The machine carries out the recursion -/

variable [DecidableEq Node]

/-- The machine comes from one state to the other. -/
def Leads (machine machine' : Machine Node S) : Prop :=
  ∃ turns, ∀ fuel, run graph hooks (fuel + turns) machine = run graph hooks fuel machine'

/-- The machine stops in a state, at its end or rejected. -/
def Stops (machine : Machine Node S) (result : Bool × Machine Node S) : Prop :=
  ∃ fuel, run graph hooks fuel machine = some result

variable {graph hooks} {machine machine' machine'' : Machine Node S}
  {counter : Node → ℕ} {node top : Node} {rest : List Node} {acc acc' : S}
  {result result' : Bool × Machine Node S}

theorem Leads.refl : Leads graph hooks machine machine := ⟨0, fun _ => rfl⟩

theorem Leads.trans (hfirst : Leads graph hooks machine machine')
    (hsecond : Leads graph hooks machine' machine'') : Leads graph hooks machine machine'' := by
  obtain ⟨first, hfirst⟩ := hfirst
  obtain ⟨second, hsecond⟩ := hsecond
  refine ⟨second + first, fun fuel => ?_⟩
  rw [← Nat.add_assoc, hfirst, hsecond]

theorem Leads.of_turn (hturn : turn graph hooks counter top rest acc = .ok machine) :
    Leads graph hooks ⟨counter, top :: rest, acc⟩ machine := by
  refine ⟨1, fun fuel => ?_⟩
  rw [run, hturn]

theorem Leads.stops (hleads : Leads graph hooks machine machine')
    (hstops : Stops graph hooks machine' result) : Stops graph hooks machine result := by
  obtain ⟨turns, hturns⟩ := hleads
  obtain ⟨fuel, hfuel⟩ := hstops
  exact ⟨fuel + turns, (hturns fuel).trans hfuel⟩

theorem Stops.of_reject (hturn : turn graph hooks counter top rest acc = .error machine) :
    Stops graph hooks ⟨counter, top :: rest, acc⟩ (false, machine) := by
  refine ⟨1, ?_⟩
  rw [run, hturn]

theorem stops_nil : Stops graph hooks ⟨counter, [], acc⟩ (true, ⟨counter, [], acc⟩) :=
  ⟨0, by rw [run]⟩

theorem run_add {fuel : ℕ} (hrun : run graph hooks fuel machine = some result) (more : ℕ) :
    run graph hooks (fuel + more) machine = some result := by
  induction fuel generalizing machine with
  | zero =>
    obtain ⟨counter, stack, acc⟩ := machine
    cases stack with
    | nil => rw [run] at hrun ⊢; exact hrun
    | cons top rest => simp [run] at hrun
  | succ fuel ih =>
    obtain ⟨counter, stack, acc⟩ := machine
    rw [Nat.add_right_comm]
    cases stack with
    | nil => rw [run] at hrun ⊢; exact hrun
    | cons top rest =>
      rw [run] at hrun ⊢
      cases hturn : turn graph hooks counter top rest acc with
      | error machine => simpa only [hturn] using hrun
      | ok machine =>
        simp only [hturn] at hrun ⊢
        exact ih hrun

/-! ### One node -/

/-- The counters from a node downwards are at zero. -/
def Clear (graph : Graph Node Link) (counter : Node → ℕ) (node : Node) : Prop :=
  ∀ other, graph.order other ≤ graph.order node → counter other = 0

theorem Clear.update {link : Link} (hclear : Clear graph counter node)
    (hlink : link ∈ graph.links node) (count : ℕ) :
    Clear graph (Function.update counter node count) (graph.target link) := by
  intro other horder
  have hlower := horder.trans_lt (graph.acyclic node link hlink)
  have hne : other ≠ node := fun heq => (heq ▸ hlower).false
  rw [Function.update_of_ne hne]
  exact hclear other hlower.le

/-- The machine comes to the state `ended` with the result of the recursion, or it
rejects with that result, in a state `left` in which it has not touched the counters
above the node. -/
def Carries (graph : Graph Node Link) (hooks : Hooks Node Link S) (counter : Node → ℕ)
    (node : Node) (rest : List Node) (left : Machine Node S → Prop)
    (machine : Machine Node S) : Except S S → Prop
  | .ok acc => Leads graph hooks machine ⟨counter, rest, acc⟩
  | .error acc => ∃ machine', Stops graph hooks machine (false, machine') ∧
      machine'.acc = acc ∧ left machine' ∧
      ∀ other, graph.order node < graph.order other → machine'.counter other = counter other

theorem Carries.of_leads {left : Machine Node S → Prop} {ended : Except S S}
    (hcarries : Carries graph hooks counter node rest left machine' ended)
    (hleads : Leads graph hooks machine machine') :
    Carries graph hooks counter node rest left machine ended := by
  cases ended with
  | ok acc => exact hleads.trans hcarries
  | error acc =>
    obtain ⟨left, hstops, hleft⟩ := hcarries
    exact ⟨left, hleads.stops hstops, hleft⟩

theorem turn_of_visited (hcounter : counter top ≠ 0) :
    turn graph hooks counter top rest acc = .ok (advance graph hooks counter top rest acc) :=
  if_neg hcounter

/-- The machine carries out the recursion at a node. -/
def WalksAt (graph : Graph Node Link) (hooks : Hooks Node Link S) (node : Node) : Prop :=
  ∀ counter rest acc, Clear graph counter node →
    Carries graph hooks counter node rest (fun _ => True) ⟨counter, node :: rest, acc⟩
      (walk graph hooks node acc)

section Links

variable {done more : List Link} {link : Link}

theorem advance_nil (hlinks : graph.links node = done) (hzero : counter node = 0) :
    advance graph hooks (Function.update counter node done.length) node rest acc =
      ⟨counter, rest, hooks.leave node acc⟩ := by
  have hnone : (graph.links node)[Function.update counter node done.length node]? = none := by
    rw [Function.update_self, hlinks]
    exact List.getElem?_eq_none le_rfl
  rw [advance, hnone]
  simp only [Function.update_idem]
  rw [← hzero, Function.update_eq_self]

theorem advance_cons (hlinks : graph.links node = done ++ link :: more) :
    advance graph hooks (Function.update counter node done.length) node rest acc =
      ⟨Function.update counter node (done.length + 1),
        if (hooks.enter node link acc).1 then graph.target link :: node :: rest
          else node :: rest,
        (hooks.enter node link acc).2⟩ := by
  have hsome : (graph.links node)[Function.update counter node done.length node]? =
      some link := by
    rw [Function.update_self, hlinks]
    simp
  rw [advance, hsome]
  simp only [Function.update_idem, Function.update_self]
  cases hooks.enter node link acc with
  | mk push acc => cases push <;> rfl

theorem carries_link (hwalks : ∀ link ∈ graph.links node, WalksAt graph hooks (graph.target link))
    (hclear : Clear graph counter node) (hlinks : graph.links node = done ++ link :: more) :
    Carries graph hooks (Function.update counter node (done.length + 1)) node (node :: rest)
      (fun left => left.counter node ≠ 0)
      (advance graph hooks (Function.update counter node done.length) node rest acc)
      (walkLink graph hooks node acc link) := by
  have hmem : link ∈ graph.links node := by
    rw [hlinks]
    exact List.mem_append_right _ List.mem_cons_self
  rw [advance_cons hlinks, walkLink]
  cases hooks.enter node link acc with
  | mk push acc =>
    cases push with
    | false => exact Leads.refl
    | true =>
      have hchild := hwalks link hmem (Function.update counter node (done.length + 1))
        (node :: rest) acc (hclear.update hmem _)
      simp only [if_true]
      cases hwalk : walk graph hooks (graph.target link) acc with
      | ok acc' => rwa [hwalk] at hchild
      | error acc' =>
        rw [hwalk] at hchild
        obtain ⟨left, hstops, hacc, -, habove⟩ := hchild
        have hnode := habove node (graph.acyclic node link hmem)
        rw [Function.update_self] at hnode
        refine ⟨left, hstops, hacc, ?_, fun other hother => habove other
          ((graph.acyclic node link hmem).trans hother)⟩
        exact hnode.trans_ne (Nat.succ_ne_zero _)

theorem carries_links
    (hwalks : ∀ link ∈ graph.links node, WalksAt graph hooks (graph.target link))
    (hclear : Clear graph counter node) (hlinks : graph.links node = done ++ more) :
    Carries graph hooks counter node rest (fun left => left.counter node ≠ 0)
      (advance graph hooks (Function.update counter node done.length) node rest acc)
      ((walkLinks graph hooks node more acc).map (hooks.leave node)) := by
  induction more generalizing done acc with
  | nil =>
    rw [List.append_nil] at hlinks
    rw [advance_nil hlinks (hclear node le_rfl)]
    exact Leads.refl
  | cons link more ih =>
    have hnext : graph.links node = (done ++ [link]) ++ more := by
      rw [hlinks, List.append_assoc, List.singleton_append]
    have hfirst : Carries graph hooks (Function.update counter node (done.length + 1)) node
        (node :: rest) (fun left => left.counter node ≠ 0)
        (advance graph hooks (Function.update counter node done.length) node rest acc)
        (walkLink graph hooks node acc link) := carries_link hwalks hclear hlinks
    rw [walkLinks, List.foldlM_cons]
    cases hlink : walkLink graph hooks node acc link with
    | error acc' =>
      rw [hlink] at hfirst
      obtain ⟨left, hstops, hacc, hnode, habove⟩ := hfirst
      refine ⟨left, hstops, hacc, hnode, fun other hother => ?_⟩
      rw [habove other hother, Function.update_of_ne]
      exact fun heq => (heq ▸ hother).false
    | ok acc' =>
      rw [hlink] at hfirst
      have hturn : Leads graph hooks
          ⟨Function.update counter node (done.length + 1), node :: rest, acc'⟩
          (advance graph hooks (Function.update counter node (done ++ [link]).length) node
            rest acc') := by
        rw [List.length_append, List.length_singleton]
        apply Leads.of_turn
        apply turn_of_visited
        rw [Function.update_self]
        exact Nat.succ_ne_zero _
      exact (ih hnext).of_leads (hfirst.trans hturn)

end Links

/-! ### The whole walk -/

theorem turn_of_reject (hcounter : counter top = 0) (hvisit : hooks.visit top acc = .reject acc') :
    turn graph hooks counter top rest acc = .error ⟨counter, top :: rest, acc'⟩ := by
  rw [turn, if_pos hcounter, hvisit]

theorem turn_of_pass (hcounter : counter top = 0) (hvisit : hooks.visit top acc = .pass acc') :
    turn graph hooks counter top rest acc = .ok ⟨counter, rest, acc'⟩ := by
  rw [turn, if_pos hcounter, hvisit]
  simp only [← hcounter, Function.update_eq_self]

theorem turn_of_descend (hcounter : counter top = 0)
    (hvisit : hooks.visit top acc = .descend acc') :
    turn graph hooks counter top rest acc =
      .ok (advance graph hooks (Function.update counter top 0) top rest acc') := by
  rw [turn, if_pos hcounter, hvisit]
  simp only [← hcounter, Function.update_eq_self]

theorem carries_descend
    (hwalks : ∀ link ∈ graph.links node, WalksAt graph hooks (graph.target link))
    (hclear : Clear graph counter node) (hvisit : hooks.visit node acc = .descend acc') :
    Carries graph hooks counter node rest (fun left => left.counter node ≠ 0)
      ⟨counter, node :: rest, acc⟩ (walk graph hooks node acc) := by
  have hlinks : Carries graph hooks counter node rest (fun left => left.counter node ≠ 0)
      (advance graph hooks (Function.update counter node ([] : List Link).length) node rest acc')
      ((walkLinks graph hooks node (graph.links node) acc').map (hooks.leave node)) :=
    carries_links hwalks hclear rfl
  rw [walk_eq, hvisit]
  exact hlinks.of_leads (.of_turn (turn_of_descend (hclear node le_rfl) hvisit))

theorem walksAt (node : Node) : WalksAt graph hooks node := by
  intro counter rest acc hclear
  have hwalks : ∀ link ∈ graph.links node, WalksAt graph hooks (graph.target link) :=
    fun link hlink => walksAt (graph.target link)
  have hzero := hclear node le_rfl
  cases hvisit : hooks.visit node acc with
  | reject acc' =>
    rw [walk_eq, hvisit]
    exact ⟨_, .of_reject (turn_of_reject hzero hvisit), rfl, trivial, fun _ _ => rfl⟩
  | pass acc' =>
    rw [walk_eq, hvisit]
    exact .of_turn (turn_of_pass hzero hvisit)
  | descend acc' =>
    have hcarries : Carries graph hooks counter node rest (fun left => left.counter node ≠ 0)
        ⟨counter, node :: rest, acc⟩ (walk graph hooks node acc) :=
      carries_descend hwalks hclear hvisit
    cases hwalk : walk graph hooks node acc with
    | ok acc' => rwa [hwalk] at hcarries
    | error acc' =>
      rw [hwalk] at hcarries
      obtain ⟨left, hstops, hacc, -, habove⟩ := hcarries
      exact ⟨left, hstops, hacc, trivial, habove⟩
termination_by graph.order node
decreasing_by exact graph.acyclic node link hlink

/-! ### Walks on counters at zero -/

theorem stops_of_ok (hwalk : walk graph hooks node acc = .ok acc') :
    Stops graph hooks ⟨fun _ => 0, [node], acc⟩ (true, ⟨fun _ => 0, [], acc'⟩) := by
  have hwalks : Carries graph hooks (fun _ => 0) node [] (fun _ => True) ⟨fun _ => 0, [node], acc⟩
      (walk graph hooks node acc) := walksAt node (fun _ => 0) [] acc fun _ _ => rfl
  rw [hwalk] at hwalks
  exact Leads.stops hwalks stops_nil

theorem stops_of_reject (hvisit : hooks.visit node acc = .reject acc') :
    Stops graph hooks ⟨fun _ => 0, [node], acc⟩ (false, ⟨fun _ => 0, [node], acc'⟩) :=
  .of_reject (turn_of_reject rfl hvisit)

theorem stops_of_error (hvisit : ∀ acc', hooks.visit node acc ≠ .reject acc')
    (hwalk : walk graph hooks node acc = .error acc') :
    ∃ left, Stops graph hooks ⟨fun _ => 0, [node], acc⟩ (false, left) ∧ left.acc = acc' ∧
      left.counter node ≠ 0 := by
  cases hfirst : hooks.visit node acc with
  | reject acc => exact absurd hfirst (hvisit acc)
  | pass acc =>
    rw [walk_eq, hfirst] at hwalk
    contradiction
  | descend acc =>
    have hcarries : Carries graph hooks (fun _ => 0) node [] (fun left => left.counter node ≠ 0) _ _ :=
      carries_descend (fun link _ => walksAt (graph.target link)) (fun _ _ => rfl) hfirst
    rw [hwalk] at hcarries
    obtain ⟨left, hstops, hacc, hnode, -⟩ := hcarries
    exact ⟨left, hstops, hacc, hnode⟩

end Forail.StackWalk

import Forail.Utils.NamedUrlGraph

/-!
# What the walks over the graph do

Generating a URL writes one component for each object along the graph, and an empty
one where a foreign key is null.  Reading a URL takes the components in the same
order.
-/

namespace Forail.NamedUrl

open Forail.Texts Forail.StackWalk

variable {Node Obj : Type*} (graph : NamedUrlGraph Node) (objects : Objects Obj)

/-! ## Generating -/

def fieldTexts (node : Node) (obj : Obj) : List Text :=
  (graph.fields node).map (objects.field (some obj))

/-- The fields of an object and of those that it belongs to; a null link has none. -/
def valueLists (node : Node) (obj : Obj) : List (List Text) :=
  fieldTexts graph objects node obj ::
    (graph.adjList node).attach.flatMap fun link =>
      match objects.related obj link.1.fkName with
      | some nextObj => valueLists link.1.nextNode nextObj
      | none => [[]]
termination_by graph.order node
decreasing_by exact graph.acyclic node link.1 link.2

def linkValues (obj : Obj) (link : Link Node) : List (List Text) :=
  match objects.related obj link.fkName with
  | some nextObj => valueLists graph objects link.nextNode nextObj
  | none => [[]]

theorem valueLists_eq (node : Node) (obj : Obj) :
    valueLists graph objects node obj =
      fieldTexts graph objects node obj ::
        (graph.adjList node).flatMap (linkValues graph objects obj) := by
  rw [valueLists]
  congr 1
  calc (graph.adjList node).attach.flatMap _ =
      (graph.adjList node).attach.unattach.flatMap (linkValues graph objects obj) :=
        List.flatMap_subtype fun _ _ => rfl
    _ = (graph.adjList node).flatMap (linkValues graph objects obj) := by
        rw [List.unattach_attach]

def joinFields (encode : Text → Text) (values : List Text) : Text :=
  namedUrlResInnerDilimiter.intercalate (values.map encode)

def components (node : Node) (obj : Obj) : List Text :=
  (valueLists graph objects node obj).map (joinFields encodeUri)

variable {graph objects}

section Generate

variable [DecidableEq Node] {node : Node} {obj : Obj}

def Vacant (graph : NamedUrlGraph Node) (obj : Node → Option Obj) (node : Node) : Prop :=
  ∀ other, graph.order other < graph.order node → obj other = none

theorem walkLinks_generate {links : List (Link Node)} {acc : GenerateState Node Obj}
    (hchild : ∀ link ∈ links, ∀ nextObj (acc : GenerateState Node Obj),
      acc.obj link.nextNode = some nextObj → Vacant graph acc.obj link.nextNode →
        walk graph.walks (graph.generateHooks objects) link.nextNode acc =
          .ok ⟨Function.update acc.obj link.nextNode none,
            acc.namedUrl ++ components graph objects link.nextNode nextObj⟩)
    (hlinks : ∀ link ∈ links, graph.order link.nextNode < graph.order node)
    (hobj : acc.obj node = some obj) (hvacant : Vacant graph acc.obj node) :
    walkLinks graph.walks (graph.generateHooks objects) node links acc =
      .ok ⟨acc.obj, acc.namedUrl ++
        (links.flatMap (linkValues graph objects obj)).map (joinFields encodeUri)⟩ := by
  induction links generalizing acc with
  | nil =>
    rw [List.flatMap_nil, List.map_nil, List.append_nil]
    rfl
  | cons link links ih =>
    have horder := hlinks link List.mem_cons_self
    have hlink : walkLink graph.walks (graph.generateHooks objects) node acc link =
        .ok ⟨acc.obj, acc.namedUrl ++
          (linkValues graph objects obj link).map (joinFields encodeUri)⟩ := by
      rw [walkLink, NamedUrlGraph.generateHooks, linkValues]
      simp only [hobj, Option.bind_some]
      cases objects.related obj link.fkName with
      | none => rfl
      | some nextObj =>
        have hnext : Vacant graph (Function.update acc.obj link.nextNode (some nextObj))
            link.nextNode := by
          intro other hother
          rw [Function.update_of_ne fun heq => (heq ▸ hother).false]
          exact hvacant other (hother.trans horder)
        have hwalk := hchild link List.mem_cons_self nextObj
          ⟨Function.update acc.obj link.nextNode (some nextObj), acc.namedUrl⟩
          (Function.update_self _ _ _) hnext
        rw [Function.update_idem, ← hvacant link.nextNode horder, Function.update_eq_self] at hwalk
        exact hwalk
    rw [walkLinks, List.foldlM_cons, hlink, List.flatMap_cons, List.map_append,
      ← List.append_assoc]
    exact ih (fun other hother => hchild other (List.mem_cons_of_mem _ hother))
      (fun other hother => hlinks other (List.mem_cons_of_mem _ hother)) hobj hvacant

theorem walk_generate (node : Node) (obj : Obj) (acc : GenerateState Node Obj)
    (hobj : acc.obj node = some obj) (hvacant : Vacant graph acc.obj node) :
    walk graph.walks (graph.generateHooks objects) node acc =
      .ok ⟨Function.update acc.obj node none, acc.namedUrl ++ components graph objects node obj⟩ := by
  have hvisit : (graph.generateHooks objects).visit node acc =
      .descend ⟨acc.obj, acc.namedUrl ++ [joinFields encodeUri (fieldTexts graph objects node obj)]⟩ := by
    rw [NamedUrlGraph.generateHooks, joinFields, fieldTexts, List.map_map]
    simp only [hobj]
    rfl
  have hlinks : walkLinks graph.walks (graph.generateHooks objects) node (graph.adjList node)
      ⟨acc.obj, acc.namedUrl ++ [joinFields encodeUri (fieldTexts graph objects node obj)]⟩ =
        .ok ⟨acc.obj, acc.namedUrl ++ [joinFields encodeUri (fieldTexts graph objects node obj)] ++
          ((graph.adjList node).flatMap (linkValues graph objects obj)).map
            (joinFields encodeUri)⟩ :=
    walkLinks_generate (fun link hlink nextObj acc => walk_generate link.nextNode nextObj acc)
      (graph.acyclic node) hobj hvacant
  rw [walk_eq, hvisit, components, valueLists_eq]
  simp only [NamedUrlGraph.walks] at hlinks ⊢
  rw [hlinks, List.append_assoc, List.singleton_append]
  rfl
termination_by graph.order node
decreasing_by exact graph.acyclic node link hlink

end Generate

/-! ## Reading -/

/-- What is left of the components after those of a node and, unless its own one is
empty, of the nodes that it links to. -/
def consume (graph : NamedUrlGraph Node) (node : Node) : List Text → Option (List Text)
  | [] => none
  | name :: names =>
      if name = [] then some names
      else if (split namedUrlResInnerDilimiter name).length ≠ (graph.fields node).length then none
      else
        (graph.adjList node).attach.foldlM (fun names link => consume graph link.1.nextNode names)
          names
termination_by graph.order node
decreasing_by exact graph.acyclic node link.1 link.2

def consumeLinks (graph : NamedUrlGraph Node) (links : List (Link Node)) (names : List Text) :
    Option (List Text) :=
  links.foldlM (fun names link => consume graph link.nextNode names) names

theorem consume_cons (node : Node) (name : Text) (names : List Text) :
    consume graph node (name :: names) =
      if name = [] then some names
      else if (split namedUrlResInnerDilimiter name).length ≠ (graph.fields node).length then none
      else consumeLinks graph (graph.adjList node) names := by
  have hlinks : (graph.adjList node).attach.foldlM
      (fun names link => consume graph link.1.nextNode names) names =
        consumeLinks graph (graph.adjList node) names := by
    calc (graph.adjList node).attach.foldlM _ names =
        (graph.adjList node).attach.unattach.foldlM
          (fun names link => consume graph link.nextNode names) names :=
          List.foldlM_subtype fun _ _ _ => rfl
      _ = consumeLinks graph (graph.adjList node) names := by
          rw [List.unattach_attach, consumeLinks]
  rw [consume, hlinks]

section Visit

variable {names : List Text} {node : Node} {acc : PopulateState} {name : Text}

theorem visit_of_end (hend : names[acc.idx]? = none) :
    (graph.populateHooks names).visit node acc = .reject acc := by
  simp only [NamedUrlGraph.populateHooks, hend]

theorem visit_of_empty (hempty : names[acc.idx]? = some []) :
    (graph.populateHooks names).visit node acc =
      .pass { acc with prefixes := acc.prefixes.dropLast, idx := acc.idx + 1 } := by
  simp only [NamedUrlGraph.populateHooks, hempty]

theorem visit_of_name (hname : names[acc.idx]? = some name) (hne : name ≠ []) :
    (graph.populateHooks names).visit node acc =
      if (split namedUrlResInnerDilimiter name).length ≠ (graph.fields node).length then .reject acc
      else
        .descend { acc with
          kwargs := acc.kwargs.setFields acc.prefixes (graph.fields node)
            (split namedUrlResInnerDilimiter name)
          idx := acc.idx + 1 } := by
  cases name with
  | nil => contradiction
  | cons char name => simp only [NamedUrlGraph.populateHooks, hname]

end Visit

def remaining (names : List Text) (ended : Except PopulateState PopulateState) :
    Option (List Text) :=
  ended.toOption.map fun acc => names.drop acc.idx

variable {names : List Text}

theorem remaining_map {names : List Text} {f : PopulateState → PopulateState}
    (hf : ∀ acc, (f acc).idx = acc.idx) (ended : Except PopulateState PopulateState) :
    remaining names (ended.map f) = remaining names ended := by
  cases ended with
  | error acc => rfl
  | ok acc => exact congrArg (fun idx => some (names.drop idx)) (hf acc)

theorem remaining_walkLinks {node : Node} {links : List (Link Node)} {acc : PopulateState}
    (hchild : ∀ link ∈ links, ∀ acc,
      remaining names (walk graph.walks (graph.populateHooks names) link.nextNode acc) =
        consume graph link.nextNode (names.drop acc.idx)) :
    remaining names (walkLinks graph.walks (graph.populateHooks names) node links acc) =
      consumeLinks graph links (names.drop acc.idx) := by
  induction links generalizing acc with
  | nil => rfl
  | cons link links ih =>
    have hlink := hchild link List.mem_cons_self
      { acc with prefixes := acc.prefixes ++ [link.fkName] }
    have hwalk : walkLink graph.walks (graph.populateHooks names) node acc link =
        walk graph.walks (graph.populateHooks names) link.nextNode
          { acc with prefixes := acc.prefixes ++ [link.fkName] } := rfl
    rw [walkLinks, List.foldlM_cons, hwalk, consumeLinks, List.foldlM_cons, ← hlink]
    cases walk graph.walks (graph.populateHooks names) link.nextNode
      { acc with prefixes := acc.prefixes ++ [link.fkName] } with
    | error acc' => rfl
    | ok acc' => exact ih fun other hother => hchild other (List.mem_cons_of_mem _ hother)

theorem drop_of_getElem?_eq_some {idx : ℕ} {name : Text} (hname : names[idx]? = some name) :
    names.drop idx = name :: names.drop (idx + 1) := by
  obtain ⟨hidx, rfl⟩ := List.getElem?_eq_some_iff.mp hname
  exact List.drop_eq_getElem_cons hidx

theorem remaining_walk (node : Node) (acc : PopulateState) :
    remaining names (walk graph.walks (graph.populateHooks names) node acc) =
      consume graph node (names.drop acc.idx) := by
  have hlinks : ∀ acc, remaining names
      (walkLinks graph.walks (graph.populateHooks names) node (graph.adjList node) acc) =
        consumeLinks graph (graph.adjList node) (names.drop acc.idx) := fun acc =>
    remaining_walkLinks fun link hlink acc => remaining_walk link.nextNode acc
  have hleave : ∀ ended, remaining names (ended.map ((graph.populateHooks names).leave node)) =
      remaining names ended := remaining_map fun _ => rfl
  rw [walk_eq]
  cases hname : names[acc.idx]? with
  | none =>
    rw [visit_of_end hname, List.drop_eq_nil_of_le (List.getElem?_eq_none_iff.mp hname), consume]
    rfl
  | some name =>
    rw [drop_of_getElem?_eq_some hname, consume_cons]
    by_cases hempty : name = []
    · rw [if_pos hempty, visit_of_empty (hempty ▸ hname)]
      rfl
    · rw [if_neg hempty, visit_of_name hname hempty]
      by_cases hlength : (split namedUrlResInnerDilimiter name).length ≠
          (graph.fields node).length
      · rw [if_pos hlength, if_pos hlength]
        rfl
      · rw [if_neg hlength, if_neg hlength]
        exact (hleave _).trans (hlinks _)
termination_by graph.order node
decreasing_by exact graph.acyclic node link hlink

end Forail.NamedUrl

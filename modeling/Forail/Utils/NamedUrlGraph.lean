import Forail.Core.PercentDecoding
import Forail.Core.StackWalk

/-!
# Named URLs

The named URL of an object lists the fields that identify it and, along the graph of
foreign keys, those of the objects that it belongs to.  Generating a URL, writing its
format and reading one back are three walks over the same graph, which keep their
counters on the nodes.
-/

namespace Forail.NamedUrl

open Forail.Texts Forail.PercentDecoding Forail.StackWalk

def namedUrlResDilimiter : Text := ['+', '+']

def namedUrlResInnerDilimiter : Text := ['+']

def namedUrlResDilimiterEncode : Text := ['%', '2', 'B']

def bracketed : Text := ['['] ++ namedUrlResInnerDilimiter ++ [']']

def urlPathReservedCharset : List (Char × Text) :=
  [(';', ['%', '3', 'B']), ('/', ['%', '2', 'F']), ('?', ['%', '3', 'F']),
    (':', ['%', '3', 'A']), ('@', ['%', '4', '0']), ('=', ['%', '3', 'D']),
    ('&', ['%', '2', '6']), ('[', ['%', '5', 'B']), (']', ['%', '5', 'D'])]

structure Link (Node : Type*) where
  fkName : Text
  nextNode : Node

/-- `GraphNode`s; the list of a node holds nodes that were made before it. -/
structure NamedUrlGraph (Node : Type*) where
  fields : Node → List Text
  adjList : Node → List (Link Node)
  order : Node → ℕ
  acyclic : ∀ node, ∀ link ∈ adjList node, order link.nextNode < order node

structure Objects (Obj : Type*) where
  attr : Obj → Text → Option Text
  related : Obj → Text → Option Obj

structure GraphState (Node Obj : Type*) where
  counter : Node → ℕ
  obj : Node → Option Obj

def GraphState.fresh {Node Obj : Type*} : GraphState Node Obj where
  counter _ := 0
  obj _ := none

namespace NamedUrlGraph

variable {Node Obj : Type*} [DecidableEq Node] (graph : NamedUrlGraph Node)

def walks : StackWalk.Graph Node (Link Node) where
  links := graph.adjList
  target := Link.nextNode
  order := graph.order
  acyclic := graph.acyclic

/-! ## `named_url_format` -/

structure FormatState where
  components : List Text
  currentFkName : Text

def formatHooks : Hooks Node (Link Node) FormatState where
  visit node acc :=
    let component := namedUrlResInnerDilimiter.intercalate
      ((graph.fields node).map fun field => ['<'] ++ acc.currentFkName ++ field ++ ['>'])
    .descend { acc with components := acc.components ++ [component] }
  enter _ link acc := (true, { acc with currentFkName := link.fkName ++ ['.'] })
  leave _ acc := acc

def namedUrlFormat (fuel : ℕ) (node : Node) (state : GraphState Node Obj) :
    Option (Text × GraphState Node Obj) :=
  (run graph.walks graph.formatHooks fuel ⟨state.counter, [node], ⟨[], []⟩⟩).map
    fun result =>
      (namedUrlResDilimiter.intercalate result.2.acc.components,
        { state with counter := result.2.counter })

end NamedUrlGraph

/-! ## `generate_named_url` -/

def encodeUri (text : Text) : Text :=
  replace namedUrlResInnerDilimiter bracketed
    (urlPathReservedCharset.foldl (fun text entry => replace [entry.1] entry.2 text) text)

structure GenerateState (Node Obj : Type*) where
  obj : Node → Option Obj
  namedUrl : List Text

def Objects.field {Obj : Type*} (objects : Objects Obj) (obj : Option Obj) (field : Text) : Text :=
  (obj.bind fun obj => objects.attr obj field).getD []

namespace NamedUrlGraph

variable {Node Obj : Type*} [DecidableEq Node] (graph : NamedUrlGraph Node)
  (objects : Objects Obj)

def generateHooks : Hooks Node (Link Node) (GenerateState Node Obj) where
  visit node acc :=
    let namedUrlItem := (graph.fields node).map fun field =>
      encodeUri (objects.field (acc.obj node) field)
    .descend { acc with
      namedUrl := acc.namedUrl ++ [namedUrlResInnerDilimiter.intercalate namedUrlItem] }
  enter node link acc :=
    match (acc.obj node).bind fun obj => objects.related obj link.fkName with
    | some nextObj =>
        (true, { acc with obj := Function.update acc.obj link.nextNode (some nextObj) })
    | none => (false, { acc with namedUrl := acc.namedUrl ++ [[]] })
  leave node acc := { acc with obj := Function.update acc.obj node none }

def generateNamedUrl (fuel : ℕ) (node : Node) (obj : Obj) (state : GraphState Node Obj) :
    Option (Text × GraphState Node Obj) :=
  (run graph.walks (graph.generateHooks objects) fuel
    ⟨state.counter, [node], ⟨Function.update state.obj node (some obj), []⟩⟩).map
    fun result =>
      (namedUrlResDilimiter.intercalate result.2.acc.namedUrl,
        ⟨result.2.counter, result.2.acc.obj⟩)

end NamedUrlGraph

/-! ## `populate_named_url_query_kwargs` -/

/-- A dictionary, in the order in which its keys were first set. -/
abbrev Kwargs := List (Text × Text)

def Kwargs.setItem (kwargs : Kwargs) (key value : Text) : Kwargs :=
  if key ∈ kwargs.map Prod.fst then
    kwargs.map fun entry => if entry.1 = key then (key, value) else entry
  else kwargs ++ [(key, value)]

def kwargName (prefixes : List Text) (attrName : Text) : Text :=
  let evolvingPrefix := ['_', '_'].intercalate prefixes
  if evolvingPrefix = [] then attrName else evolvingPrefix ++ ['_', '_'] ++ attrName

def Kwargs.setFields (kwargs : Kwargs) (prefixes fields parts : List Text) : Kwargs :=
  (fields.zip parts).foldl (fun kwargs entry =>
    kwargs.setItem (kwargName prefixes entry.1) (unquote entry.2)) kwargs

structure PopulateState where
  kwargs : Kwargs
  prefixes : List Text
  idx : ℕ

/-- Whether the URL was found to be one of the node, and the keywords set so far. -/
structure PopulateResult where
  found : Bool
  kwargs : Kwargs
  deriving DecidableEq

/-- `named_url.isdigit() and int(named_url) > 0`; `none` stands for a `ValueError`. -/
def isPositiveNumber (namedUrl : Text) : Option Bool :=
  if isDigit namedUrl then (intOfDigits namedUrl).map fun number => 0 < number else some false

def namedUrlNames (namedUrl : Text) : List Text :=
  split namedUrlResDilimiter (replace bracketed namedUrlResDilimiterEncode namedUrl)

namespace NamedUrlGraph

variable {Node Obj : Type*} [DecidableEq Node] (graph : NamedUrlGraph Node)

def populateHooks (names : List Text) : Hooks Node (Link Node) PopulateState where
  visit node acc :=
    match names[acc.idx]? with
    | none => .reject acc
    | some [] => .pass { acc with prefixes := acc.prefixes.dropLast, idx := acc.idx + 1 }
    | some name =>
        let namedUrlParts := split namedUrlResInnerDilimiter name
        if namedUrlParts.length ≠ (graph.fields node).length then .reject acc
        else
          .descend { acc with
            kwargs := acc.kwargs.setFields acc.prefixes (graph.fields node) namedUrlParts
            idx := acc.idx + 1 }
  enter _ link acc := (true, { acc with prefixes := acc.prefixes ++ [link.fkName] })
  leave _ acc := { acc with prefixes := acc.prefixes.dropLast }

def populateNamedUrlQueryKwargs (fuel : ℕ) (node : Node) (kwargs : Kwargs) (namedUrl : Text)
    (ignoreDigits : Bool) (state : GraphState Node Obj) :
    Option (Except String PopulateResult × GraphState Node Obj) :=
  match if ignoreDigits then isPositiveNumber namedUrl else some false with
  | none => some (.error "ValueError", state)
  | some true => some (.ok ⟨false, kwargs⟩, state)
  | some false =>
      let names := namedUrlNames namedUrl
      (run graph.walks (graph.populateHooks names) fuel ⟨state.counter, [node], ⟨kwargs, [], 0⟩⟩).map
        fun result =>
          (.ok ⟨result.1 && decide (result.2.acc.idx = names.length), result.2.acc.kwargs⟩,
            { state with counter := result.2.counter })

end NamedUrlGraph

end Forail.NamedUrl

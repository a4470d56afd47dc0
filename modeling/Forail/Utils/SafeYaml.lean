import Forail.Core.Dictionaries
import Mathlib.Data.List.Infix
import Mathlib.Logic.Function.Basic

/-!
# Extra variables as YAML

`safe_dump` represents every entry of the variables on its own, and tags the texts of the
entries that are not trusted.  The tagging dumper represents a text without asking whether it is
an alias, so the node of the text is kept under the container that was met last.
-/

namespace Forail.SafeYaml

open Forail.Json

/-- A value of the variables: texts, other scalars, and the containers with the identities of
their objects.  The entries of a dictionary are in the order in which they are represented. -/
inductive Obj where
  | str (text : String)
  | plain (value : Value)
  | list (id : ℕ) (items : List Obj)
  | dict (id : ℕ) (entries : List (String × Obj))

/-- A node of the document.  An alias stands for the node that it refers to. -/
inductive Node where
  | scalar (tag text : String)
  | sequence (items : List Node)
  | mapping (entries : List (Node × Node))

/-- What is kept under an identity: a collection that is not completed, or a node. -/
inductive Represented where
  | pending
  | done (node : Node)

structure Representer where
  aliasKey : Option ℕ
  representedObjects : ℕ → Option Represented

def Representer.start : Representer := ⟨none, fun _ => none⟩

inductive Dumper where
  | safeDumper
  | safeStringDumper
  deriving DecidableEq

def Representer.scalar (representer : Representer) (tag text : String) : Node × Representer :=
  match representer.aliasKey with
  | some key =>
      (.scalar tag text,
        { representer with
          representedObjects := Function.update representer.representedObjects key
            (some (.done (.scalar tag text))) })
  | none => (.scalar tag text, representer)

def Representer.register (representer : Representer) (id : ℕ) : Representer :=
  { representer with
    representedObjects := Function.update representer.representedObjects id (some .pending) }

/-- Once its items are represented it is what has been kept, unless a scalar took its place. -/
def Representer.complete (representer : Representer) (id : ℕ) (node : Node) : Representer :=
  match representer.representedObjects id with
  | some .pending =>
      { representer with
        representedObjects := Function.update representer.representedObjects id
          (some (.done node)) }
  | _ => representer

def strTag : String := "tag:yaml.org,2002:str"

def Representer.str (dumper : Dumper) (representer : Representer) (text : String) :
    Node × Representer :=
  match dumper with
  | .safeStringDumper => representer.scalar "!unsafe" text
  | .safeDumper => ({ representer with aliasKey := none } : Representer).scalar strTag text

/-- A collection that contains itself has no node as a tree. -/
def recursiveNode : Node := .sequence []

variable (scalars : Value → String × String) (dumper : Dumper)

mutual

/-- `represent_data`, with the tags and the texts of the scalars that are no texts. -/
def represent : Obj → Representer → Node × Representer
  | .str text, representer => representer.str dumper text
  | .plain value, representer =>
      ({ representer with aliasKey := none } : Representer).scalar (scalars value).1
        (scalars value).2
  | .list id items, representer =>
      let representer := { representer with aliasKey := some id }
      match representer.representedObjects id with
      | some (.done node) => (node, representer)
      | some .pending => (recursiveNode, representer)
      | none =>
          let represented := representItems items (representer.register id)
          (.sequence represented.1, represented.2.complete id (.sequence represented.1))
  | .dict id entries, representer =>
      let representer := { representer with aliasKey := some id }
      match representer.representedObjects id with
      | some (.done node) => (node, representer)
      | some .pending => (recursiveNode, representer)
      | none =>
          let represented := representEntries entries (representer.register id)
          (.mapping represented.1, represented.2.complete id (.mapping represented.1))

def representItems : List Obj → Representer → List Node × Representer
  | [], representer => ([], representer)
  | item :: items, representer =>
      let first := represent item representer
      let rest := representItems items first.2
      (first.1 :: rest.1, rest.2)

def representEntries : List (String × Obj) → Representer → List (Node × Node) × Representer
  | [], representer => ([], representer)
  | (key, value) :: entries, representer =>
      let first := representer.str dumper key
      let second := represent value first.2
      let rest := representEntries entries second.2
      ((first.1, second.1) :: rest.1, rest.2)

end

mutual

def Obj.value : Obj → Value
  | .str text => .str text
  | .plain value => value
  | .list _ items => .list (valueItems items)
  | .dict _ entries => .dict (valueEntries entries)

def valueItems : List Obj → List Value
  | [] => []
  | item :: items => item.value :: valueItems items

def valueEntries : List (String × Obj) → List (String × Value)
  | [] => []
  | (key, value) :: entries => (key, value.value) :: valueEntries entries

end

def dumperOf (safeDict : Vars) (key : String) (value : Obj) : Dumper :=
  match safeDict.lookup key with
  | none => .safeStringDumper
  | some trusted => if trusted.equal value.value then .safeDumper else .safeStringDumper

def single (fresh : ℕ) (entry : String × Obj) : Obj := .dict fresh [entry]

/-- `safe_dump`, as the nodes of its documents.  `fresh` is an identity that is not in use. -/
def safeDump (fresh : ℕ) (safeDict : Vars) : Obj → List Node
  | .dict _ entries =>
      entries.map fun entry =>
        (represent scalars (dumperOf safeDict entry.1 entry.2) (single fresh entry) .start).1
  | other => [(represent scalars .safeStringDumper other .start).1]

mutual

def nodeOf : Obj → Node
  | .str text => .scalar (if dumper = .safeStringDumper then "!unsafe" else strTag) text
  | .plain value => .scalar (scalars value).1 (scalars value).2
  | .list _ items => .sequence (nodesOf items)
  | .dict _ entries => .mapping (entriesOf entries)

def nodesOf : List Obj → List Node
  | [] => []
  | item :: items => nodeOf item :: nodesOf items

def entriesOf : List (String × Obj) → List (Node × Node)
  | [] => []
  | (key, value) :: entries =>
      (.scalar (if dumper = .safeStringDumper then "!unsafe" else strTag) key, nodeOf value) ::
        entriesOf entries

end

/-- What a representer meets: texts that keep the last identity, other scalars, and containers. -/
inductive Meeting where
  | text
  | scalar
  | container (id : ℕ)
  deriving DecidableEq

mutual

/-- What is met in a value after `met`.  A container that has been met is not entered again. -/
def meetings : Obj → List Meeting → List Meeting
  | .str _, _ => [if dumper = .safeStringDumper then .text else .scalar]
  | .plain _, _ => [.scalar]
  | .list id items, met =>
      if .container id ∈ met then [.container id]
      else .container id :: meetingsOfItems items (met ++ [.container id])
  | .dict id entries, met =>
      if .container id ∈ met then [.container id]
      else .container id :: meetingsOfEntries entries (met ++ [.container id])

def meetingsOfItems : List Obj → List Meeting → List Meeting
  | [], _ => []
  | item :: items, met =>
      meetings item met ++ meetingsOfItems items (met ++ meetings item met)

def meetingsOfEntries : List (String × Obj) → List Meeting → List Meeting
  | [], _ => []
  | (_, value) :: entries, met =>
      let key : Meeting := if dumper = .safeStringDumper then .text else .scalar
      let first := key :: meetings value (met ++ [key])
      first ++ meetingsOfEntries entries (met ++ first)

end

def Spoiled (id : ℕ) (met : List Meeting) : Prop := [.container id, .text] <:+: met

def Unspoiled (met new : List Meeting) : Prop :=
  ∀ before after id, new = before ++ .container id :: after → ¬ Spoiled id (met ++ before)

/-! ## Meetings -/

section Meetings

variable {met new rest : List Meeting} {id : ℕ}

def aliasOf (met : List Meeting) : Option ℕ :=
  met.foldl
    (fun key meeting =>
      match meeting with
      | .text => key
      | .scalar => none
      | .container id => some id) none

theorem aliasOf_text : aliasOf (met ++ [.text]) = aliasOf met := by
  rw [aliasOf, List.foldl_append]
  rfl

theorem aliasOf_scalar : aliasOf (met ++ [.scalar]) = none := by
  rw [aliasOf, List.foldl_append]
  rfl

theorem aliasOf_container : aliasOf (met ++ [.container id]) = some id := by
  rw [aliasOf, List.foldl_append]
  rfl

theorem spoiled_concat {meeting : Meeting} :
    Spoiled id (met ++ [meeting]) ↔
      Spoiled id met ∨ meeting = .text ∧ [.container id] <:+ met := by
  have hsuffix : [.container id, .text] <:+ met ++ [meeting] ↔
      meeting = .text ∧ [.container id] <:+ met := by
    rw [show [Meeting.container id, .text] = [.container id] ++ [.text] from rfl,
      List.suffix_concat_iff]
    constructor
    · rintro (hnil | ⟨tail, htail, hmet⟩)
      · exact absurd hnil (by simp)
      · obtain ⟨htail, htext⟩ := List.append_inj' htail rfl
        exact ⟨(List.singleton_inj.mp htext).symm, htail ▸ hmet⟩
    · rintro ⟨rfl, hmet⟩
      exact .inr ⟨[.container id], rfl, hmet⟩
  rw [Spoiled, List.infix_concat_iff, hsuffix, or_comm, Spoiled]

theorem spoiled_scalar : Spoiled id (met ++ [.scalar]) ↔ Spoiled id met := by
  rw [spoiled_concat]
  exact or_iff_left fun h => absurd h.1 (by simp)

theorem spoiled_container {other : ℕ} :
    Spoiled id (met ++ [.container other]) ↔ Spoiled id met := by
  rw [spoiled_concat]
  exact or_iff_left fun h => absurd h.1 (by simp)

theorem mem_of_spoiled (hspoiled : Spoiled id met) : .container id ∈ met :=
  hspoiled.subset List.mem_cons_self

theorem container_suffix {meeting : Meeting} :
    [.container id] <:+ met ++ [meeting] ↔ meeting = .container id := by
  constructor
  · rintro ⟨front, hfront⟩
    exact (List.singleton_inj.mp (List.append_inj' hfront rfl).2).symm
  · rintro rfl
    exact List.suffix_append met [.container id]

theorem spoiled_text : Spoiled id (met ++ [.text]) ↔ Spoiled id met ∨ aliasOf met = some id := by
  induction met using List.reverseRecOn with
  | nil =>
    constructor
    · intro h
      exact absurd (mem_of_spoiled h) (by simp)
    · rintro (h | h)
      · exact absurd (mem_of_spoiled h) List.not_mem_nil
      · exact absurd h.symm (Option.some_ne_none id)
  | append_singleton met meeting ih =>
    rw [spoiled_concat, container_suffix]
    cases meeting with
    | text =>
      rw [aliasOf_text, ih]
      simp
    | scalar =>
      rw [aliasOf_scalar]
      simp
    | container other =>
      rw [aliasOf_container]
      simp [eq_comm]

theorem unspoiled_nil : Unspoiled met [] := by
  intro before after id hnil
  exact absurd hnil.symm (by simp)

theorem unspoiled_cons {meeting : Meeting} :
    Unspoiled met (meeting :: rest) ↔
      (∀ id, meeting = .container id → ¬ Spoiled id met) ∧ Unspoiled (met ++ [meeting]) rest := by
  constructor
  · intro h
    refine ⟨fun id hid => ?_, fun before after id hrest => ?_⟩
    · have hhead := h [] rest id (by rw [hid, List.nil_append])
      rwa [List.append_nil] at hhead
    · have htail := h (meeting :: before) after id (by rw [hrest, List.cons_append])
      rwa [List.append_assoc, List.singleton_append]
  · rintro ⟨hhead, htail⟩ before after id hnew
    cases before with
    | nil =>
      rw [List.nil_append, List.cons.injEq] at hnew
      rw [List.append_nil]
      exact hhead id hnew.1
    | cons first before =>
      rw [List.cons_append, List.cons.injEq] at hnew
      obtain ⟨rfl, hrest⟩ := hnew
      have hspoiled := htail before after id hrest
      rwa [List.append_assoc, List.singleton_append] at hspoiled

theorem unspoiled_append :
    Unspoiled met (new ++ rest) ↔ Unspoiled met new ∧ Unspoiled (met ++ new) rest := by
  induction new generalizing met with
  | nil =>
    rw [List.nil_append, List.append_nil]
    exact (and_iff_right unspoiled_nil).symm
  | cons meeting new ih =>
    rw [List.cons_append, unspoiled_cons, unspoiled_cons, ih, and_assoc, List.append_assoc,
      List.singleton_append]

theorem unspoiled_container : Unspoiled met [.container id] ↔ ¬ Spoiled id met := by
  rw [unspoiled_cons]
  constructor
  · exact fun h => h.1 id rfl
  · intro h
    exact ⟨fun other hother => Meeting.container.inj hother ▸ h, unspoiled_nil⟩

theorem unspoiled_other {meeting : Meeting} (hother : ∀ id, meeting ≠ .container id) :
    Unspoiled met [meeting] :=
  unspoiled_cons.mpr ⟨fun id hid => absurd hid (hother id), unspoiled_nil⟩

end Meetings

/-! ## Representing -/

mutual

def Identified (heap : ℕ → Obj) (fresh : ℕ) : Obj → Prop
  | .str _ => True
  | .plain _ => True
  | .list id items => id < fresh ∧ heap id = .list id items ∧ IdentifiedItems heap fresh items
  | .dict id entries => id < fresh ∧ heap id = .dict id entries ∧ IdentifiedEntries heap fresh entries

def IdentifiedItems (heap : ℕ → Obj) (fresh : ℕ) : List Obj → Prop
  | [] => True
  | item :: items => Identified heap fresh item ∧ IdentifiedItems heap fresh items

def IdentifiedEntries (heap : ℕ → Obj) (fresh : ℕ) : List (String × Obj) → Prop
  | [] => True
  | (_, value) :: entries => Identified heap fresh value ∧ IdentifiedEntries heap fresh entries

end

/-- A representer keeps what it has met: a scalar for a spoiled container, and for every other
one its node, unless it is one of those that are not completed. -/
structure Tracks (heap : ℕ → Obj) (building : List ℕ) (met : List Meeting)
    (representer : Representer) : Prop where
  aliasKey : representer.aliasKey = aliasOf met
  absent : ∀ id, .container id ∉ met → representer.representedObjects id = none
  spoiled : ∀ id, Spoiled id met → ∃ tag text,
    representer.representedObjects id = some (.done (.scalar tag text))
  pending : ∀ id ∈ building, ¬ Spoiled id met →
    representer.representedObjects id = some .pending
  kept : ∀ id, .container id ∈ met → id ∉ building → ¬ Spoiled id met →
    representer.representedObjects id = some (.done (nodeOf scalars dumper (heap id)))

section Tracking

variable {scalars dumper} {heap : ℕ → Obj} {building : List ℕ} {met : List Meeting}
  {representer : Representer} {id : ℕ} {text tag : String}

theorem Tracks.scalar_reset (htracks : Tracks scalars dumper heap building met representer) :
    (({ representer with aliasKey := none } : Representer).scalar tag text).1 = .scalar tag text ∧
      Tracks scalars dumper heap building (met ++ [.scalar])
        (({ representer with aliasKey := none } : Representer).scalar tag text).2 := by
  refine ⟨rfl, aliasOf_scalar.symm, fun id hid => ?_, fun id hid => ?_, fun id hid hclean => ?_,
    fun id hid hopen hclean => ?_⟩
  · exact htracks.absent id fun hmem => hid (List.mem_append_left _ hmem)
  · exact htracks.spoiled id (spoiled_scalar.mp hid)
  · exact htracks.pending id hid fun h => hclean (spoiled_scalar.mpr h)
  · have hmem : .container id ∈ met := by simpa using hid
    exact htracks.kept id hmem hopen fun h => hclean (spoiled_scalar.mpr h)

theorem Tracks.scalar_kept (htracks : Tracks scalars dumper heap building met representer) :
    (representer.scalar tag text).1 = .scalar tag text ∧
      Tracks scalars dumper heap building (met ++ [.text]) (representer.scalar tag text).2 := by
  rw [Representer.scalar, htracks.aliasKey]
  cases halias : aliasOf met with
  | none =>
    have hsame : ∀ id, Spoiled id (met ++ [.text]) ↔ Spoiled id met := fun id => by
      rw [spoiled_text, halias]
      simp
    refine ⟨rfl, ?_, fun id hid => ?_, fun id hid => ?_, fun id hid hclean => ?_,
      fun id hid hopen hclean => ?_⟩
    · rw [htracks.aliasKey, aliasOf_text]
    · exact htracks.absent id fun hmem => hid (List.mem_append_left _ hmem)
    · exact htracks.spoiled id ((hsame id).mp hid)
    · exact htracks.pending id hid fun h => hclean ((hsame id).mpr h)
    · have hmem : .container id ∈ met := by simpa using hid
      exact htracks.kept id hmem hopen fun h => hclean ((hsame id).mpr h)
  | some key =>
    have hspoiled : Spoiled key (met ++ [.text]) := spoiled_text.mpr (.inr halias)
    have hsame : ∀ id, id ≠ key → (Spoiled id (met ++ [.text]) ↔ Spoiled id met) := by
      intro id hne
      rw [spoiled_text, halias]
      exact or_iff_left fun h => hne (Option.some.inj h).symm
    refine ⟨rfl, ?_, fun id hid => ?_, fun id hid => ?_, fun id hid hclean => ?_,
      fun id hid hopen hclean => ?_⟩
    · rw [aliasOf_text, halias]
    · have hne : id ≠ key := fun h => hid (h ▸ mem_of_spoiled hspoiled)
      dsimp only
      rw [Function.update_of_ne hne]
      exact htracks.absent id fun hmem => hid (List.mem_append_left _ hmem)
    · dsimp only
      by_cases hkey : id = key
      · rw [hkey, Function.update_self]
        exact ⟨tag, text, rfl⟩
      · rw [Function.update_of_ne hkey]
        exact htracks.spoiled id ((hsame id hkey).mp hid)
    · have hne : id ≠ key := fun h => hclean (h ▸ hspoiled)
      dsimp only
      rw [Function.update_of_ne hne]
      exact htracks.pending id hid fun h => hclean ((hsame id hne).mpr h)
    · have hne : id ≠ key := fun h => hclean (h ▸ hspoiled)
      have hmem : .container id ∈ met := by simpa using hid
      dsimp only
      rw [Function.update_of_ne hne]
      exact htracks.kept id hmem hopen fun h => hclean ((hsame id hne).mpr h)

def textMeeting (dumper : Dumper) : Meeting :=
  if dumper = .safeStringDumper then .text else .scalar

theorem Tracks.str (htracks : Tracks scalars dumper heap building met representer) :
    (representer.str dumper text).1 =
        .scalar (if dumper = .safeStringDumper then "!unsafe" else strTag) text ∧
      Tracks scalars dumper heap building (met ++ [textMeeting dumper])
        (representer.str dumper text).2 := by
  cases dumper with
  | safeStringDumper => exact htracks.scalar_kept
  | safeDumper => exact htracks.scalar_reset

theorem Tracks.again (htracks : Tracks scalars dumper heap building met representer)
    (hmet : .container id ∈ met) :
    Tracks scalars dumper heap building (met ++ [.container id])
      { representer with aliasKey := some id } := by
  have hmem : ∀ other, .container other ∈ met ++ [.container id] → .container other ∈ met := by
    intro other hother
    obtain hother | hother := List.mem_append.mp hother
    · exact hother
    · rwa [List.mem_singleton.mp hother]
  refine ⟨aliasOf_container.symm, fun other hother => ?_, fun other hother => ?_,
    fun other hother hclean => ?_, fun other hother hopen hclean => ?_⟩
  · exact htracks.absent other fun h => hother (List.mem_append_left _ h)
  · exact htracks.spoiled other (spoiled_container.mp hother)
  · exact htracks.pending other hother fun h => hclean (spoiled_container.mpr h)
  · exact htracks.kept other (hmem other hother) hopen fun h => hclean (spoiled_container.mpr h)

theorem Tracks.register (htracks : Tracks scalars dumper heap building met representer)
    (hnew : .container id ∉ met) :
    Tracks scalars dumper heap (id :: building) (met ++ [.container id])
      (({ representer with aliasKey := some id } : Representer).register id) := by
  have hclean : ¬ Spoiled id met := fun h => hnew (mem_of_spoiled h)
  refine ⟨aliasOf_container.symm, fun other hother => ?_, fun other hother => ?_,
    fun other hother hother' => ?_, fun other hother hopen hother' => ?_⟩
  · have hne : other ≠ id := fun h => hother (h ▸ List.mem_append_right _ List.mem_cons_self)
    rw [Representer.register]
    dsimp only
    rw [Function.update_of_ne hne]
    exact htracks.absent other fun h => hother (List.mem_append_left _ h)
  · have hspoiled := spoiled_container.mp hother
    have hne : other ≠ id := fun h => hclean (h ▸ hspoiled)
    rw [Representer.register]
    dsimp only
    rw [Function.update_of_ne hne]
    exact htracks.spoiled other hspoiled
  · rw [Representer.register]
    dsimp only
    by_cases hne : other = id
    · rw [hne, Function.update_self]
    · rw [Function.update_of_ne hne]
      exact htracks.pending other ((List.mem_cons.mp hother).resolve_left hne)
        fun h => hother' (spoiled_container.mpr h)
  · rw [List.mem_cons, not_or] at hopen
    have hmem : .container other ∈ met := by
      obtain hother | hother := List.mem_append.mp hother
      · exact hother
      · exact absurd (Meeting.container.inj (List.mem_singleton.mp hother)) hopen.1
    rw [Representer.register]
    dsimp only
    rw [Function.update_of_ne hopen.1]
    exact htracks.kept other hmem hopen.2 fun h => hother' (spoiled_container.mpr h)

theorem Tracks.complete (htracks : Tracks scalars dumper heap (id :: building) met representer)
    (hnew : id ∉ building) {node : Node} (hnode : nodeOf scalars dumper (heap id) = node) :
    Tracks scalars dumper heap building met (representer.complete id node) := by
  by_cases hspoiled : Spoiled id met
  · obtain ⟨tag, text, hkept⟩ := htracks.spoiled id hspoiled
    have hsame : representer.complete id node = representer := by
      rw [Representer.complete, hkept]
    rw [hsame]
    refine ⟨htracks.aliasKey, htracks.absent, htracks.spoiled, fun other hother hclean => ?_,
      fun other hother hopen hclean => ?_⟩
    · exact htracks.pending other (List.mem_cons_of_mem id hother) hclean
    · have hne : other ≠ id := fun h => hclean (h ▸ hspoiled)
      exact htracks.kept other hother (List.not_mem_cons_of_ne_of_not_mem hne hopen) hclean
  · have hpending := htracks.pending id List.mem_cons_self hspoiled
    have hcomplete : representer.complete id node =
        { representer with
          representedObjects := Function.update representer.representedObjects id
            (some (.done node)) } := by
      rw [Representer.complete, hpending]
    rw [hcomplete]
    refine ⟨htracks.aliasKey, fun other hother => ?_, fun other hother => ?_,
      fun other hother hclean => ?_, fun other hother hopen hclean => ?_⟩
    · have hne : other ≠ id := by
        rintro rfl
        rw [htracks.absent other hother] at hpending
        contradiction
      dsimp only
      rw [Function.update_of_ne hne]
      exact htracks.absent other hother
    · have hne : other ≠ id := fun h => hspoiled (h ▸ hother)
      dsimp only
      rw [Function.update_of_ne hne]
      exact htracks.spoiled other hother
    · have hne : other ≠ id := fun h => hnew (h ▸ hother)
      dsimp only
      rw [Function.update_of_ne hne]
      exact htracks.pending other (List.mem_cons_of_mem id hother) hclean
    · dsimp only
      by_cases hne : other = id
      · rw [hne, Function.update_self, hnode]
      · rw [Function.update_of_ne hne]
        exact htracks.kept other hother (List.not_mem_cons_of_ne_of_not_mem hne hopen) hclean

end Tracking

/-! ## Whole values -/

section Values

variable {scalars dumper} {heap : ℕ → Obj} {fresh : ℕ}

/-- What is shown of each part of a value: it has its node exactly when no container in it is met
again after a text came directly after it, and then the representer keeps what it met. -/
def Follows {α : Type*} (scalars : Value → String × String) (dumper : Dumper) (heap : ℕ → Obj)
    (building : List ℕ) (met new : List Meeting) (node : α) (result : α × Representer) : Prop :=
  (result.1 = node ↔ Unspoiled met new) ∧
    (Unspoiled met new → Tracks scalars dumper heap building (met ++ new) result.2)

variable {building : List ℕ} {met rest : List Meeting} {representer : Representer} {id : ℕ}

theorem follows_again {node : Node} {result : Node × Representer}
    (htracks : Tracks scalars dumper heap building met representer)
    (hmet : .container id ∈ met) (hbuilding : id ∉ building)
    (hnode : nodeOf scalars dumper (heap id) = node) (hscalar : ∀ tag text, node ≠ .scalar tag text)
    (hresult : ∀ kept, representer.representedObjects id = some (.done kept) →
      result = (kept, { representer with aliasKey := some id })) :
    Follows scalars dumper heap building met [.container id] node result := by
  rw [Follows, unspoiled_container]
  by_cases hspoiled : Spoiled id met
  · obtain ⟨tag, text, hkept⟩ := htracks.spoiled id hspoiled
    rw [hresult _ hkept]
    exact ⟨⟨fun h => absurd h.symm (hscalar tag text), fun h => absurd hspoiled h⟩,
      fun h => absurd hspoiled h⟩
  · rw [hresult _ (htracks.kept id hmet hbuilding hspoiled), hnode]
    exact ⟨⟨fun _ => hspoiled, fun _ => rfl⟩, fun _ => htracks.again hmet⟩

theorem follows_new {α : Type*} {collect : α → Node} (hcollect : Function.Injective collect)
    {members : α} {result : α × Representer} (hnew : .container id ∉ met)
    (hbuilding : id ∉ building) (hnode : nodeOf scalars dumper (heap id) = collect members)
    (hmembers : Follows scalars dumper heap (id :: building) (met ++ [.container id]) rest members
      result) :
    Follows scalars dumper heap building met (.container id :: rest) (collect members)
      (collect result.1, result.2.complete id (collect result.1)) := by
  have hhead : ∀ other, Meeting.container id = .container other → ¬ Spoiled other met := by
    rintro other hother hspoiled
    exact hnew (hother ▸ mem_of_spoiled hspoiled)
  rw [Follows, unspoiled_cons, and_iff_right hhead, hcollect.eq_iff]
  refine ⟨hmembers.1, fun hclean => ?_⟩
  have htracks := hmembers.2 hclean
  rw [hmembers.1.mpr hclean]
  rw [List.append_assoc, List.singleton_append] at htracks
  exact htracks.complete hbuilding hnode

theorem follows_scalar {node : Node} {result : Node × Representer} {meeting : Meeting}
    (hmeeting : ∀ id, meeting ≠ .container id)
    (hresult : result.1 = node ∧
      Tracks scalars dumper heap building (met ++ [meeting]) result.2) :
    Follows scalars dumper heap building met [meeting] node result :=
  ⟨⟨fun _ => unspoiled_other hmeeting, fun _ => hresult.1⟩, fun _ => hresult.2⟩

theorem textMeeting_ne (dumper : Dumper) (id : ℕ) : textMeeting dumper ≠ .container id := by
  cases dumper <;> simp [textMeeting]

theorem follows_pair {α β γ : Type*} {pair : α → β → γ} (hpair : Function.Injective2 pair)
    {first second : List Meeting} {head : α} {tail : β} {start : α × Representer}
    {finish : β × Representer}
    (hfirst : Follows scalars dumper heap building met first head start)
    (hsecond : Tracks scalars dumper heap building (met ++ first) start.2 →
      Follows scalars dumper heap building (met ++ first) second tail finish) :
    Follows scalars dumper heap building met (first ++ second) (pair head tail)
      (pair start.1 finish.1, finish.2) := by
  rw [Follows, unspoiled_append, hpair.eq_iff, hfirst.1]
  constructor
  · exact and_congr_right fun hclean => (hsecond (hfirst.2 hclean)).1
  · rintro ⟨hclean, hclean'⟩
    have htracks := (hsecond (hfirst.2 hclean)).2 hclean'
    rwa [List.append_assoc] at htracks

theorem notMem_building {obj : Obj} (hheap : heap id = obj)
    (hsize : ∀ id ∈ building, sizeOf obj < sizeOf (heap id)) : id ∉ building :=
  fun hmem => Nat.lt_irrefl _ (hheap ▸ hsize id hmem)

theorem sizeOf_lt_cons {α : Type*} [SizeOf α] {part : α} {obj : Obj} (hheap : heap id = obj)
    (hpart : sizeOf part < sizeOf obj)
    (hsize : ∀ id ∈ building, sizeOf obj < sizeOf (heap id)) :
    ∀ other ∈ id :: building, sizeOf part < sizeOf (heap other) := by
  intro other hother
  obtain rfl | hother := List.mem_cons.mp hother
  · rwa [hheap]
  · exact Nat.lt_trans hpart (hsize other hother)

mutual

theorem represent_follows {building : List ℕ} {met : List Meeting} {representer : Representer}
    (obj : Obj) (hidentified : Identified heap fresh obj)
    (hsize : ∀ id ∈ building, sizeOf obj < sizeOf (heap id))
    (htracks : Tracks scalars dumper heap building met representer) :
    Follows scalars dumper heap building met (meetings dumper obj met)
      (nodeOf scalars dumper obj) (represent scalars dumper obj representer) := by
  cases obj with
  | str text =>
    rw [meetings, nodeOf, represent]
    exact follows_scalar (textMeeting_ne dumper) htracks.str
  | plain value =>
    rw [meetings, nodeOf, represent]
    exact follows_scalar (fun _ => by simp) htracks.scalar_reset
  | list id items =>
    obtain ⟨-, hheap, hitems⟩ := hidentified
    have hbuilding := notMem_building hheap hsize
    have hnode : nodeOf scalars dumper (heap id) = .sequence (nodesOf scalars dumper items) := by
      rw [hheap, nodeOf]
    rw [meetings, nodeOf, represent]
    by_cases hmet : .container id ∈ met
    · rw [if_pos hmet]
      refine follows_again htracks hmet hbuilding hnode (fun _ _ => by simp) fun kept hkept => ?_
      dsimp only
      rw [hkept]
    · rw [if_neg hmet]
      dsimp only
      rw [htracks.absent id hmet]
      have hlt : sizeOf items < sizeOf (Obj.list id items) := by
        rw [Obj.list.sizeOf_spec]
        omega
      exact follows_new (fun _ _ => Node.sequence.inj) hmet hbuilding hnode
        (representItems_follows items hitems (sizeOf_lt_cons hheap hlt hsize)
          (htracks.register hmet))
  | dict id entries =>
    obtain ⟨-, hheap, hentries⟩ := hidentified
    have hbuilding := notMem_building hheap hsize
    have hnode : nodeOf scalars dumper (heap id) = .mapping (entriesOf scalars dumper entries) := by
      rw [hheap, nodeOf]
    rw [meetings, nodeOf, represent]
    by_cases hmet : .container id ∈ met
    · rw [if_pos hmet]
      refine follows_again htracks hmet hbuilding hnode (fun _ _ => by simp) fun kept hkept => ?_
      dsimp only
      rw [hkept]
    · rw [if_neg hmet]
      dsimp only
      rw [htracks.absent id hmet]
      have hlt : sizeOf entries < sizeOf (Obj.dict id entries) := by
        rw [Obj.dict.sizeOf_spec]
        omega
      exact follows_new (fun _ _ => Node.mapping.inj) hmet hbuilding hnode
        (representEntries_follows entries hentries (sizeOf_lt_cons hheap hlt hsize)
          (htracks.register hmet))

theorem representItems_follows {building : List ℕ} {met : List Meeting}
    {representer : Representer} (items : List Obj) (hidentified : IdentifiedItems heap fresh items)
    (hsize : ∀ id ∈ building, sizeOf items < sizeOf (heap id))
    (htracks : Tracks scalars dumper heap building met representer) :
    Follows scalars dumper heap building met (meetingsOfItems dumper items met)
      (nodesOf scalars dumper items) (representItems scalars dumper items representer) := by
  cases items with
  | nil =>
    rw [meetingsOfItems, nodesOf, representItems]
    exact ⟨⟨fun _ => unspoiled_nil, fun _ => rfl⟩, fun _ => by rwa [List.append_nil]⟩
  | cons item items =>
    rw [meetingsOfItems, nodesOf, representItems]
    rw [List.cons.sizeOf_spec] at hsize
    have hitem : ∀ id ∈ building, sizeOf item < sizeOf (heap id) := fun id hid =>
      Nat.lt_trans (by omega) (hsize id hid)
    have hitems : ∀ id ∈ building, sizeOf items < sizeOf (heap id) := fun id hid =>
      Nat.lt_trans (by omega) (hsize id hid)
    exact follows_pair (fun _ _ _ _ => List.cons.inj)
      (represent_follows item hidentified.1 hitem htracks)
      (representItems_follows items hidentified.2 hitems)

theorem representEntries_follows {building : List ℕ} {met : List Meeting}
    {representer : Representer} (entries : List (String × Obj))
    (hidentified : IdentifiedEntries heap fresh entries)
    (hsize : ∀ id ∈ building, sizeOf entries < sizeOf (heap id))
    (htracks : Tracks scalars dumper heap building met representer) :
    Follows scalars dumper heap building met (meetingsOfEntries dumper entries met)
      (entriesOf scalars dumper entries) (representEntries scalars dumper entries representer) := by
  cases entries with
  | nil =>
    rw [meetingsOfEntries, entriesOf, representEntries]
    exact ⟨⟨fun _ => unspoiled_nil, fun _ => rfl⟩, fun _ => by rwa [List.append_nil]⟩
  | cons entry entries =>
    obtain ⟨key, value⟩ := entry
    rw [meetingsOfEntries, entriesOf, representEntries]
    rw [List.cons.sizeOf_spec, Prod.mk.sizeOf_spec] at hsize
    have hvalue : ∀ id ∈ building, sizeOf value < sizeOf (heap id) := fun id hid =>
      Nat.lt_trans (by omega) (hsize id hid)
    have hentries : ∀ id ∈ building, sizeOf entries < sizeOf (heap id) := fun id hid =>
      Nat.lt_trans (by omega) (hsize id hid)
    have hkey : Follows scalars dumper heap building met [textMeeting dumper] _
        (representer.str dumper key) := follows_scalar (textMeeting_ne dumper) htracks.str
    have hprod : Function.Injective2 (@Prod.mk Node Node) := fun _ _ _ _ => Prod.mk.inj
    have hfirst := follows_pair hprod hkey (represent_follows value hidentified.1 hvalue)
    exact follows_pair (fun _ _ _ _ => List.cons.inj) hfirst
      (representEntries_follows entries hidentified.2 hentries)

end

end Values

/-! ## The documents -/

section Documents

variable {heap : ℕ → Obj} {fresh : ℕ}

theorem tracks_start : Tracks scalars dumper heap [] [] .start :=
  ⟨rfl, fun _ _ => rfl, fun _ h => absurd (mem_of_spoiled h) List.not_mem_nil,
    fun _ h => absurd h List.not_mem_nil, fun _ h => absurd h List.not_mem_nil⟩

mutual

theorem identified_update (new obj : Obj) (hidentified : Identified heap fresh obj) :
    Identified (Function.update heap fresh new) (fresh + 1) obj := by
  cases obj with
  | str text => exact trivial
  | plain value => exact trivial
  | list id items =>
    obtain ⟨hid, hheap, hitems⟩ := hidentified
    refine ⟨Nat.lt_succ_of_lt hid, ?_, identifiedItems_update new items hitems⟩
    rw [Function.update_of_ne (Nat.ne_of_lt hid), hheap]
  | dict id entries =>
    obtain ⟨hid, hheap, hentries⟩ := hidentified
    refine ⟨Nat.lt_succ_of_lt hid, ?_, identifiedEntries_update new entries hentries⟩
    rw [Function.update_of_ne (Nat.ne_of_lt hid), hheap]

theorem identifiedItems_update (new : Obj) (items : List Obj)
    (hidentified : IdentifiedItems heap fresh items) :
    IdentifiedItems (Function.update heap fresh new) (fresh + 1) items := by
  cases items with
  | nil => exact trivial
  | cons item items =>
    exact ⟨identified_update new item hidentified.1,
      identifiedItems_update new items hidentified.2⟩

theorem identifiedEntries_update (new : Obj) (entries : List (String × Obj))
    (hidentified : IdentifiedEntries heap fresh entries) :
    IdentifiedEntries (Function.update heap fresh new) (fresh + 1) entries := by
  cases entries with
  | nil => exact trivial
  | cons entry entries =>
    exact ⟨identified_update new entry.2 hidentified.1,
      identifiedEntries_update new entries hidentified.2⟩

end

theorem identified_single {entry : String × Obj} (hidentified : Identified heap fresh entry.2) :
    Identified (Function.update heap fresh (single fresh entry)) (fresh + 1)
      (single fresh entry) :=
  ⟨Nat.lt_succ_self fresh, Function.update_self .., identified_update _ _ hidentified, trivial⟩

theorem identified_of_mem {entries : List (String × Obj)} {entry : String × Obj}
    (hidentified : IdentifiedEntries heap fresh entries) (hmem : entry ∈ entries) :
    Identified heap fresh entry.2 := by
  induction entries with
  | nil => exact absurd hmem List.not_mem_nil
  | cons head entries ih =>
    obtain rfl | hmem := List.mem_cons.mp hmem
    · exact hidentified.1
    · exact ih hidentified.2 hmem

mutual

theorem text_notMem_meetings (obj : Obj) (met : List Meeting) :
    .text ∉ meetings .safeDumper obj met := by
  cases obj with
  | str text => simp [meetings]
  | plain value => simp [meetings]
  | list id items =>
    rw [meetings]
    split
    · simp
    · simpa using text_notMem_meetingsOfItems items _
  | dict id entries =>
    rw [meetings]
    split
    · simp
    · simpa using text_notMem_meetingsOfEntries entries _

theorem text_notMem_meetingsOfItems (items : List Obj) (met : List Meeting) :
    .text ∉ meetingsOfItems .safeDumper items met := by
  cases items with
  | nil => simp [meetingsOfItems]
  | cons item items =>
    rw [meetingsOfItems, List.mem_append, not_or]
    exact ⟨text_notMem_meetings item met, text_notMem_meetingsOfItems items _⟩

theorem text_notMem_meetingsOfEntries (entries : List (String × Obj)) (met : List Meeting) :
    .text ∉ meetingsOfEntries .safeDumper entries met := by
  cases entries with
  | nil => simp [meetingsOfEntries]
  | cons entry entries =>
    obtain ⟨key, value⟩ := entry
    rw [meetingsOfEntries]
    have hvalue := text_notMem_meetings value (met ++ [.scalar])
    have hentries := text_notMem_meetingsOfEntries entries
      (met ++ .scalar :: meetings .safeDumper value (met ++ [.scalar]))
    simp [hvalue, hentries]

end

theorem unspoiled_safeDumper (obj : Obj) : Unspoiled [] (meetings .safeDumper obj []) := by
  intro before after id hnew hspoiled
  have hmem : .text ∈ before := hspoiled.subset (List.mem_cons_of_mem _ List.mem_cons_self)
  refine text_notMem_meetings obj [] ?_
  rw [hnew]
  exact List.mem_append_left _ hmem

/-- A document has the node of its entry exactly when no container is met again after a text
came directly after it. -/
theorem document_iff {entry : String × Obj} (hidentified : Identified heap fresh entry.2) :
    (represent scalars dumper (single fresh entry) .start).1 =
        nodeOf scalars dumper (single fresh entry) ↔
      Unspoiled [] (meetings dumper (single fresh entry) []) :=
  (represent_follows (single fresh entry) (identified_single hidentified)
    (fun _ h => absurd h List.not_mem_nil) (tracks_start scalars dumper)).1

structure Variables where
  id : ℕ
  entries : List (String × Obj)
  heap : ℕ → Obj
  fresh : ℕ
  identified : IdentifiedEntries heap fresh entries

/-- Every document has the node of its entry, in which the texts of the entries that are not
trusted are tagged. -/
def Faithful (scalars : Value → String × String) (safeDict : Vars) (vars : Variables) : Prop :=
  safeDump scalars vars.fresh safeDict (.dict vars.id vars.entries) =
    vars.entries.map fun entry =>
      nodeOf scalars (dumperOf safeDict entry.1 entry.2) (single vars.fresh entry)

def sharedTwice : Variables where
  id := 0
  entries := [("k", .list 1 [.list 2 [.str "b", .str "c"], .list 2 [.str "b", .str "c"]])]
  heap := fun id =>
    if id = 1 then .list 1 [.list 2 [.str "b", .str "c"], .list 2 [.str "b", .str "c"]]
    else .list 2 [.str "b", .str "c"]
  fresh := 3
  identified := by simp [IdentifiedEntries, Identified, IdentifiedItems]

theorem sharedTwice_not_faithful :
    ¬ ∀ (scalars : Value → String × String) (safeDict : Vars) (vars : Variables),
      Faithful scalars safeDict vars := by
  intro hfaithful
  have hdocument := hfaithful (fun _ => ("", "")) ∅ sharedTwice
  have hscalar : safeDump (fun _ => ("", "")) 3 ∅ (.dict 0 sharedTwice.entries) =
      [.mapping [(.scalar "!unsafe" "k",
        .sequence [.sequence [.scalar "!unsafe" "b", .scalar "!unsafe" "c"],
          .scalar "!unsafe" "c"])]] := rfl
  rw [Faithful, show sharedTwice.id = 0 from rfl, show sharedTwice.fresh = 3 from rfl, hscalar]
    at hdocument
  simp [sharedTwice, single, nodeOf, entriesOf, nodesOf] at hdocument

/-- The documents are those of the variables exactly when no container of an entry that is not
trusted is met again after a text came directly after it. -/
theorem safeDump_faithful_iff (scalars : Value → String × String) (safeDict : Vars)
    (vars : Variables) :
    Faithful scalars safeDict vars ↔
      ∀ entry ∈ vars.entries, dumperOf safeDict entry.1 entry.2 = .safeStringDumper →
        Unspoiled [] (meetings .safeStringDumper (single vars.fresh entry) []) := by
  rw [Faithful, safeDump, List.map_inj_left]
  refine forall₂_congr fun entry hentry => ?_
  rw [document_iff scalars _ (identified_of_mem vars.identified hentry)]
  cases hdumper : dumperOf safeDict entry.1 entry.2 with
  | safeStringDumper => exact ⟨fun h _ => h, fun h => h rfl⟩
  | safeDumper => exact ⟨fun _ h => absurd h (by simp), fun _ => unspoiled_safeDumper _⟩

end Documents

end Forail.SafeYaml

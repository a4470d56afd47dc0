import Forail.Core.Json
import Forail.Core.Texts
import Mathlib.Algebra.Order.BigOperators.Group.List
import Mathlib.Algebra.Order.Group.Nat
import Mathlib.Data.List.Dedup

/-!
# Choices from the database

A survey names a model, a field and a filter.  Of the filter, the first segment of each key is
checked.  The segments after it can follow relations to other rows.
-/

namespace Forail.DbChoices

open Forail.Json
open Forail.Texts

def allowedDbModels : List (String × String × String) :=
  [("hosts", "main", "Host"), ("groups", "main", "Group"), ("projects", "main", "Project"),
    ("inventories", "main", "Inventory"), ("credentials", "main", "Credential"),
    ("organizations", "main", "Organization"),
    ("execution_environments", "main", "ExecutionEnvironment"),
    ("templates", "main", "JobTemplate")]

def allowedDbFields : List String := ["name", "id", "description"]

/-! ## Validation -/

def isIn (names : List String) (value : Value) : Except String Bool :=
  if value.hashable then .ok (names.any value.isText) else .error "TypeError"

def isCount : Value → Bool
  | .bool _ => true
  | .int value => 0 ≤ value
  | _ => false

/-- `validate_dynamic_choices_config` up to the sources that are no query: the errors, or `none`
for another source. -/
def validateDynamicChoicesConfig (texts : Json.Texts) (dc : Value) :
    Except String (Option (List String)) :=
  match dc with
  | .dict entries =>
    if (entries.lookup "enabled").isNone then
      .ok (some ["dynamic_choices must have an 'enabled' field."])
    else if !(dc.get "enabled").truthy then .ok (some [])
    else do
      let sourceType ← dc.tryGetOr "source_type" (.str "")
      if !(["db_query", "api_endpoint", "jinja2"].any sourceType.isText) then
        return some ["dynamic_choices source_type must be one of: " ++
          "db_query, api_endpoint, jinja2. Got '" ++ texts.text sourceType ++ "'."]
      else if !(sourceType.isText "db_query") then return none
      else
        let cacheTtl ← dc.tryGetOr "cache_ttl" (.int 60)
        let model ← dc.tryGetOr "model" (.str "")
        let modelAllowed ← isIn (allowedDbModels.map (·.1)) model
        let field ← dc.tryGetOr "field" (.str "name")
        let fieldAllowed ← isIn allowedDbFields field
        return some
          ((if isCount cacheTtl then [] else
              ["dynamic_choices cache_ttl must be a non-negative integer."]) ++
            (if modelAllowed then [] else ["dynamic_choices model must be one of: " ++
              ", ".intercalate (allowedDbModels.map (·.1)) ++ ". Got '" ++ texts.text model ++
              "'."]) ++
            if fieldAllowed then [] else ["dynamic_choices field must be one of: " ++
              ", ".intercalate allowedDbFields ++ ". Got '" ++ texts.text field ++ "'."])
  | _ => .ok (some ["dynamic_choices must be a dictionary."])

/-! ## The database -/

inductive Cell
  | null
  | int (value : ℤ)
  | text (value : String)
  deriving DecidableEq

structure Row where
  model : String
  id : ℕ
  deriving DecidableEq

structure Database where
  objects : String → List Row
  column : Row → String → Cell
  related : Row → String → List Row

def Database.cell (database : Database) (row : Option Row) (column : String) : Cell :=
  match row with
  | none => .null
  | some row => if column = "id" then .int row.id else database.column row column

/-- An outer join gives no row where there is none. -/
def Database.join (database : Database) (row : Option Row) (relation : String) :
    List (Option Row) :=
  match row with
  | none => [none]
  | some row =>
    match database.related row relation with
    | [] => [none]
    | rows => rows.map some

/-! ## Filters -/

inductive Field
  | column (name : String)
  | relation (name target : String)

/-- The fields of a model; others are unknown. -/
abbrev Schema := (model name : String) → Option Field

/-- The relations that a key follows, the model and the column where it ends, and the lookups.
A key that ends with a relation is about the id that it leads to. -/
structure Endpoint where
  path : List String
  model : String
  column : String
  isRelation : Bool
  lookups : List String

/-- `names_to_path`: names of relations are followed as far as they go, and the rest are
lookups. -/
def namesToPath (schema : Schema) (model : String) (path : List String) : List String → Endpoint
  | [] => ⟨path, model, "id", true, []⟩
  | name :: names =>
    match schema model name with
    | none => ⟨path, model, "id", true, name :: names⟩
    | some (.column column) => ⟨path, model, column, false, names⟩
    | some (.relation relation target) => namesToPath schema target (path ++ [relation]) names

def segments (key : String) : List String :=
  (split "__".toList key.toList).map String.ofList

/-- A name that the model does not have is an error. -/
def endpoint (schema : Schema) (model key : String) : Option Endpoint :=
  (schema model ((segments key).headD "")).map fun _ => namesToPath schema model [] (segments key)

structure Condition where
  path : List String
  column : String
  holds : Cell → Bool

/-- The schema, what the lookups of a key make of a value (`none` where they refuse it), and how
the database orders what a column holds. -/
structure Orm where
  schema : Schema
  compare : Endpoint → Value → Option (Cell → Bool)
  order : Cell → Cell → Bool

def Orm.condition (orm : Orm) (model : String) (entry : String × Value) : Option Condition :=
  (endpoint orm.schema model entry.1).bind fun stop =>
    (orm.compare stop entry.2).map fun holds => ⟨stop.path, stop.column, holds⟩

def Orm.conditions (orm : Orm) (model : String) (filter : List (String × Value)) :
    Option (List Condition) :=
  if filter.all fun entry => (orm.condition model entry).isSome then
    some (filter.filterMap (orm.condition model))
  else none

def Condition.below (relation : String) (condition : Condition) : Option Condition :=
  match condition.path with
  | [] => none
  | first :: rest => if first = relation then some { condition with path := rest } else none

def Database.holdsAt (database : Database) (row : Option Row) (conditions : List Condition) :
    Bool :=
  conditions.all fun condition =>
    condition.path ≠ [] || condition.holds (database.cell row condition.column)

/-- One filter joins each relation once: the keys that go through it are about the same row. -/
def Database.satisfies (database : Database) : ℕ → Option Row → List Condition → Bool
  | 0, row, conditions => database.holdsAt row conditions
  | depth + 1, row, conditions => database.holdsAt row conditions &&
      (conditions.filterMap (·.path.head?)).all fun relation =>
        (database.join row relation).any fun other =>
          database.satisfies depth other (conditions.filterMap (·.below relation))

/-- `filter(**kwargs).values_list(field, flat=True).distinct().order_by(field)[:500]` -/
def Database.choices (database : Database) (orm : Orm) (model field : String)
    (conditions : List Condition) : List Cell :=
  let depth := (conditions.map (·.path.length)).sum
  let rows := (database.objects model).filter fun row =>
    database.satisfies depth (some row) conditions
  ((rows.map fun row => database.cell (some row) field).dedup.mergeSort orm.order).take 500

/-! ## The query -/

structure Template where
  inventoryId : Option ℤ

def safeFields : List String :=
  ["id", "name", "inventory", "organization", "project", "inventory_id", "organization_id",
    "project_id"]

def safeKwargs (modelKey : String) (template : Option Template) (filter : List (String × Value)) :
    List (String × Value) :=
  let safe := filter.filter fun entry => (segments entry.1).headD "" ∈ safeFields
  match safe, template.bind Template.inventoryId with
  | [], some inventory =>
    if modelKey ∈ ["hosts", "groups"] ∧ inventory ≠ 0 then [("inventory__id", .int inventory)]
    else []
  | safe, _ => safe

def modelName (modelKey : String) : String := ((allowedDbModels.lookup modelKey).getD ("", "")).2

def resolveDbQuery (orm : Orm) (database : Database) (dc : Value) (template : Option Template) :
    Except String (List Cell) := do
  let modelKey ← dc.tryGetOr "model" (.str "")
  let field ← dc.tryGetOr "field" (.str "name")
  let filter ← dc.tryGetOr "filter" (.dict [])
  if !(← isIn (allowedDbModels.map (·.1)) modelKey) then return []
  if !(← isIn allowedDbFields field) then return []
  match modelKey, field, filter with
  | .str modelKey, .str field, .dict filter =>
    let model := modelName modelKey
    return (orm.conditions model (safeKwargs modelKey template filter)).elim []
      (database.choices orm model field)
  | _, _, _ => throw "AttributeError"

/-! ## What choices depend on -/

def linkFields : List String := ["inventory", "organization", "project"]

structure Agree (model : String) (left right : Database) : Prop where
  objects : left.objects model = right.objects model
  columns : ∀ row ∈ left.objects model, ∀ column ∈ allowedDbFields,
    left.cell (some row) column = right.cell (some row) column
  links : ∀ row ∈ left.objects model, ∀ link ∈ linkFields,
    left.related row link = right.related row link

structure Queried (dc : Value) (modelKey field : String) (filter : List (String × Value)) :
    Prop where
  model : dc.tryGetOr "model" (.str "") = .ok (.str modelKey)
  name : dc.tryGetOr "field" (.str "name") = .ok (.str field)
  kwargs : dc.tryGetOr "filter" (.dict []) = .ok (.dict filter)
  modelAllowed : isIn (allowedDbModels.map (·.1)) (.str modelKey) = .ok true
  fieldAllowed : isIn allowedDbFields (.str field) = .ok true

def queriedModel (dc : Value) : String :=
  match dc.tryGetOr "model" (.str "") with
  | .ok (.str modelKey) => modelName modelKey
  | _ => ""

def Determined (orm : Orm) (dc : Value) (template : Option Template) : Prop :=
  ∀ left right, Agree (queriedModel dc) left right →
    resolveDbQuery orm left dc template = resolveDbQuery orm right dc template

/-- A listed column of the row itself, or the id that a listed relation leads to. -/
def Listed (path : List String) (column : String) : Prop :=
  path = [] ∧ column ∈ allowedDbFields ∨ ∃ link ∈ linkFields, path = [link] ∧ column = "id"

/-- The filter is refused for a name, or no key that is kept leads past what is listed. -/
def StopsAtListed (schema : Schema) (dc : Value) (template : Option Template) : Prop :=
  ∀ modelKey field filter, Queried dc modelKey field filter →
    (∃ entry ∈ safeKwargs modelKey template filter,
      endpoint schema (modelName modelKey) entry.1 = none) ∨
    ∀ entry ∈ safeKwargs modelKey template filter, ∀ stop,
      endpoint schema (modelName modelKey) entry.1 = some stop → Listed stop.path stop.column

variable {orm : Orm} {schema : Schema} {dc : Value} {template : Option Template}
  {database left right : Database} {modelKey model field relation : String} {depth : ℕ}
  {conditions : List Condition} {condition : Condition} {row : Row} {joined : Option Row}
  {filter : List (String × Value)}

theorem below_eq_some_iff {lower : Condition} : condition.below relation = some lower ↔
    condition.path = relation :: lower.path ∧ lower.column = condition.column ∧
      lower.holds = condition.holds := by
  obtain ⟨path, column, holds⟩ := condition
  obtain ⟨lowerPath, lowerColumn, lowerHolds⟩ := lower
  cases path with
  | nil => simp [Condition.below]
  | cons first rest =>
    simp only [Condition.below, Option.ite_none_right_eq_some, Option.some.injEq,
      Condition.mk.injEq, List.cons.injEq, and_assoc]
    tauto

theorem holdsAt_eq (hcells : ∀ condition ∈ conditions, condition.path = [] →
    left.cell joined condition.column = right.cell joined condition.column) :
    left.holdsAt joined conditions = right.holdsAt joined conditions := by
  rw [Database.holdsAt, Database.holdsAt, Bool.eq_iff_iff, List.all_eq_true, List.all_eq_true]
  refine forall₂_congr fun condition hcondition => ?_
  by_cases hpath : condition.path = []
  · rw [hcells condition hcondition hpath]
  · simp [hpath]

theorem satisfies_ids (hids : ∀ condition ∈ conditions,
    condition.path = [] ∧ condition.column = "id") :
    left.satisfies depth joined conditions = right.satisfies depth joined conditions := by
  have hat : left.holdsAt joined conditions = right.holdsAt joined conditions := by
    refine holdsAt_eq fun condition hcondition _ => ?_
    rw [(hids condition hcondition).2]
    cases joined <;> rfl
  cases depth with
  | zero => exact hat
  | succ depth =>
    have hleaves : conditions.filterMap (·.path.head?) = [] :=
      List.filterMap_eq_nil_iff.mpr fun condition hcondition => by
        rw [(hids condition hcondition).1, List.head?_nil]
    rw [Database.satisfies, Database.satisfies, hat, hleaves, List.all_nil, List.all_nil]

theorem satisfies_eq (hagree : Agree model left right) (hrow : row ∈ left.objects model)
    (hlisted : ∀ condition ∈ conditions, Listed condition.path condition.column) :
    left.satisfies depth (some row) conditions = right.satisfies depth (some row) conditions := by
  have hat : left.holdsAt (some row) conditions = right.holdsAt (some row) conditions := by
    refine holdsAt_eq fun condition hcondition hpath => ?_
    obtain ⟨-, hcolumn⟩ | ⟨link, -, hlink, -⟩ := hlisted condition hcondition
    · exact hagree.columns row hrow _ hcolumn
    · exact absurd (hpath.symm.trans hlink) nofun
  cases depth with
  | zero => exact hat
  | succ depth =>
    rw [Database.satisfies, Database.satisfies, hat]
    refine congrArg _ ?_
    rw [Bool.eq_iff_iff, List.all_eq_true, List.all_eq_true]
    refine forall₂_congr fun relation hrelation => ?_
    obtain ⟨condition, hcondition, hhead⟩ := List.mem_filterMap.mp hrelation
    have hjoin : left.join (some row) relation = right.join (some row) relation := by
      obtain ⟨hpath, -⟩ | ⟨link, hlink, hpath, -⟩ := hlisted condition hcondition
      · rw [hpath] at hhead
        exact nomatch hhead
      · rw [hpath] at hhead
        cases hhead
        simp only [Database.join, hagree.links row hrow _ hlink]
    have hbelow : ∀ lower ∈ conditions.filterMap (·.below relation),
        lower.path = [] ∧ lower.column = "id" := by
      intro lower hlower
      obtain ⟨upper, hupper, hbelow⟩ := List.mem_filterMap.mp hlower
      obtain ⟨hpath, hcolumn, -⟩ := below_eq_some_iff.mp hbelow
      obtain ⟨hroot, -⟩ | ⟨link, -, hlink, hid⟩ := hlisted upper hupper
      · exact absurd (hroot.symm.trans hpath) nofun
      · exact ⟨(List.cons.inj (hpath.symm.trans hlink)).2, hcolumn.trans hid⟩
    rw [hjoin, List.any_congr rfl fun other => satisfies_ids hbelow]

theorem choices_eq (hagree : Agree model left right) (hfield : field ∈ allowedDbFields)
    (hlisted : ∀ condition ∈ conditions, Listed condition.path condition.column) :
    left.choices orm model field conditions = right.choices orm model field conditions := by
  rw [Database.choices, Database.choices, ← hagree.objects,
    List.filter_congr fun row hrow => satisfies_eq hagree hrow hlisted,
    List.map_congr_left fun row hrow =>
      hagree.columns row (List.mem_of_mem_filter hrow) field hfield]

theorem mem_of_isIn {names : List String} {name : String}
    (hname : isIn names (.str name) = .ok true) : name ∈ names := by
  rw [isIn, if_pos (show (Value.str name).hashable = true from rfl), Except.ok.injEq,
    List.any_eq_true] at hname
  obtain ⟨other, hother, hsame⟩ := hname
  exact of_decide_eq_true hsame ▸ hother

theorem Queried.resolve (hqueried : Queried dc modelKey field filter) :
    resolveDbQuery orm database dc template =
      .ok ((orm.conditions (modelName modelKey) (safeKwargs modelKey template filter)).elim []
        (database.choices orm (modelName modelKey) field)) := by
  simp only [resolveDbQuery, hqueried.model, hqueried.name, hqueried.kwargs,
    hqueried.modelAllowed, hqueried.fieldAllowed, bind, Except.bind, Bool.not_true,
    Bool.false_eq_true, if_false]
  rfl

theorem Queried.model_eq (hqueried : Queried dc modelKey field filter) :
    queriedModel dc = modelName modelKey := by
  simp only [queriedModel, hqueried.model]

theorem queried_or_constant (orm : Orm) (dc : Value) (template : Option Template) :
    (∃ modelKey field filter, Queried dc modelKey field filter) ∨
      ∀ left right, resolveDbQuery orm left dc template = resolveDbQuery orm right dc template := by
  cases hmodel : dc.tryGetOr "model" (.str "") with
  | error => exact .inr fun _ _ => by simp only [resolveDbQuery, hmodel, bind, Except.bind]
  | ok modelKey =>
  cases hname : dc.tryGetOr "field" (.str "name") with
  | error => exact .inr fun _ _ => by simp only [resolveDbQuery, hmodel, hname, bind, Except.bind]
  | ok field =>
  cases hkwargs : dc.tryGetOr "filter" (.dict []) with
  | error =>
    exact .inr fun _ _ => by simp only [resolveDbQuery, hmodel, hname, hkwargs, bind, Except.bind]
  | ok filter =>
  refine or_iff_not_imp_left.mpr fun hnone left right => ?_
  simp only [resolveDbQuery, hmodel, hname, hkwargs, bind, Except.bind]
  split
  · rfl
  · next modelAllowed hmodelAllowed =>
    cases modelAllowed with
    | false => rfl
    | true =>
    rw [Bool.not_true, if_neg Bool.false_ne_true, if_neg Bool.false_ne_true]
    split
    · rfl
    · next fieldAllowed hfieldAllowed =>
      cases fieldAllowed with
      | false => rfl
      | true =>
        rw [Bool.not_true, if_neg Bool.false_ne_true, if_neg Bool.false_ne_true]
        split
        · exact absurd ⟨_, _, _, hmodel, hname, hkwargs, hmodelAllowed, hfieldAllowed⟩ hnone
        · rfl

/-! ## Keys that lead further -/

def presence (schema : Schema) : Orm := ⟨schema, fun _ _ => some (· ≠ .null), fun _ _ => true⟩

def fullDatabase (model : String) : Database :=
  ⟨fun _ => [⟨model, 1⟩], fun _ _ => .text "", fun _ _ => [⟨model, 2⟩]⟩

/-- What is listed of the one object is as in the full database; the rest is missing. -/
def bareDatabase (model : String) : Database where
  objects _ := [⟨model, 1⟩]
  column row column := if row.id = 1 ∧ column ∈ allowedDbFields then .text "" else .null
  related row relation := if row.id = 1 ∧ relation ∈ linkFields then [⟨model, 2⟩] else []

theorem agree_bare (other : String) : Agree model (fullDatabase other) (bareDatabase other) where
  objects := rfl
  columns row hrow column hcolumn := by
    obtain rfl := List.mem_singleton.mp hrow
    simp [Database.cell, fullDatabase, bareDatabase, hcolumn]
  links row hrow link hlink := by
    obtain rfl := List.mem_singleton.mp hrow
    simp [fullDatabase, bareDatabase, hlink]

theorem full_satisfies (hholds : ∀ condition ∈ conditions, ∀ cell ≠ .null, condition.holds cell) :
    (fullDatabase model).satisfies depth (some row) conditions := by
  have hat : ∀ row conditions, (∀ condition ∈ conditions, ∀ cell ≠ Cell.null,
      condition.holds cell) → (fullDatabase model).holdsAt (some row) conditions := by
    intro row conditions hholds
    refine List.all_eq_true.mpr fun condition hcondition => ?_
    rw [Bool.or_eq_true]
    refine .inr (hholds condition hcondition _ ?_)
    simp only [Database.cell, fullDatabase]
    split <;> exact nofun
  induction depth generalizing row conditions with
  | zero => exact hat row conditions hholds
  | succ depth ih =>
    rw [Database.satisfies, hat row conditions hholds, Bool.true_and, List.all_eq_true]
    intro relation _
    refine List.any_eq_true.mpr ⟨some ⟨model, 2⟩, List.mem_singleton.mpr rfl, ih ?_⟩
    intro lower hlower
    obtain ⟨upper, hupper, hbelow⟩ := List.mem_filterMap.mp hlower
    rw [(below_eq_some_iff.mp hbelow).2.2]
    exact hholds upper hupper

theorem not_satisfies_root (hcondition : condition ∈ conditions) (hpath : condition.path = [])
    (hfails : condition.holds (database.cell joined condition.column) = false) :
    database.satisfies depth joined conditions = false := by
  have hat : database.holdsAt joined conditions = false := by
    refine List.all_eq_false.mpr ⟨condition, hcondition, ?_⟩
    simp [hpath, hfails]
  cases depth with
  | zero => exact hat
  | succ depth => rw [Database.satisfies, hat, Bool.false_and]

theorem not_satisfies_below {rest : List String} (hcondition : condition ∈ conditions)
    (hpath : condition.path = relation :: rest)
    (hfails : ∀ other ∈ database.join joined relation, ∀ lowers : List Condition,
      { condition with path := rest } ∈ lowers →
        database.satisfies depth other lowers = false) :
    database.satisfies (depth + 1) joined conditions = false := by
  rw [Database.satisfies, Bool.and_eq_false_iff]
  refine .inr (List.all_eq_false.mpr ⟨relation,
    List.mem_filterMap.mpr ⟨condition, hcondition, by rw [hpath, List.head?_cons]⟩, ?_⟩)
  rw [Bool.not_eq_true, List.any_eq_false]
  intro other hother
  rw [Bool.not_eq_true]
  exact hfails other hother _ (List.mem_filterMap.mpr
    ⟨condition, hcondition, below_eq_some_iff.mpr ⟨hpath, rfl, rfl⟩⟩)

theorem not_satisfies_none (hcondition : condition ∈ conditions)
    (hdepth : condition.path.length ≤ depth) (hnull : condition.holds .null = false) :
    database.satisfies depth none conditions = false := by
  induction depth generalizing conditions condition with
  | zero =>
    exact not_satisfies_root hcondition (List.length_eq_zero_iff.mp (Nat.le_zero.mp hdepth)) hnull
  | succ depth ih =>
    cases hpath : condition.path with
    | nil => exact not_satisfies_root hcondition hpath hnull
    | cons relation rest =>
      refine not_satisfies_below hcondition hpath fun other hother lowers hlower => ?_
      obtain rfl := List.mem_singleton.mp hother
      rw [hpath] at hdepth
      exact ih hlower (Nat.le_of_succ_le_succ hdepth) hnull

theorem bare_not_satisfies (hcondition : condition ∈ conditions)
    (hdepth : condition.path.length ≤ depth) (hnull : condition.holds .null = false)
    (hfurther : ¬ Listed condition.path condition.column) :
    (bareDatabase model).satisfies depth (some ⟨model, 1⟩) conditions = false := by
  have hleaf : ∀ id column, (id = 1 → column ∉ allowedDbFields) → column ≠ "id" →
      (bareDatabase model).cell (some ⟨model, id⟩) column = .null := by
    intro id column hcolumn hid
    simp only [Database.cell, if_neg hid, bareDatabase, ite_eq_right_iff]
    exact fun hlisted => absurd hlisted.2 (hcolumn hlisted.1)
  cases hpath : condition.path with
  | nil =>
    have hcolumn : condition.column ∉ allowedDbFields :=
      fun hcolumn => hfurther (.inl ⟨hpath, hcolumn⟩)
    refine not_satisfies_root hcondition hpath ?_
    rw [hleaf 1 _ (fun _ => hcolumn) (fun hid => hcolumn (hid ▸ by decide)), hnull]
  | cons relation rest =>
    rw [hpath] at hdepth
    obtain ⟨depth, rfl⟩ := Nat.exists_eq_add_one_of_ne_zero (Nat.ne_of_gt (Nat.lt_of_lt_of_le
      (Nat.succ_pos _) hdepth))
    have hrest := Nat.le_of_succ_le_succ hdepth
    refine not_satisfies_below hcondition hpath fun other hother lowers hlower => ?_
    by_cases hlink : relation ∈ linkFields
    · have hother : other = some ⟨model, 2⟩ := by
        simpa [Database.join, bareDatabase, hlink] using hother
      subst hother
      cases rest with
      | nil =>
        have hid : condition.column ≠ "id" := fun hid =>
          hfurther (.inr ⟨relation, hlink, hpath, hid⟩)
        exact not_satisfies_root hlower rfl
          ((congrArg condition.holds (hleaf 2 _ nofun hid)).trans hnull)
      | cons next rest =>
        obtain ⟨depth, rfl⟩ := Nat.exists_eq_add_one_of_ne_zero (Nat.ne_of_gt (Nat.lt_of_lt_of_le
          (Nat.succ_pos _) hrest))
        refine not_satisfies_below hlower rfl fun other hother lowers hlower => ?_
        obtain rfl := List.mem_singleton.mp hother
        exact not_satisfies_none hlower (Nat.le_of_succ_le_succ hrest) hnull
    · have hother : other = none := by
        simpa [Database.join, bareDatabase, hlink] using hother
      subst hother
      exact not_satisfies_none hlower hrest hnull

theorem choices_of_one (hobjects : database.objects model = [row]) :
    database.choices orm model field conditions =
      if database.satisfies (conditions.map (·.path.length)).sum (some row) conditions then
        [database.cell (some row) field]
      else [] := by
  rw [Database.choices, hobjects]
  cases hsatisfies : database.satisfies (conditions.map (·.path.length)).sum (some row)
      conditions <;> simp [hsatisfies]

theorem full_choices (hholds : ∀ condition ∈ conditions, ∀ cell ≠ .null, condition.holds cell) :
    (fullDatabase model).choices orm model field conditions ≠ [] := by
  rw [choices_of_one rfl, full_satisfies hholds, if_pos rfl]
  exact List.cons_ne_nil _ _

theorem bare_choices (hcondition : condition ∈ conditions) (hnull : condition.holds .null = false)
    (hfurther : ¬ Listed condition.path condition.column) :
    (bareDatabase model).choices orm model field conditions = [] := by
  have hdepth : condition.path.length ≤ (conditions.map (·.path.length)).sum :=
    List.le_sum_of_mem (List.mem_map.mpr ⟨condition, hcondition, rfl⟩)
  rw [choices_of_one rfl, bare_not_satisfies hcondition hdepth hnull hfurther]
  exact if_neg Bool.false_ne_true

theorem conditions_listed {conditions : List Condition}
    (hconditions : orm.conditions model filter = some conditions)
    (hlisted : (∃ entry ∈ filter, endpoint orm.schema model entry.1 = none) ∨
      ∀ entry ∈ filter, ∀ stop, endpoint orm.schema model entry.1 = some stop →
        Listed stop.path stop.column) :
    ∀ condition ∈ conditions, Listed condition.path condition.column := by
  rw [Orm.conditions, Option.ite_none_right_eq_some, List.all_eq_true, Option.some.injEq]
    at hconditions
  obtain ⟨hknown, rfl⟩ := hconditions
  intro condition hcondition
  obtain ⟨entry, hentry, hcondition⟩ := List.mem_filterMap.mp hcondition
  obtain ⟨stop, hstop, hholds⟩ := Option.bind_eq_some_iff.mp hcondition
  obtain ⟨holds, -, rfl⟩ := Option.map_eq_some_iff.mp hholds
  cases hlisted with
  | inl hunknown =>
    obtain ⟨other, hother, hnone⟩ := hunknown
    have hsome := hknown other hother
    rw [Orm.condition, hnone] at hsome
    exact nomatch hsome
  | inr hlisted => exact hlisted entry hentry stop hstop

/-- Whatever the lookups mean, choices depend on nothing else exactly when no key that is kept
leads past what is listed. -/
theorem determined_iff (schema : Schema) (dc : Value) (template : Option Template) :
    (∀ compare order, Determined ⟨schema, compare, order⟩ dc template) ↔
      StopsAtListed schema dc template := by
  constructor
  · intro hdetermined modelKey field filter hqueried
    by_contra hfurther
    rw [not_or] at hfurther
    obtain ⟨hknown, hfurther⟩ := hfurther
    push Not at hknown hfurther
    obtain ⟨entry, hentry, stop, hstop, hlisted⟩ := hfurther
    have hsame := hdetermined (presence schema).compare (presence schema).order
      (fullDatabase (modelName modelKey)) (bareDatabase (modelName modelKey))
      (hqueried.model_eq ▸ agree_bare _)
    let conditions := (safeKwargs modelKey template filter).filterMap
      ((presence schema).condition (modelName modelKey))
    have hconditions : (presence schema).conditions (modelName modelKey)
        (safeKwargs modelKey template filter) = some conditions := by
      refine if_pos (List.all_eq_true.mpr fun other hother => ?_)
      obtain ⟨stop, hstop⟩ := Option.ne_none_iff_exists'.mp (hknown other hother)
      simp [Orm.condition, presence, hstop]
    have hholds : ∀ condition ∈ conditions,
        condition.holds = fun cell => decide (cell ≠ Cell.null) := by
      intro condition hcondition
      obtain ⟨other, -, hcondition⟩ := List.mem_filterMap.mp hcondition
      obtain ⟨stop, -, hholds⟩ := Option.bind_eq_some_iff.mp hcondition
      cases hholds
      rfl
    have hcondition : ⟨stop.path, stop.column, (· ≠ .null)⟩ ∈ conditions :=
      List.mem_filterMap.mpr ⟨entry, hentry, by simp [Orm.condition, presence, hstop]⟩
    rw [hqueried.resolve, hqueried.resolve] at hsame
    change Except.ok (((presence schema).conditions _ _).elim _ _) =
      Except.ok (((presence schema).conditions _ _).elim _ _) at hsame
    rw [hconditions, Option.elim_some, Option.elim_some,
      bare_choices hcondition rfl hlisted] at hsame
    refine full_choices (fun condition hcondition cell hcell => ?_) (Except.ok.inj hsame)
    rw [hholds condition hcondition]
    exact decide_eq_true hcell
  · intro hstops compare order left right hagree
    obtain ⟨modelKey, field, filter, hqueried⟩ | hconstant :=
      queried_or_constant ⟨schema, compare, order⟩ dc template
    · rw [hqueried.resolve, hqueried.resolve]
      cases hconditions : Orm.conditions ⟨schema, compare, order⟩ (modelName modelKey)
          (safeKwargs modelKey template filter) with
      | none => rfl
      | some conditions =>
        exact congrArg Except.ok (choices_eq (hqueried.model_eq ▸ hagree)
          (mem_of_isIn hqueried.fieldAllowed)
          (conditions_listed hconditions (hstops modelKey field filter hqueried)))
    · exact hconstant left right

def hostOrm : Orm where
  schema _ name :=
    if name = "inventory" then some (.relation "inventory" "Inventory") else some (.column name)
  compare _
    | .str value => some fun cell => cell = .text value
    | _ => none
  order _ _ := true

def hostDatabase (inventoryVariables : String) : Database where
  objects _ := [⟨"Host", 1⟩]
  column row _ := if row.model = "Host" then .text "web1" else .text inventoryVariables
  related _ _ := [⟨"Inventory", 1⟩]

theorem variables_guessed : ¬ ∀ texts orm dc template,
    validateDynamicChoicesConfig texts dc = .ok (some []) → Determined orm dc template := by
  intro hdetermined
  let dc : Value := .dict [("enabled", .bool true), ("source_type", .str "db_query"),
    ("model", .str "hosts"), ("filter", .dict [("inventory__variables", .str "secret")])]
  have hvalid : validateDynamicChoicesConfig ⟨fun _ => "", fun _ => ""⟩ dc = .ok (some []) := by
    decide +kernel
  have hagree : Agree (queriedModel dc) (hostDatabase "secret") (hostDatabase "") := by
    refine ⟨rfl, fun row hrow column _ => ?_, fun _ _ _ _ => rfl⟩
    obtain rfl := List.mem_singleton.mp hrow
    rfl
  have hsecret : resolveDbQuery hostOrm (hostDatabase "secret") dc none = .ok [.text "web1"] := by
    decide +kernel
  have hother : resolveDbQuery hostOrm (hostDatabase "") dc none = .ok [] := by
    decide +kernel
  have hsame := hdetermined _ hostOrm dc none hvalid _ _ hagree
  rw [hsecret, hother] at hsame
  cases hsame

end Forail.DbChoices

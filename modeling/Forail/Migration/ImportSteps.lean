import Forail.Core.FallibleLoops
import Forail.Migration.ImportFromAwx

/-!
# What the steps of an import change

A related list only adds links.  An importer changes one table, and in it the row of the object
that it got, which keeps what the importer does not assign.
-/

namespace Forail.Migration

open Forail.FallibleLoops Forail.Json Forail.Tables

variable {env : Environment} {options : Options} {client : Client} {importer : Importer}
  {ctx ctx' : Context} {record : Value} {kind : Kind}

/-! ## Related lists -/

def Attaches (maps : Maps) (target : Kind) (child : Value) (pk : ℕ) : Prop :=
  ∃ id, child.item "id" = .ok id ∧ maps.get target id = .ok (some pk)

theorem mem_addLink {link other : Link} {db : Database} :
    other ∈ (db.addLink link).links ↔ other ∈ db.links ∨ other = link := by
  rw [Database.addLink]
  split
  · next hmem =>
    constructor
    · exact Or.inl
    · rintro (hother | rfl)
      · exact hother
      · exact hmem
  · rw [List.mem_append, List.mem_singleton]

theorem addLink_eq (link : Link) (db : Database) :
    db.addLink link = { db with links := (db.addLink link).links } := by
  rw [Database.addLink]
  split <;> rfl

def Attached (ctx : Context) (target : Kind) (link : ℕ → Link) (children : List Value)
    (links : List Link) : Prop :=
  ∀ other, other ∈ links ↔ other ∈ ctx.db.links ∨
    ∃ child ∈ children, ∃ pk, Attaches ctx.maps target child pk ∧ other = link pk

theorem attachAll_spec {resource : Resource} {id : Value} {sub : String} {target : Kind}
    {link : ℕ → Link}
    (hattach : attachAll client resource id sub target link ctx = .ok ctx') :
    ∃ children links, client.getSubList ctx.subRequests resource id sub = .ok children ∧
      ctx' = ⟨{ ctx.db with links := links }, ctx.maps, ctx.subRequests + 1⟩ ∧
      Attached ctx target link children links := by
  rw [attachAll] at hattach
  obtain ⟨children, hchildren, hloop⟩ := bind_eq_ok hattach
  have hspec : ∃ links, ctx' = ⟨{ ctx.db with links := links }, ctx.maps, ctx.subRequests + 1⟩ ∧
      Attached ctx target link children links := by
    apply foldlM_invariant (fun done state => ∃ links,
      state = ⟨{ ctx.db with links := links }, ctx.maps, ctx.subRequests + 1⟩ ∧
      Attached ctx target link done links) ⟨ctx.db.links, rfl, fun other => by simp⟩ _ hloop
    rintro before child after - state state' ⟨links, rfl, hlinks⟩ htaken
    obtain ⟨childId, hid, hget⟩ := bind_eq_ok htaken
    obtain ⟨found, hfound, hend⟩ := bind_eq_ok hget
    cases found with
    | none =>
      obtain rfl := Except.ok.inj hend
      refine ⟨links, rfl, fun other => (hlinks other).trans ?_⟩
      apply or_congr_right
      constructor
      · rintro ⟨other, hother, hlink⟩
        exact ⟨other, List.mem_append_left _ hother, hlink⟩
      · rintro ⟨other, hother, pk, hattaches, hlink⟩
        rcases List.mem_append.mp hother with hbefore | hlast
        · exact ⟨other, hbefore, pk, hattaches, hlink⟩
        · obtain rfl := List.mem_singleton.mp hlast
          obtain ⟨id', hid', hget'⟩ := hattaches
          obtain rfl := Except.ok.inj (hid.symm.trans hid')
          exact absurd (Except.ok.inj (hfound.symm.trans hget')).symm (Option.some_ne_none pk)
    | some pk =>
      obtain rfl := Except.ok.inj hend
      refine ⟨_, congrArg (fun db => (⟨db, ctx.maps, ctx.subRequests + 1⟩ : Context))
        (addLink_eq (link pk) _), fun other => ?_⟩
      rw [mem_addLink, hlinks other, or_assoc]
      apply or_congr_right
      constructor
      · rintro (⟨other, hother, hlink⟩ | rfl)
        · exact ⟨other, List.mem_append_left _ hother, hlink⟩
        · exact ⟨child, List.mem_append_right _ (List.mem_singleton_self child), pk,
            ⟨childId, hid, hfound⟩, rfl⟩
      · rintro ⟨other, hother, pk', hattaches, hlink⟩
        rcases List.mem_append.mp hother with hbefore | hlast
        · exact Or.inl ⟨other, hbefore, pk', hattaches, hlink⟩
        · obtain rfl := List.mem_singleton.mp hlast
          obtain ⟨id', hid', hget'⟩ := hattaches
          obtain rfl := Except.ok.inj (hid.symm.trans hid')
          obtain rfl := Option.some.inj (Except.ok.inj (hfound.symm.trans hget'))
          exact Or.inr hlink
  obtain ⟨links, hctx, hlinks⟩ := hspec
  exact ⟨children, links, hchildren, hctx, hlinks⟩

/-! ## Assignments -/

theorem set_fields_self (object : LocalObject) (field : String) (value : Value) :
    (object.set field value).fields field = value := by
  change Function.update object.fields field value field = value
  rw [Function.update_self]

def Importer.Keeps (importer : Importer) (field : String) (value : Value) (texts : Texts)
    (options : Options) (created : Bool) (record : Value) : Prop :=
  ∀ assignment ∈ importer.assignments, assignment.field = field → ∀ other,
    assignment.value texts options created record = .ok (some other) → other = value

theorem keeps_of_not_mem {field : String} {value : Value} {texts : Texts} {created : Bool}
    (hfield : field ∉ importer.assignments.map fun assignment => assignment.field) :
    importer.Keeps field value texts options created record := by
  intro assignment hmem hsame
  exact absurd (List.mem_map.mpr ⟨assignment, hmem, hsame⟩) hfield

theorem assign_fields {texts : Texts} {created : Bool} {object object' : LocalObject}
    {assignment : Assignment} {field : String} {value : Value}
    (hkeeps : assignment.field = field → ∀ other,
      assignment.value texts options created record = .ok (some other) → other = value)
    (hobject : object.fields field = value)
    (hassign : assign texts options created record object assignment = .ok object') :
    object'.fields field = value := by
  obtain ⟨set, hset, hend⟩ := bind_eq_ok hassign
  cases set with
  | none =>
    obtain rfl := Except.ok.inj hend
    exact hobject
  | some other =>
    obtain rfl := Except.ok.inj hend
    by_cases hfield : assignment.field = field
    · obtain rfl := hkeeps hfield other hset
      subst hfield
      exact Function.update_self _ _ _
    · exact (Function.update_of_ne (Ne.symm hfield) _ _).trans hobject

theorem assign_references {texts : Texts} {created : Bool} {object object' : LocalObject}
    {assignment : Assignment}
    (hassign : assign texts options created record object assignment = .ok object') :
    object'.references = object.references := by
  obtain ⟨value, -, hend⟩ := bind_eq_ok hassign
  cases value with
  | none =>
    obtain rfl := Except.ok.inj hend
    rfl
  | some value =>
    obtain rfl := Except.ok.inj hend
    rfl

theorem refer_cases {maps : Maps} {object object' : LocalObject} {reference : ReferenceField}
    (hrefer : refer maps record object reference = .ok object') :
    ∃ id ref, record.tryGet reference.source = .ok id ∧ reference.resolve maps id = .ok ref ∧
      object' = if reference.onlyFound ∧ ref = none then object
        else object.setReference reference.field ref := by
  obtain ⟨id, hid, hrest⟩ := bind_eq_ok hrefer
  obtain ⟨ref, href, hend⟩ := bind_eq_ok hrest
  refine ⟨id, ref, hid, href, ?_⟩
  split at hend
  · next hnone => rw [if_pos hnone]; exact (Except.ok.inj hend).symm
  · next hfound => rw [if_neg hfound]; exact (Except.ok.inj hend).symm

theorem refer_fields {maps : Maps} {object object' : LocalObject} {reference : ReferenceField}
    (hrefer : refer maps record object reference = .ok object') :
    object'.fields = object.fields := by
  obtain ⟨_, _, -, -, rfl⟩ := refer_cases hrefer
  split <;> rfl

theorem assigned_fields {texts : Texts} {maps : Maps} {created : Bool}
    {object object' : LocalObject} {field : String}
    (hkeeps : importer.Keeps field (object.fields field) texts options created record)
    (hassigned : importer.assigned texts options maps created record object = .ok object') :
    object'.fields field = object.fields field := by
  obtain ⟨middle, hmiddle, hrefer⟩ := bind_eq_ok hassigned
  have hreferences : object'.fields = middle.fields :=
    foldlM_keeps (fun state => state.fields = middle.fields) rfl
      (fun _ _ _ hkept htaken => (refer_fields htaken).trans hkept) hrefer
  rw [hreferences]
  apply foldlM_invariant (fun _ state => state.fields field = object.fields field) rfl _ hmiddle
  intro before assignment after hsplit state state' hkept htaken
  have hmem : assignment ∈ importer.assignments := by rw [hsplit]; simp
  exact assign_fields (hkeeps assignment hmem) hkept htaken

theorem assigned_of_mem {texts : Texts} {maps : Maps} {created : Bool}
    {object object' : LocalObject} {assignment : Assignment}
    (hmem : assignment ∈ importer.assignments)
    (honly : ∀ other ∈ importer.assignments, other.field = assignment.field → other = assignment)
    (hassigned : importer.assigned texts options maps created record object = .ok object') :
    ∃ set, assignment.value texts options created record = .ok set ∧
      ∀ value, set = some value → object'.fields assignment.field = value := by
  obtain ⟨middle, hmiddle, hrefer⟩ := bind_eq_ok hassigned
  have hreferences : object'.fields = middle.fields :=
    foldlM_keeps (fun state => state.fields = middle.fields) rfl
      (fun _ _ _ hkept htaken => (refer_fields htaken).trans hkept) hrefer
  rw [hreferences]
  have hdone : assignment ∈ importer.assignments →
      ∃ set, assignment.value texts options created record = .ok set ∧
        ∀ value, set = some value → middle.fields assignment.field = value := by
    apply foldlM_invariant (fun done state => assignment ∈ done →
      ∃ set, assignment.value texts options created record = .ok set ∧
        ∀ value, set = some value → state.fields assignment.field = value) _ _ hmiddle
    · exact fun hnone => absurd hnone List.not_mem_nil
    · intro before other after hsplit state state' hstate htaken hmem
      have hother : other ∈ importer.assignments := by rw [hsplit]; simp
      by_cases hsame : other = assignment
      · subst hsame
        obtain ⟨set, hset, hend⟩ := bind_eq_ok htaken
        refine ⟨set, hset, ?_⟩
        rintro value rfl
        obtain rfl := Except.ok.inj hend
        exact set_fields_self _ _ _
      · have hbefore : assignment ∈ before :=
          (List.mem_append.mp hmem).resolve_right fun hlast =>
            hsame (List.mem_singleton.mp hlast).symm
        obtain ⟨set, hset, hvalue⟩ := hstate hbefore
        refine ⟨set, hset, fun value hsome => ?_⟩
        have hfield : other.field ≠ assignment.field := fun hfield => hsame (honly other hother hfield)
        exact assign_fields (fun hsame => absurd hsame hfield) (hvalue value hsome) htaken
  exact hdone hmem

/-! ## Saved objects -/

def SavedFields : List String := ["modified", "inputs", "notification_configuration"]

theorem set_fields_ne {object : LocalObject} {field other : String} (value : Value)
    (hne : other ≠ field) : (object.set field value).fields other = object.fields other :=
  Function.update_of_ne hne _ _

theorem saveCredential_cases {db : Database} {pk : ℕ} {before object row : LocalObject}
    (hsaved : saveCredential env db pk before object = .ok row) :
    ∃ inputs, row = object.set "inputs" inputs := by
  rw [saveCredential.eq_def] at hsaved
  split at hsaved
  · exact absurd hsaved error_ne_ok
  · obtain ⟨_, -, hsaved⟩ := bind_eq_ok hsaved
    obtain ⟨_, -, hsaved⟩ := bind_eq_ok hsaved
    obtain ⟨_, -, hsaved⟩ := bind_eq_ok hsaved
    obtain ⟨_, -, hsaved⟩ := bind_eq_ok hsaved
    obtain ⟨_, -, hsaved⟩ := bind_eq_ok hsaved
    exact ⟨_, (Except.ok.inj hsaved).symm⟩

theorem saveNotificationTemplate_cases {pk : ℕ} {object row : LocalObject}
    (hsaved : saveNotificationTemplate env pk object = .ok row) :
    ∃ configuration, row = object.set "notification_configuration" configuration := by
  rw [saveNotificationTemplate.eq_def] at hsaved
  split at hsaved
  · exact absurd hsaved error_ne_ok
  · obtain ⟨_, -, hsaved⟩ := bind_eq_ok hsaved
    obtain ⟨_, -, hsaved⟩ := bind_eq_ok hsaved
    exact ⟨_, (Except.ok.inj hsaved).symm⟩

theorem stored_fields {db : Database} {pk : ℕ} {before object row : LocalObject} {field : String}
    (hfield : field ∉ SavedFields) (hstored : stored env db kind pk before object = .ok row) :
    row.fields field = object.fields field := by
  rw [SavedFields, List.mem_cons, List.mem_cons, List.mem_singleton, not_or, not_or] at hfield
  obtain ⟨hmodified, hinputs, hconfiguration⟩ := hfield
  rw [stored.eq_def] at hstored
  split at hstored
  · exact congrArg (fun object => object.fields field) (Except.ok.inj hstored).symm
  · obtain ⟨middle, hmiddle, hend⟩ := bind_eq_ok hstored
    obtain rfl := Except.ok.inj hend
    obtain ⟨inputs, rfl⟩ := saveCredential_cases hmiddle
    rw [set_fields_ne _ hmodified, set_fields_ne _ hinputs]
  · obtain ⟨middle, hmiddle, hend⟩ := bind_eq_ok hstored
    obtain rfl := Except.ok.inj hend
    obtain ⟨configuration, rfl⟩ := saveNotificationTemplate_cases hmiddle
    rw [set_fields_ne _ hmodified, set_fields_ne _ hconfiguration]
  · obtain rfl := Except.ok.inj hstored
    exact set_fields_ne _ hmodified

/-! ## Importing one entry -/

theorem wanted_cases {texts : Texts} {maps : Maps} {wanted : NaturalKey}
    (hwanted : importer.wanted texts maps record = .ok (some wanted)) :
    ∃ parents name text, resolveParents maps record importer.parents = .ok (some parents) ∧
      importer.name texts record = .ok name ∧ charField texts name = .ok text ∧
      wanted = ⟨some text, parents⟩ := by
  obtain ⟨parents, hparents, hrest⟩ := bind_eq_ok hwanted
  cases parents with
  | none => exact absurd (Except.ok.inj hrest).symm (Option.some_ne_none wanted)
  | some parents =>
    dsimp only at hrest
    split at hrest
    · exact absurd (Except.ok.inj hrest).symm (Option.some_ne_none wanted)
    · obtain ⟨name, hname, hrest⟩ := bind_eq_ok hrest
      obtain ⟨text, htext, hrest⟩ := bind_eq_ok hrest
      obtain rfl := Option.some.inj (Except.ok.inj hrest)
      exact ⟨parents, name, text, hparents, hname, htext, rfl⟩

/-- The object that an entry is imported to, before it is assigned to: a new one when none has
the natural key, and otherwise the only one that has it. -/
inductive Prior (kind : Kind) (wanted : NaturalKey) (db : Database) (pk : ℕ) :
    Bool → LocalObject → Prop where
  | created (hfree : db.get? ⟨kind, pk⟩ = none)
      (hnone : ∀ other row, db.get? ⟨kind, other⟩ = some row → naturalKey kind row ≠ wanted) :
      Prior kind wanted db pk true (newObject kind wanted)
  | found {before : LocalObject} (hrow : db.get? ⟨kind, pk⟩ = some before)
      (hkey : naturalKey kind before = wanted)
      (honly : ∀ other row, db.get? ⟨kind, other⟩ = some row → naturalKey kind row = wanted →
        other = pk) :
      Prior kind wanted db pk false before

/-- An entry is skipped, or its object is got, assigned to and saved, and entered in the map. -/
inductive Imports (env : Environment) (options : Options) (importer : Importer) (ctx : Context)
    (record : Value) : Context → Prop where
  | skipped (hskipped : importer.wanted env.texts ctx.maps record = .ok none) :
      Imports env options importer ctx record ctx
  | saved {wanted : NaturalKey} {pk : ℕ} {created : Bool}
      {before loaded object row : LocalObject} {db : Database} {id : Value} {ctx' : Context}
      (hwanted : importer.wanted env.texts ctx.maps record = .ok (some wanted))
      (hprior : Prior importer.kind wanted ctx.db pk created before)
      (hloaded : load env importer.kind before = .ok loaded)
      (hassigned :
        importer.assigned env.texts options ctx.maps created record loaded = .ok object)
      (hdb : ∀ ref, ref.kind ≠ importer.kind → db.get? ref = ctx.db.get? ref)
      (hstored : stored env db importer.kind pk before object = .ok row)
      (hid : record.item "id" = .ok id)
      (hmaps : ctx.maps.set importer.kind id pk = .ok ctx'.maps)
      (hrow : ctx'.db.get? ⟨importer.kind, pk⟩ = some row)
      (hothers : ∀ ref, ref ≠ ⟨importer.kind, pk⟩ → ctx'.db.get? ref = ctx.db.get? ref)
      (hlinks : ∀ link, link ∈ ctx.db.links → link ∈ ctx'.db.links)
      (hnew : ∀ link ∈ ctx'.db.links, link ∈ ctx.db.links ∨
        ∃ attachment child, importer.attachment = some attachment ∧
          link = attachment.link pk child) :
      Imports env options importer ctx record ctx'

theorem prior_of_got {db : Database} {wanted : NaturalKey} {table : Table LocalObject} {pk : ℕ}
    {created : Bool} {before : LocalObject}
    (hgot : Table.Got (naturalKey kind) wanted (newObject kind wanted) (db.tables kind) table pk
      created)
    (hbefore : table.get? pk = some before) : Prior kind wanted db pk created before := by
  cases hgot with
  | created hnone =>
    rw [Table.get?_insert_self] at hbefore
    obtain rfl := Option.some.inj hbefore
    exact .created (Table.get?_nextPk _) hnone
  | found hrow hkey honly =>
    obtain rfl := Option.some.inj (hrow.symm.trans hbefore)
    exact .found hrow hkey honly

theorem get?_setTable_ne {db : Database} {table : Table LocalObject} {ref : Ref}
    (hne : ref.kind ≠ kind) : (db.setTable kind table).get? ref = db.get? ref :=
  congrArg (fun table : Table LocalObject => table.get? ref.pk)
    (Database.tables_setTable_ne table db hne)

theorem get?_saved {db : Database} {wanted : NaturalKey} {new : LocalObject}
    {table : Table LocalObject} {pk : ℕ} {created : Bool} {row : LocalObject} {ref : Ref}
    (hgot : Table.Got (naturalKey kind) wanted new (db.tables kind) table pk created)
    (hne : ref ≠ ⟨kind, pk⟩) :
    (Database.setTable kind (table.update pk row) (db.setTable kind table)).get? ref =
      db.get? ref := by
  by_cases hkind : ref.kind = kind
  · obtain ⟨other, otherPk⟩ := ref
    obtain rfl : other = kind := hkind
    have hpk : otherPk ≠ pk := fun hsame => hne (by rw [hsame])
    rw [Database.get?_setTable, Table.get?_update_ne row hpk]
    exact hgot.get?_ne hpk
  · rw [get?_setTable_ne hkind, get?_setTable_ne hkind]

theorem imports_of_importObject
    (himport : importer.importObject env options client ctx record = .ok ctx') :
    Imports env options importer ctx record ctx' := by
  obtain ⟨wanted, hwanted, hrest⟩ := bind_eq_ok himport
  cases wanted with
  | none =>
    obtain rfl := Except.ok.inj hrest
    exact .skipped hwanted
  | some wanted =>
    obtain ⟨⟨db, pk, created⟩, hgot, hrest⟩ := bind_eq_ok hrest
    rw [Database.getOrCreate] at hgot
    split at hgot
    · next table pk' created' htable =>
      obtain ⟨rfl, rfl, rfl⟩ :
          ctx.db.setTable importer.kind table = db ∧ pk' = pk ∧ created' = created := by
        simpa using hgot
      have hgot' := Table.got_of_getOrCreate htable
      obtain ⟨before, hbefore⟩ := hgot'.exists
      obtain ⟨loaded, hloaded, hrest⟩ := bind_eq_ok hrest
      obtain ⟨object, hassigned, hrest⟩ := bind_eq_ok hrest
      obtain ⟨saved, hsaved, hrest⟩ := bind_eq_ok hrest
      obtain ⟨row, hstored, hsaved⟩ := bind_eq_ok hsaved
      obtain rfl := Except.ok.inj hsaved
      obtain ⟨id, hid, hrest⟩ := bind_eq_ok hrest
      obtain ⟨maps, hmaps, hrest⟩ := bind_eq_ok hrest
      rw [Database.get?_setTable, hbefore, Option.getD_some] at hloaded hstored
      have hprior := prior_of_got hgot' hbefore
      have hdb : ∀ ref : Ref, ref.kind ≠ importer.kind →
          (ctx.db.setTable importer.kind table).get? ref = ctx.db.get? ref :=
        fun _ => get?_setTable_ne
      rw [Database.tables_setTable] at hrest
      have hrow : (Database.setTable importer.kind (table.update pk' row)
          (ctx.db.setTable importer.kind table)).get? ⟨importer.kind, pk'⟩ = some row := by
        rw [Database.get?_setTable]
        exact Table.get?_update_self row (Table.lt_nextPk hbefore)
      have hothers : ∀ ref : Ref, ref ≠ ⟨importer.kind, pk'⟩ →
          (Database.setTable importer.kind (table.update pk' row)
            (ctx.db.setTable importer.kind table)).get? ref = ctx.db.get? ref :=
        fun _ => get?_saved hgot'
      dsimp only at hrest
      split at hrest
      · obtain rfl := Except.ok.inj hrest
        exact .saved hwanted hprior hloaded hassigned hdb hstored hid hmaps hrow hothers
          (fun _ hlink => hlink) fun _ hlink => Or.inl hlink
      · next attachment hattachment =>
        obtain ⟨_, links, -, rfl, hattached⟩ := attachAll_spec hrest
        refine .saved hwanted hprior hloaded hassigned hdb hstored hid hmaps hrow hothers
          (fun link hlink => (hattached link).mpr (Or.inl hlink)) fun link hlink => ?_
        apply ((hattached link).mp hlink).imp_right
        rintro ⟨_, _, child, _, hchild⟩
        exact ⟨attachment, child, hattachment, hchild⟩
    · exact absurd hgot error_ne_ok

theorem Imports.get?_ne {ref : Ref} (himports : Imports env options importer ctx record ctx')
    (hne : ref.kind ≠ importer.kind) : ctx'.db.get? ref = ctx.db.get? ref := by
  cases himports with
  | skipped _ => rfl
  | saved _ _ _ _ _ _ _ _ _ hothers _ _ =>
    apply hothers
    rintro rfl
    exact hne rfl

theorem set_ne {maps maps' : Maps} {other : Kind} {id : Value} {pk : ℕ}
    (hset : maps.set kind id pk = .ok maps') (hne : other ≠ kind) : maps' other = maps other := by
  rw [Maps.set] at hset
  split at hset
  · obtain rfl := Except.ok.inj hset
    exact Function.update_of_ne hne _ _
  · exact absurd hset error_ne_ok

theorem Imports.maps_ne (himports : Imports env options importer ctx record ctx')
    (hne : kind ≠ importer.kind) : ctx'.maps kind = ctx.maps kind := by
  cases himports with
  | skipped _ => rfl
  | saved _ _ _ _ _ _ _ hmaps _ _ _ _ => exact set_ne hmaps hne

theorem load_fields {before loaded : LocalObject} {field : String}
    (hfield : field ∉ ["inputs", "injectors"]) (hload : load env kind before = .ok loaded) :
    loaded.fields field = before.fields field := by
  rw [List.mem_cons, List.mem_singleton, not_or] at hfield
  rw [load] at hload
  split at hload
  · rw [loadCredentialType] at hload
    split at hload
    · split at hload
      · obtain rfl := Except.ok.inj hload
        rw [set_fields_ne _ hfield.2, set_fields_ne _ hfield.1]
      · exact absurd hload error_ne_ok
    · obtain rfl := Except.ok.inj hload
      rfl
  · obtain rfl := Except.ok.inj hload
    rfl

theorem newObject_fields {wanted : NaturalKey} {field : String} (hfield : field ≠ kind.nameField) :
    (newObject kind wanted).fields field = blank.fields field := by
  have hparents : ∀ (parents : List (String × Option Ref)) (object : LocalObject),
      (parents.foldl (fun object parent => object.setReference parent.1 parent.2) object).fields =
        object.fields := by
    intro parents
    induction parents with
    | nil => exact fun _ => rfl
    | cons parent parents ih => exact fun object => ih (object.setReference parent.1 parent.2)
  rw [newObject, hparents]
  exact set_fields_ne _ hfield

def fieldOf (db : Database) (ref : Ref) (field : String) : Value :=
  ((db.get? ref).getD blank).fields field

theorem Prior.fields {db : Database} {wanted : NaturalKey} {pk : ℕ} {created : Bool}
    {before : LocalObject} {field : String} (hprior : Prior kind wanted db pk created before)
    (hfield : field ≠ kind.nameField) :
    before.fields field = fieldOf db ⟨kind, pk⟩ field := by
  cases hprior with
  | created hfree _ => rw [fieldOf, hfree, Option.getD_none, newObject_fields hfield]
  | found hrow _ _ => rw [fieldOf, hrow, Option.getD_some]

theorem Imports.fieldOf_eq (himports : Imports env options importer ctx record ctx')
    {field : String} (hname : field ≠ importer.kind.nameField) (hsaved : field ∉ SavedFields)
    (hload : field ∉ ["inputs", "injectors"])
    (hkeeps : ∀ created value,
      importer.Keeps field value env.texts options created record) (ref : Ref) :
    fieldOf ctx'.db ref field = fieldOf ctx.db ref field := by
  cases himports with
  | skipped _ => rfl
  | @saved _ pk _ _ _ _ _ _ _ _ _ hprior hloaded hassigned _ hstored _ _ hrow hothers _ _ =>
    by_cases href : ref = ⟨importer.kind, pk⟩
    · subst href
      rw [← hprior.fields hname, fieldOf, hrow, Option.getD_some, stored_fields hsaved hstored,
        assigned_fields (hkeeps _ _) hassigned, load_fields hload hloaded]
    · rw [fieldOf, hothers ref href]
      rfl

/-! ## Natural keys of imported objects -/

def importerOf : Resource → Option Importer
  | .organizations => some organizations
  | .users => some users
  | .teams => some teams
  | .credentialTypes => some customTypes
  | .credentials => some credentials
  | .projects => some projects
  | .inventories => some inventories
  | .groups => some groups
  | .hosts => some hosts
  | .inventorySources => some inventorySources
  | .jobTemplates => some jobTemplates
  | .workflowJobTemplates => some workflowJobTemplates
  | .workflowNodes => some workflowNodes
  | .notificationTemplates => some notificationTemplates
  | .schedules => some schedules
  | .roles => none

/-- An importer sets nothing that objects of its kind are looked up by. -/
def Importer.KeepsKeys (importer : Importer) : Prop :=
  (importer.kind.nameField ∉ importer.assignments.map fun assignment => assignment.field) ∧
    ∀ field ∈ importer.kind.parentFields,
      field ∉ importer.references.map fun reference => reference.field

instance (importer : Importer) : Decidable importer.KeepsKeys :=
  inferInstanceAs (Decidable (_ ∧ _))

theorem keepsKeys_of_importerOf {resource : Resource} (himporter : importerOf resource = some importer) :
    importer.KeepsKeys := by
  cases resource <;> first
    | exact absurd himporter.symm (Option.some_ne_none _)
    | obtain rfl := Option.some.inj himporter; decide

theorem load_references {before loaded : LocalObject} (hload : load env kind before = .ok loaded) :
    loaded.references = before.references := by
  rw [load] at hload
  split at hload
  · rw [loadCredentialType] at hload
    split at hload
    · split at hload
      · obtain rfl := Except.ok.inj hload
        rfl
      · exact absurd hload error_ne_ok
    · obtain rfl := Except.ok.inj hload
      rfl
  · obtain rfl := Except.ok.inj hload
    rfl

theorem assigned_references {texts : Texts} {maps : Maps} {created : Bool}
    {object object' : LocalObject} {field : String}
    (hfield : field ∉ importer.references.map fun reference => reference.field)
    (hassigned : importer.assigned texts options maps created record object = .ok object') :
    object'.references field = object.references field := by
  obtain ⟨middle, hmiddle, hrefer⟩ := bind_eq_ok hassigned
  have hassignments : middle.references = object.references :=
    foldlM_keeps (fun state => state.references = object.references) rfl
      (fun _ _ _ hkept htaken => (assign_references htaken).trans hkept) hmiddle
  rw [← hassignments]
  apply foldlM_invariant (fun _ state => state.references field = middle.references field) rfl _
    hrefer
  intro before reference after hsplit state state' hkept htaken
  have hmem : reference ∈ importer.references := by rw [hsplit]; simp
  have hne : field ≠ reference.field := by
    rintro rfl
    exact hfield (List.mem_map.mpr ⟨reference, hmem, rfl⟩)
  obtain ⟨_, ref, -, -, rfl⟩ := refer_cases htaken
  split
  · exact hkept
  · exact (Function.update_of_ne hne _ _).trans hkept

theorem stored_references {db : Database} {pk : ℕ} {before object row : LocalObject}
    (hstored : stored env db kind pk before object = .ok row) :
    row.references = object.references := by
  rw [stored.eq_def] at hstored
  split at hstored
  · exact congrArg LocalObject.references (Except.ok.inj hstored).symm
  · obtain ⟨middle, hmiddle, hend⟩ := bind_eq_ok hstored
    obtain rfl := Except.ok.inj hend
    obtain ⟨inputs, rfl⟩ := saveCredential_cases hmiddle
    rfl
  · obtain ⟨middle, hmiddle, hend⟩ := bind_eq_ok hstored
    obtain rfl := Except.ok.inj hend
    obtain ⟨configuration, rfl⟩ := saveNotificationTemplate_cases hmiddle
    rfl
  · obtain rfl := Except.ok.inj hstored
    rfl

theorem naturalKey_saved {texts : Texts} {maps : Maps} {created : Bool} {db : Database} {pk : ℕ}
    {before loaded object row : LocalObject} (hkeeps : importer.KeepsKeys)
    (hloaded : load env importer.kind before = .ok loaded)
    (hassigned : importer.assigned texts options maps created record loaded = .ok object)
    (hstored : stored env db importer.kind pk before object = .ok row) :
    naturalKey importer.kind row = naturalKey importer.kind before := by
  have hname : row.fields importer.kind.nameField = before.fields importer.kind.nameField := by
    have hnames : ∀ kind : Kind,
        kind.nameField ∉ SavedFields ∧ kind.nameField ∉ ["inputs", "injectors"] := by
      intro kind
      cases kind <;> decide
    rw [stored_fields (hnames _).1 hstored,
      assigned_fields (keeps_of_not_mem hkeeps.1) hassigned, load_fields (hnames _).2 hloaded]
  have hparents : importer.kind.parentFields.map row.references =
      importer.kind.parentFields.map before.references := by
    apply List.map_congr_left
    intro field hfield
    rw [stored_references hstored, assigned_references (hkeeps.2 field hfield) hassigned,
      load_references hloaded]
  rw [naturalKey, naturalKey, hname, hparents]

theorem wanted_congr {texts : Texts} {maps maps' : Maps}
    (hresolve : ∀ parent ∈ importer.parents, ∀ id, parent.resolve maps id = parent.resolve maps' id) :
    importer.wanted texts maps record = importer.wanted texts maps' record := by
  have hparents : ∀ parents : List Parent,
      (∀ parent ∈ parents, ∀ id, parent.resolve maps id = parent.resolve maps' id) →
      resolveParents maps record parents = resolveParents maps' record parents := by
    intro parents
    induction parents with
    | nil => exact fun _ => rfl
    | cons parent parents ih =>
      intro hall
      have hfirst : parent.resolve maps = parent.resolve maps' :=
        funext (hall parent List.mem_cons_self)
      rw [resolveParents, resolveParents, hfirst,
        ih fun other hother => hall other (List.mem_cons_of_mem _ hother)]
  rw [Importer.wanted, Importer.wanted, hparents _ hresolve]

theorem mapped_congr {maps maps' : Maps} (hmaps : maps kind = maps' kind) (id : Value) :
    maps.mapped kind id = maps'.mapped kind id := by
  rw [Maps.mapped, Maps.mapped, Maps.get, Maps.get, hmaps]

/-! ## Steps of a run -/

def Custom (record : Value) : Prop :=
  ∃ managed, record.tryGet "managed" = .ok managed ∧ managed.truthy = false

/-- What may happen within the step of a resource: an entry of its list is imported, a managed
type is matched, an opt-in makes a user an administrator or an auditor, or neither the tables
nor the maps change. -/
inductive Step (env : Environment) (options : Options) (client : Client) (resource : Resource)
    (ctx : Context) : Context → Prop where
  | imports {importer : Importer} {records : List Value} {record : Value} {ctx' : Context}
      (himporter : importerOf resource = some importer)
      (hlist : client.getList resource = .ok records) (hrecord : record ∈ records)
      (hcustom : resource = .credentialTypes → Custom record)
      (himports : Imports env options importer ctx record ctx') :
      Step env options client resource ctx ctx'
  | matched {id : Value} {pk : ℕ} {maps : Maps} (hresource : resource = .credentialTypes)
      (hmaps : ctx.maps.set .credentialType id pk = .ok maps) :
      Step env options client resource ctx { ctx with maps := maps }
  | granted {pk : ℕ} {user : LocalObject} {db : Database} (hresource : resource = .roles)
      (hopted : options.grantSuperusers = true)
      (hsaved : ctx.db.save env .user pk user = .ok db) :
      Step env options client resource ctx { ctx with db := db }
  | aside {ctx' : Context} (hrows : ∀ ref, ctx'.db.get? ref = ctx.db.get? ref)
      (hmaps : ctx'.maps = ctx.maps)
      (hlinks : ∀ link, link ∈ ctx.db.links → link ∈ ctx'.db.links)
      (hnew : ∀ link ∈ ctx'.db.links, link ∈ ctx.db.links ∨
        (resource ≠ .workflowNodes → link.relation ∉ edgeFields)) :
      Step env options client resource ctx ctx'

open Relation (ReflTransGen)

variable {resource : Resource}

theorem step_of_attachAll {asked : Resource} {id : Value} {sub : String} {target : Kind}
    {link : ℕ → Link}
    (hrelation : resource ≠ .workflowNodes → ∀ pk, (link pk).relation ∉ edgeFields)
    (hattach : attachAll client asked id sub target link ctx = .ok ctx') :
    Step env options client resource ctx ctx' := by
  obtain ⟨_, links, -, rfl, hattached⟩ := attachAll_spec hattach
  refine .aside (fun _ => rfl) rfl (fun link hlink => (hattached link).mpr (Or.inl hlink)) ?_
  intro other hother
  apply ((hattached other).mp hother).imp_right
  rintro ⟨_, _, pk, _, rfl⟩ hresource
  exact hrelation hresource pk

theorem steps_of_importAll (himporter : importerOf resource = some importer)
    (hlist : importer.resource = resource) (hcustom : resource ≠ .credentialTypes)
    (himport : importer.importAll env options client ctx = .ok ctx') :
    ReflTransGen (Step env options client resource) ctx ctx' := by
  obtain ⟨records, hrecords, hloop⟩ := bind_eq_ok himport
  rw [hlist] at hrecords
  apply foldlM_steps _ hloop
  intro record hrecord state state' htaken
  exact .single (.imports himporter hrecords hrecord (fun htypes => absurd htypes hcustom)
    (imports_of_importObject htaken))

theorem step_of_importCredentialType {records : List Value}
    (hlist : client.getList .credentialTypes = .ok records) (hrecord : record ∈ records)
    (himport : importCredentialType env options client ctx record = .ok ctx') :
    ReflTransGen (Step env options client .credentialTypes) ctx ctx' := by
  obtain ⟨managed, hmanaged, hrest⟩ := bind_eq_ok himport
  split at hrest
  · obtain ⟨name, -, hrest⟩ := bind_eq_ok hrest
    split at hrest
    · obtain rfl := Except.ok.inj hrest
      exact .refl
    · obtain ⟨_, -, hrest⟩ := bind_eq_ok hrest
      obtain ⟨id, -, hrest⟩ := bind_eq_ok hrest
      obtain ⟨maps, hmaps, hrest⟩ := bind_eq_ok hrest
      obtain rfl := Except.ok.inj hrest
      exact .single (.matched rfl hmaps)
  · next hcustom =>
    exact .single (.imports rfl hlist hrecord
      (fun _ => ⟨managed, hmanaged, eq_false_of_ne_true hcustom⟩) (imports_of_importObject hrest))

theorem step_of_grantSystemRole {roleField member : Value}
    (hgrant : grantSystemRole env options roleField ctx member = .ok ctx') :
    ReflTransGen (Step env options client .roles) ctx ctx' := by
  obtain ⟨id, -, hrest⟩ := bind_eq_ok hgrant
  obtain ⟨found, -, hrest⟩ := bind_eq_ok hrest
  split at hrest
  · obtain rfl := Except.ok.inj hrest
    exact .refl
  · split at hrest
    · obtain rfl := Except.ok.inj hrest
      exact .refl
    · split at hrest
      · next hopted =>
        obtain ⟨db, hsaved, hrest⟩ := bind_eq_ok hrest
        obtain rfl := Except.ok.inj hrest
        exact .single (.granted rfl hopted hsaved)
      · obtain rfl := Except.ok.inj hrest
        exact .refl

theorem step_of_grantRole {object : Ref} {role : String} {holder : Kind} {member : Value}
    (hgrant : grantRole env object role holder ctx member = .ok ctx') :
    ReflTransGen (Step env options client .roles) ctx ctx' := by
  obtain ⟨id, -, hrest⟩ := bind_eq_ok hgrant
  obtain ⟨found, -, hrest⟩ := bind_eq_ok hrest
  split at hrest
  · obtain rfl := Except.ok.inj hrest
    exact .refl
  · dsimp only at hrest
    split at hrest
    · obtain rfl := Except.ok.inj hrest
      exact .single (.aside (fun _ => rfl) rfl (fun _ hlink => hlink) fun _ hlink => Or.inl hlink)
    · obtain rfl := Except.ok.inj hrest
      exact .refl

theorem steps_of_forMembers {id : Value} {sub : String}
    {body : Context → Value → Except String Context}
    (hbody : ∀ member state state', body state member = .ok state' →
      ReflTransGen (Step env options client .roles) state state')
    (hloop : forMembers client id sub body ctx = .ok ctx') :
    ReflTransGen (Step env options client .roles) ctx ctx' := by
  obtain ⟨members, -, hloop⟩ := bind_eq_ok hloop
  have hasked : Step env options client .roles ctx
      { ctx with subRequests := ctx.subRequests + 1 } :=
    .aside (fun _ => rfl) rfl (fun _ hlink => hlink) fun _ hlink => Or.inl hlink
  exact ReflTransGen.head hasked (foldlM_steps (fun member _ => hbody member) hloop)

theorem steps_of_importRole (himport : importRole env options client ctx record = .ok ctx') :
    ReflTransGen (Step env options client .roles) ctx ctx' := by
  obtain ⟨roleField, -, hrest⟩ := bind_eq_ok himport
  obtain ⟨summary, -, hrest⟩ := bind_eq_ok hrest
  obtain ⟨resourceType, -, hrest⟩ := bind_eq_ok hrest
  obtain ⟨resourceId, -, hrest⟩ := bind_eq_ok hrest
  split at hrest
  · obtain ⟨id, -, hrest⟩ := bind_eq_ok hrest
    exact steps_of_forMembers (fun _ _ _ => step_of_grantSystemRole) hrest
  · obtain ⟨found, -, hrest⟩ := bind_eq_ok hrest
    split at hrest
    · obtain rfl := Except.ok.inj hrest
      exact .refl
    · obtain ⟨object, -, hrest⟩ := bind_eq_ok hrest
      split at hrest
      · obtain rfl := Except.ok.inj hrest
        exact .refl
      · split at hrest
        · obtain rfl := Except.ok.inj hrest
          exact .refl
        · split at hrest
          · split at hrest
            · obtain rfl := Except.ok.inj hrest
              exact .refl
            · obtain ⟨id, -, hrest⟩ := bind_eq_ok hrest
              obtain ⟨middle, husers, hteams⟩ := bind_eq_ok hrest
              exact (steps_of_forMembers (fun _ _ _ => step_of_grantRole) husers).trans
                (steps_of_forMembers (fun _ _ _ => step_of_grantRole) hteams)
          · exact absurd hrest error_ne_ok

theorem steps_of_importResource
    (himport : importResource env options client resource ctx = .ok ctx') :
    ReflTransGen (Step env options client resource) ctx ctx' := by
  cases resource with
  | credentialTypes =>
    obtain ⟨records, hrecords, hloop⟩ := bind_eq_ok himport
    exact foldlM_steps (fun _ hrecord _ _ => step_of_importCredentialType hrecords hrecord) hloop
  | groups =>
    obtain ⟨middle, hmiddle, hattach⟩ := bind_eq_ok himport
    refine (steps_of_importAll rfl rfl Resource.noConfusion hmiddle).trans ?_
    have hchildren : "children" ∉ edgeFields := by decide
    exact foldlM_steps (fun _ _ _ _ htaken =>
      .single (step_of_attachAll (fun _ _ => hchildren) htaken)) hattach
  | workflowNodes =>
    obtain ⟨middle, hmiddle, hattach⟩ := bind_eq_ok himport
    refine (steps_of_importAll rfl rfl Resource.noConfusion hmiddle).trans ?_
    apply foldlM_steps _ hattach
    intro _ _ _ _ htaken
    exact foldlM_steps (fun _ _ _ _ htaken =>
      .single (step_of_attachAll (fun hne => absurd rfl hne) htaken)) htaken
  | notificationTemplates =>
    obtain ⟨middle, hmiddle, hattach⟩ := bind_eq_ok himport
    refine (steps_of_importAll rfl rfl Resource.noConfusion hmiddle).trans ?_
    apply foldlM_steps _ hattach
    intro _ _ _ _ htaken
    apply foldlM_steps _ htaken
    intro _ _ _ _ htaken
    apply foldlM_steps _ htaken
    intro hook hhook _ _ htaken
    have hhooks : ∀ hook ∈ hookFields, hook ∉ edgeFields := by decide
    exact .single (step_of_attachAll (fun _ _ => hhooks hook hhook) htaken)
  | roles =>
    obtain ⟨records, hrecords, hloop⟩ := bind_eq_ok himport
    exact foldlM_steps (fun _ _ _ _ => steps_of_importRole) hloop
  | _ => exact steps_of_importAll rfl rfl Resource.noConfusion himport

theorem kind_of_importerOf (himporter : importerOf resource = some importer) :
    importer.kind = resource.kind := by
  cases resource <;> first
    | exact absurd himporter.symm (Option.some_ne_none _)
    | obtain rfl := Option.some.inj himporter; rfl

theorem save_cases {db db' : Database} {pk : ℕ} {object : LocalObject}
    (hsaved : db.save env kind pk object = .ok db') :
    ∃ row, stored env db kind pk ((db.get? ⟨kind, pk⟩).getD blank) object = .ok row ∧
      db' = db.setTable kind ((db.tables kind).update pk row) := by
  obtain ⟨row, hrow, hend⟩ := bind_eq_ok hsaved
  exact ⟨row, hrow, (Except.ok.inj hend).symm⟩

theorem get?_save_ne {db db' : Database} {pk : ℕ} {object : LocalObject} {ref : Ref}
    (hsaved : db.save env kind pk object = .ok db') (hne : ref.kind ≠ kind) :
    db'.get? ref = db.get? ref := by
  obtain ⟨_, -, rfl⟩ := save_cases hsaved
  exact get?_setTable_ne hne

theorem Step.get?_ne {ref : Ref} (hstep : Step env options client resource ctx ctx')
    (hne : ref.kind ≠ resource.kind) : ctx'.db.get? ref = ctx.db.get? ref := by
  cases hstep with
  | imports himporter _ _ _ himports =>
    exact himports.get?_ne (by rw [kind_of_importerOf himporter]; exact hne)
  | matched _ _ => rfl
  | granted hresource _ hsaved =>
    subst hresource
    exact get?_save_ne hsaved hne
  | aside hrows _ _ _ => exact hrows ref

/-- A step imports an entry to the objects of a kind, or leaves them all, unless it makes users
administrators or auditors. -/
theorem Step.rows_cases (hstep : Step env options client resource ctx ctx') (hkind : kind ≠ .user) :
    (∀ pk, ctx'.db.get? ⟨kind, pk⟩ = ctx.db.get? ⟨kind, pk⟩) ∨
      ∃ importer records record, importerOf resource = some importer ∧ importer.kind = kind ∧
        client.getList resource = .ok records ∧ record ∈ records ∧
        (resource = .credentialTypes → Custom record) ∧
        Imports env options importer ctx record ctx' := by
  cases hstep with
  | @imports importer records record _ himporter hlist hrecord hcustom himports =>
    by_cases hsame : importer.kind = kind
    · exact Or.inr ⟨importer, records, record, himporter, hsame, hlist, hrecord, hcustom, himports⟩
    · exact Or.inl fun pk => himports.get?_ne (Ne.symm hsame)
  | matched _ _ => exact Or.inl fun _ => rfl
  | granted _ _ hsaved => exact Or.inl fun pk => get?_save_ne hsaved hkind
  | aside hrows _ _ _ => exact Or.inl fun pk => hrows _

theorem Step.exists {ref : Ref} {row : LocalObject}
    (hstep : Step env options client resource ctx ctx') (hrow : ctx.db.get? ref = some row) :
    ∃ row', ctx'.db.get? ref = some row' := by
  cases hstep with
  | @imports importer _ _ _ _ _ _ _ himports =>
    cases himports with
    | skipped _ => exact ⟨row, hrow⟩
    | @saved _ pk _ _ _ _ row' _ _ _ _ _ _ _ _ _ _ _ hown hothers _ _ =>
      by_cases href : ref = ⟨importer.kind, pk⟩
      · exact ⟨row', href ▸ hown⟩
      · exact ⟨row, (hothers ref href).trans hrow⟩
  | matched _ _ => exact ⟨row, hrow⟩
  | @granted pk user db hresource _ hsaved =>
    obtain ⟨saved, -, rfl⟩ := save_cases hsaved
    by_cases hkind : ref.kind = .user
    · obtain ⟨kind, other⟩ := ref
      obtain rfl : kind = .user := hkind
      by_cases hpk : other = pk
      · subst hpk
        refine ⟨saved, ?_⟩
        rw [Database.get?_setTable]
        exact Table.get?_update_self saved (Table.lt_nextPk hrow)
      · refine ⟨row, ?_⟩
        rw [Database.get?_setTable, Table.get?_update_ne saved hpk]
        exact hrow
    · exact ⟨row, (get?_setTable_ne hkind).trans hrow⟩
  | aside hrows _ _ _ => exact ⟨row, (hrows ref).trans hrow⟩

theorem Step.maps_ne (hstep : Step env options client resource ctx ctx')
    (hne : kind ≠ resource.kind) : ctx'.maps kind = ctx.maps kind := by
  cases hstep with
  | imports himporter _ _ _ himports =>
    exact himports.maps_ne (by rw [kind_of_importerOf himporter]; exact hne)
  | matched hresource hmaps =>
    subst hresource
    exact set_ne hmaps hne
  | granted _ _ _ => rfl
  | aside _ hmaps _ _ => rw [hmaps]

/-! ## Runs -/

theorem importResources_append {before after : List Resource}
    (himport : importResources env options client (before ++ resource :: after) ctx = .ok ctx') :
    ∃ first second, importResources env options client before ctx = .ok first ∧
      (if options.only resource = true then importResource env options client resource first
        else .ok first) = .ok second ∧
      importResources env options client after second = .ok ctx' := by
  rw [importResources, List.filter_append, List.foldlM_append] at himport
  obtain ⟨first, hfirst, hrest⟩ := bind_eq_ok himport
  by_cases honly : options.only resource = true
  · rw [List.filter_cons_of_pos honly, List.foldlM_cons] at hrest
    obtain ⟨second, hsecond, hrest⟩ := bind_eq_ok hrest
    exact ⟨first, second, hfirst, by rw [if_pos honly]; exact hsecond, hrest⟩
  · rw [List.filter_cons_of_neg honly] at hrest
    exact ⟨first, first, hfirst, by rw [if_neg honly], hrest⟩

def later (resource : Resource) : List Resource :=
  (resourceOrder.dropWhile fun other => other ≠ resource).tail

theorem runImport_split {db : Database} (resource : Resource)
    (hrun : runImport env options client db = .ok ctx) :
    ∃ first second, entry env options client resource db = .ok first ∧
      (if options.only resource = true then importResource env options client resource first
        else .ok first) = .ok second ∧
      importResources env options client (later resource) second = .ok ctx := by
  have horder : resourceOrder =
      (resourceOrder.takeWhile fun other => other ≠ resource) ++ resource :: later resource := by
    cases resource <;> rfl
  rw [runImport, horder] at hrun
  exact importResources_append hrun

def Commits (env : Environment) (options : Options) (client : Client) (db : Database) : Prop :=
  options.dryRun = false ∧ ∃ ctx, runImport env options client db = .ok ctx

theorem handle_cases (env : Environment) (options : Options) (client : Client) (db : Database) :
    ¬Commits env options client db ∧ handle env options client db = db ∨
      Commits env options client db ∧ ∃ ctx, runImport env options client db = .ok ctx ∧
        handle env options client db = ctx.db := by
  rw [handle]
  cases hrun : runImport env options client db with
  | error _ =>
    left
    refine ⟨fun hcommits => ?_, rfl⟩
    obtain ⟨-, ctx, hctx⟩ := hcommits
    exact error_ne_ok (hrun.symm.trans hctx)
  | ok ctx =>
    cases hdry : options.dryRun with
    | true =>
      left
      refine ⟨fun hcommits => ?_, if_pos rfl⟩
      exact Bool.false_ne_true (hcommits.1.symm.trans hdry)
    | false => exact Or.inr ⟨⟨hdry, ctx, hrun⟩, ctx, rfl, if_neg Bool.false_ne_true⟩

theorem importResources_keeps {resources : List Resource} (kept : Context → Prop)
    (hstep : ∀ resource ∈ resources, options.only resource = true → ∀ ctx ctx',
      Step env options client resource ctx ctx' → kept ctx → kept ctx')
    (himport : importResources env options client resources ctx = .ok ctx') (hkept : kept ctx) :
    kept ctx' := by
  apply foldlM_invariant (fun _ => kept) hkept _ himport
  intro before resource after hsplit state state' hstate htaken
  have hmem : resource ∈ resources.filter options.only := by rw [hsplit]; simp
  obtain ⟨hresource, honly⟩ := List.mem_filter.mp hmem
  exact steps_keep kept (hstep resource hresource honly) (steps_of_importResource htaken) hstate

theorem kind_ne_of_earlier {other : Resource}
    (hother : other ∈ resourceOrder.takeWhile fun other => other ≠ resource)
    (hroles : resource ≠ .roles) : resource.kind ≠ other.kind := by
  cases resource <;> revert other <;> first | decide | exact absurd rfl hroles

theorem kind_ne_of_later {other : Resource} (hother : other ∈ later resource)
    (husers : resource ≠ .users) : resource.kind ≠ other.kind := by
  cases resource <;> revert other <;> first | decide | exact absurd rfl husers

theorem get?_entry {db : Database} (hroles : resource ≠ .roles)
    (hentry : entry env options client resource db = .ok ctx) (pk : ℕ) :
    ctx.db.get? ⟨resource.kind, pk⟩ = db.get? ⟨resource.kind, pk⟩ :=
  importResources_keeps (fun ctx => ctx.db.get? ⟨resource.kind, pk⟩ = db.get? ⟨resource.kind, pk⟩)
    (fun _ hother _ _ _ hstep hsame =>
      (hstep.get?_ne (kind_ne_of_earlier hother hroles)).trans hsame) hentry rfl

theorem get?_later (husers : resource ≠ .users)
    (himport : importResources env options client (later resource) ctx = .ok ctx') (pk : ℕ) :
    ctx'.db.get? ⟨resource.kind, pk⟩ = ctx.db.get? ⟨resource.kind, pk⟩ :=
  importResources_keeps
    (fun state => state.db.get? ⟨resource.kind, pk⟩ = ctx.db.get? ⟨resource.kind, pk⟩)
    (fun _ hother _ _ _ hstep hsame =>
      (hstep.get?_ne (kind_ne_of_later hother husers)).trans hsame) himport rfl

end Forail.Migration

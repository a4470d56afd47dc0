import Forail.Migration.ImportSteps

/-!
# What an untrusted source gains

Without the opt-ins an import makes nobody a superuser or an auditor and takes no injectors.
Managed credential types stay as they are exactly when no type that is not managed at the
source has the name of one: the lookup of such a type does not ask whether the local one is
managed.
-/

namespace Forail.Migration

open Forail.FallibleLoops Forail.Json Forail.Tables

variable {env : Environment} {options : Options} {client : Client} {resource : Resource}
  {ctx ctx' : Context} {record : Value} {db : Database}

/-- A run without `--grant-superusers` and `--trust-injectors`. -/
structure Untrusted (options : Options) : Prop where
  grants : options.grantSuperusers = false
  injectors : options.trustInjectors = false

def NoPrivilegesGained (before after : Database) : Prop :=
  ∀ pk user, after.get? ⟨.user, pk⟩ = some user →
    ∀ field ∈ ["is_superuser", "is_system_auditor"], (user.fields field).truthy = true →
      ∃ old, before.get? ⟨.user, pk⟩ = some old ∧ (old.fields field).truthy = true

def injectorsOf (env : Environment) (row : LocalObject) : Except String Value :=
  (load env .credentialType row).map fun type => type.fields "injectors"

/-- The injectors of the types that existed are unchanged, those of the others are empty. -/
structure InjectorsKept (env : Environment) (before after : Database) : Prop where
  existing : ∀ pk row, before.get? ⟨.credentialType, pk⟩ = some row →
    ∃ row', after.get? ⟨.credentialType, pk⟩ = some row' ∧ injectorsOf env row' = injectorsOf env row
  new : ∀ pk row', before.get? ⟨.credentialType, pk⟩ = none →
    after.get? ⟨.credentialType, pk⟩ = some row' → injectorsOf env row' = .ok (.dict [])

def Managed (row : LocalObject) : Prop := (row.fields "managed").truthy = true

def ManagedKept (before after : Database) : Prop :=
  ∀ pk row, before.get? ⟨.credentialType, pk⟩ = some row → Managed row →
    after.get? ⟨.credentialType, pk⟩ = some row

def NamedLike (texts : Texts) (record : Value) (row : LocalObject) : Prop :=
  ∃ name text, record.item "name" = .ok name ∧ charField texts name = .ok text ∧
    textOf (row.fields "name") = some text

/-- The source lists a type that it does not manage under the name of a managed local one. -/
def NamesManaged (env : Environment) (options : Options) (client : Client) (db : Database) :
    Prop :=
  options.only .credentialTypes = true ∧ ∃ records,
    client.getList .credentialTypes = .ok records ∧ ∃ record ∈ records, Custom record ∧
      ∃ pk row, db.get? ⟨.credentialType, pk⟩ = some row ∧ Managed row ∧
        NamedLike env.texts record row

/-! ## Privileges -/

theorem users_keeps (huntrusted : Untrusted options) {field : String}
    (hfield : field ∈ ["is_superuser", "is_system_auditor"]) {created : Bool} {value : Value} :
    users.Keeps field value env.texts options created record := by
  intro assignment hmem hsame other hset
  have hassignment : assignment = superuser := by
    have hothers : ∀ a ∈ [orEmpty "first_name", orEmpty "last_name", orEmpty "email"],
        a.field ∉ ["is_superuser", "is_system_auditor"] := by
      simp [orEmpty]
    rcases List.mem_append.mp
      (show assignment ∈ [orEmpty "first_name", orEmpty "last_name", orEmpty "email"] ++ [superuser]
        from hmem) with hother | hsuperuser
    · exact absurd (hsame ▸ hfield) (hothers assignment hother)
    · exact List.mem_singleton.mp hsuperuser
  subst hassignment
  obtain ⟨flagged, -, hend⟩ := bind_eq_ok hset
  have hnot : ¬(flagged.truthy = true ∧ options.grantSuperusers = true) := by
    rw [huntrusted.grants]
    exact fun hboth => Bool.false_ne_true hboth.2
  rw [if_neg hnot] at hend
  exact absurd (Except.ok.inj hend).symm (Option.some_ne_none other)

theorem Step.privilege (huntrusted : Untrusted options)
    (hstep : Step env options client resource ctx ctx') {field : String}
    (hfield : field ∈ ["is_superuser", "is_system_auditor"]) (pk : ℕ) :
    fieldOf ctx'.db ⟨.user, pk⟩ field = fieldOf ctx.db ⟨.user, pk⟩ field := by
  cases hstep with
  | @imports importer _ record _ himporter _ _ _ himports =>
    by_cases hkind : importer.kind = .user
    · have hresource : resource = .users := by
        rw [kind_of_importerOf himporter] at hkind
        cases resource <;> first | rfl | exact Kind.noConfusion hkind | cases himporter
      subst hresource
      obtain rfl : users = importer := Option.some.inj himporter
      have hnames : ∀ field ∈ ["is_superuser", "is_system_auditor"],
          field ≠ users.kind.nameField ∧ field ∉ SavedFields ∧ field ∉ ["inputs", "injectors"] := by
        decide
      obtain ⟨hname, hsaved, hload⟩ := hnames field hfield
      exact himports.fieldOf_eq hname hsaved hload (fun _ _ => users_keeps huntrusted hfield) _
    · rw [fieldOf, himports.get?_ne (Ne.symm hkind)]
      rfl
  | matched _ _ => rfl
  | granted _ hopted _ => exact absurd (huntrusted.grants.symm.trans hopted) Bool.false_ne_true
  | aside hrows _ _ _ =>
    rw [fieldOf, hrows]
    rfl

theorem noPrivilegesGained_of_runImport (huntrusted : Untrusted options)
    (hrun : runImport env options client db = .ok ctx) : NoPrivilegesGained db ctx.db := by
  have hprivileges : ∀ pk, ∀ field ∈ ["is_superuser", "is_system_auditor"],
      fieldOf ctx.db ⟨.user, pk⟩ field = fieldOf db ⟨.user, pk⟩ field := by
    apply importResources_keeps (fun ctx => ∀ pk, ∀ field ∈ ["is_superuser", "is_system_auditor"],
      fieldOf ctx.db ⟨.user, pk⟩ field = fieldOf db ⟨.user, pk⟩ field) _ hrun
    · exact fun _ _ _ => rfl
    · intro resource _ _ ctx ctx' hstep hkept pk field hfield
      exact (hstep.privilege huntrusted hfield pk).trans (hkept pk field hfield)
  intro pk user huser field hfield htrue
  have hsame := hprivileges pk field hfield
  rw [fieldOf, huser, Option.getD_some, fieldOf] at hsame
  cases hold : db.get? ⟨.user, pk⟩ with
  | none =>
    have hblank : ∀ field ∈ ["is_superuser", "is_system_auditor"],
        (blank.fields field).truthy = false := by
      decide
    rw [hold, Option.getD_none] at hsame
    rw [hsame, hblank field hfield] at htrue
    exact absurd htrue Bool.false_ne_true
  | some old =>
    rw [hold, Option.getD_some] at hsame
    exact ⟨old, rfl, hsame ▸ htrue⟩

/-! ## Credential types -/

theorem customTypes_keeps {field : String}
    (hfield : field ∉ ["kind", "description", "inputs", "injectors"]) {created : Bool}
    {value : Value} : customTypes.Keeps field value env.texts options created record := by
  apply keeps_of_not_mem
  have hfields : customTypes.assignments.map (fun assignment => assignment.field) =
      ["kind", "description", "kind", "inputs", "injectors"] := rfl
  rw [hfields, List.mem_cons, List.mem_cons, List.mem_cons]
  rw [List.mem_cons, List.mem_cons] at hfield
  tauto

theorem customTypes_keeps_injectors (huntrusted : Untrusted options) {created : Bool}
    {value : Value} (hnew : created = true → value = .dict []) :
    customTypes.Keeps "injectors" value env.texts options created record := by
  intro assignment hmem hsame other hset
  have hassignment : assignment = injectors := by
    simp only [customTypes, List.mem_cons, List.not_mem_nil, or_false] at hmem
    rcases hmem with rfl | rfl | rfl | rfl | rfl
    · exact absurd hsame (by decide)
    · exact absurd hsame (by decide)
    · exact absurd hsame (by decide)
    · exact absurd hsame (by decide)
    · rfl
  subst hassignment
  obtain ⟨source, -, hend⟩ := bind_eq_ok hset
  rw [huntrusted.injectors, if_neg Bool.false_ne_true] at hend
  split at hend
  · next hcreated =>
    rw [hnew hcreated]
    exact (Option.some.inj (Except.ok.inj hend)).symm
  · exact absurd (Except.ok.inj hend).symm (Option.some_ne_none other)

theorem injectors_loaded {row loaded : LocalObject}
    (hload : load env .credentialType row = .ok loaded) :
    injectorsOf env row = .ok (loaded.fields "injectors") := by
  rw [injectorsOf, hload]
  rfl

theorem injectorsOf_eq {before loaded row : LocalObject}
    (hload : load env .credentialType before = .ok loaded)
    (hmanaged : row.fields "managed" = before.fields "managed")
    (hnamespace : row.fields "namespace" = before.fields "namespace")
    (hinjectors : row.fields "injectors" = loaded.fields "injectors") :
    injectorsOf env row = injectorsOf env before := by
  rw [injectors_loaded hload, injectorsOf, load, if_pos rfl, loadCredentialType, hmanaged,
    hnamespace]
  rw [load, if_pos rfl, loadCredentialType] at hload
  split at hload
  · split at hload
    · next hmanaged _ _ _ _ =>
      rw [if_pos hmanaged]
      obtain rfl := Except.ok.inj hload
      rfl
    · exact absurd hload error_ne_ok
  · next hcustom =>
    rw [if_neg hcustom, ← hinjectors]
    rfl

theorem injectorsOf_blank : injectorsOf env blank = .ok (.dict []) := by
  have hmanaged : (blank.fields "managed").truthy = false := by decide
  rw [injectorsOf, load, if_pos rfl, loadCredentialType, if_neg (by rw [hmanaged]; simp)]
  rfl

/-- The injectors of a type, or of a new one where there is none. -/
def typeInjectors (env : Environment) (db : Database) (pk : ℕ) : Except String Value :=
  injectorsOf env ((db.get? ⟨.credentialType, pk⟩).getD blank)

theorem Prior.injectors {wanted : NaturalKey} {pk : ℕ} {created : Bool} {before : LocalObject}
    (hprior : Prior .credentialType wanted db pk created before) :
    injectorsOf env before = typeInjectors env db pk := by
  cases hprior with
  | created hfree _ =>
    have hload : load env .credentialType blank = .ok blank := by
      have hmanaged : (blank.fields "managed").truthy = false := by decide
      rw [load, if_pos rfl, loadCredentialType, if_neg (by rw [hmanaged]; simp)]
    rw [typeInjectors, hfree, Option.getD_none]
    exact injectorsOf_eq hload (newObject_fields (by decide)) (newObject_fields (by decide))
      (newObject_fields (by decide))
  | found hrow _ _ => rw [typeInjectors, hrow, Option.getD_some]

theorem Imports.typeInjectors_eq (huntrusted : Untrusted options)
    (himports : Imports env options customTypes ctx record ctx') (pk : ℕ) :
    typeInjectors env ctx'.db pk = typeInjectors env ctx.db pk := by
  cases himports with
  | skipped _ => rfl
  | @saved wanted own created before loaded object row db _ _ _ hprior hloaded hassigned _ hstored
      _ _ hrow hothers _ _ =>
    by_cases hpk : pk = own
    · subst hpk
      have hnew : created = true → loaded.fields "injectors" = .dict [] := by
        intro hcreated
        have hbefore : injectorsOf env before = typeInjectors env ctx.db pk := hprior.injectors
        rw [injectors_loaded hloaded] at hbefore
        cases hprior with
        | created hfree _ =>
          have hnone : ctx.db.get? ⟨.credentialType, pk⟩ = none := hfree
          rw [typeInjectors, hnone, Option.getD_none, injectorsOf_blank] at hbefore
          exact Except.ok.inj hbefore
        | found _ _ _ => exact absurd hcreated Bool.false_ne_true
      have hkept : ∀ field ∉ ["kind", "description", "inputs", "injectors"],
          field ∉ SavedFields → row.fields field = before.fields field := by
        intro field hfield hsaved
        rw [stored_fields hsaved hstored, assigned_fields (customTypes_keeps hfield) hassigned]
        apply load_fields _ hloaded
        simp only [List.mem_cons, List.not_mem_nil, or_false] at hfield ⊢
        tauto
      have hinjectors : row.fields "injectors" = loaded.fields "injectors" := by
        rw [stored_fields (by decide) hstored,
          assigned_fields (customTypes_keeps_injectors huntrusted hnew) hassigned]
      have hown : ctx'.db.get? ⟨.credentialType, pk⟩ = some row := hrow
      rw [← hprior.injectors, typeInjectors, hown, Option.getD_some]
      exact injectorsOf_eq hloaded (hkept "managed" (by decide) (by decide))
        (hkept "namespace" (by decide) (by decide)) hinjectors
    · rw [typeInjectors, hothers _ fun hsame => hpk (congrArg Ref.pk hsame)]
      rfl

theorem Step.types_cases (hstep : Step env options client resource ctx ctx') :
    (∀ pk, ctx'.db.get? ⟨.credentialType, pk⟩ = ctx.db.get? ⟨.credentialType, pk⟩) ∨
      resource = .credentialTypes ∧ ∃ records record, client.getList resource = .ok records ∧
        record ∈ records ∧ Custom record ∧ Imports env options customTypes ctx record ctx' := by
  have htypes : Kind.credentialType ≠ .user := Kind.noConfusion
  apply (hstep.rows_cases htypes).imp_right
  rintro ⟨importer, records, record, himporter, hkind, hlist, hrecord, hcustom, himports⟩
  obtain rfl : resource = .credentialTypes := by
    rw [kind_of_importerOf himporter] at hkind
    cases resource <;> first | rfl | exact Kind.noConfusion hkind
  obtain rfl := Option.some.inj himporter
  exact ⟨rfl, records, record, hlist, hrecord, hcustom rfl, himports⟩

theorem Step.typeInjectors_eq (huntrusted : Untrusted options)
    (hstep : Step env options client resource ctx ctx') (pk : ℕ) :
    typeInjectors env ctx'.db pk = typeInjectors env ctx.db pk := by
  rcases hstep.types_cases with hsame | ⟨-, _, _, -, -, -, himports⟩
  · rw [typeInjectors, hsame]
    rfl
  · exact himports.typeInjectors_eq huntrusted pk

theorem injectorsKept_of_runImport (huntrusted : Untrusted options)
    (hrun : runImport env options client db = .ok ctx) : InjectorsKept env db ctx.db := by
  have hinjectors : ∀ pk, typeInjectors env ctx.db pk = typeInjectors env db pk := by
    apply importResources_keeps (fun ctx => ∀ pk, typeInjectors env ctx.db pk =
      typeInjectors env db pk) _ hrun
    · exact fun _ => rfl
    · intro resource _ _ ctx ctx' hstep hkept pk
      exact (hstep.typeInjectors_eq huntrusted pk).trans (hkept pk)
  have hexists : ∀ pk row, db.get? ⟨.credentialType, pk⟩ = some row →
      ∃ row', ctx.db.get? ⟨.credentialType, pk⟩ = some row' := by
    intro pk row hrow
    apply importResources_keeps (fun ctx => ∃ row', ctx.db.get? ⟨.credentialType, pk⟩ = some row')
      _ hrun
    · exact ⟨row, hrow⟩
    · rintro resource _ _ ctx ctx' hstep ⟨_, hkept⟩
      exact hstep.exists hkept
  constructor
  · intro pk row hrow
    obtain ⟨row', hrow'⟩ := hexists pk row hrow
    have hsame := hinjectors pk
    rw [typeInjectors, typeInjectors, hrow, hrow', Option.getD_some, Option.getD_some] at hsame
    exact ⟨row', hrow', hsame⟩
  · intro pk row' hnone hrow'
    have hsame := hinjectors pk
    rw [typeInjectors, typeInjectors, hnone, hrow', Option.getD_some, Option.getD_none,
      injectorsOf_blank] at hsame
    exact hsame

/-! ## Managed types -/

theorem customTypes_wanted {maps : Maps} {wanted : NaturalKey}
    (hwanted : customTypes.wanted env.texts maps record = .ok (some wanted)) {row : LocalObject}
    (hkey : naturalKey .credentialType row = wanted) : NamedLike env.texts record row := by
  obtain ⟨parents, name, text, -, hname, htext, rfl⟩ := wanted_cases hwanted
  exact ⟨name, text, hname, htext, congrArg NaturalKey.name hkey⟩

theorem customTypes_wanted_of_namedLike {maps : Maps} {row : LocalObject}
    (hnamed : NamedLike env.texts record row) :
    customTypes.wanted env.texts maps record = .ok (some (naturalKey .credentialType row)) := by
  obtain ⟨name, text, hname, htext, hrow⟩ := hnamed
  have hkey : naturalKey .credentialType row = ⟨some text, []⟩ := by
    rw [← hrow]
    rfl
  rw [hkey]
  change (customTypes.name env.texts record).bind (fun name =>
    (charField env.texts name).bind fun text =>
      .ok (some (⟨some text, []⟩ : NaturalKey))) = _
  rw [show customTypes.name env.texts record = .ok name from hname]
  change (charField env.texts name).bind _ = _
  rw [htext]
  rfl

theorem Step.managedKept (hnames : ¬NamesManaged env options client db)
    (honly : options.only resource = true) (hstep : Step env options client resource ctx ctx')
    (hkept : ManagedKept db ctx.db) : ManagedKept db ctx'.db := by
  intro pk row hrow hmanaged
  have hcurrent := hkept pk row hrow hmanaged
  rcases hstep.types_cases with hsame | ⟨rfl, _, record, hlist, hrecord, hcustom, himports⟩
  · rw [hsame]
    exact hcurrent
  · cases himports with
    | skipped _ => exact hcurrent
    | @saved wanted own _ _ _ _ _ _ _ _ hwanted hprior _ _ _ _ _ _ _ hothers _ _ =>
      by_cases hpk : pk = own
      · subst hpk
        exfalso
        cases hprior with
        | created hfree _ => exact Option.some_ne_none row (hcurrent.symm.trans hfree)
        | found hbefore hkey _ =>
          obtain rfl := Option.some.inj (hcurrent.symm.trans hbefore)
          exact hnames ⟨honly, _, hlist, _, hrecord, hcustom, pk, row, hrow, hmanaged,
            customTypes_wanted hwanted hkey⟩
      · rw [hothers _ fun hsame => hpk (congrArg Ref.pk hsame)]
        exact hcurrent

theorem managedKept_of_runImport (hnames : ¬NamesManaged env options client db)
    (hrun : runImport env options client db = .ok ctx) : ManagedKept db ctx.db :=
  importResources_keeps (fun ctx => ManagedKept db ctx.db)
    (fun _ _ honly _ _ hstep hkept => hstep.managedKept hnames honly hkept) hrun
    fun _ _ hrow _ => hrow

def NamedType (ctx : Context) (pk : ℕ) (text : String) : Prop :=
  ∃ row, ctx.db.get? ⟨.credentialType, pk⟩ = some row ∧ textOf (row.fields "name") = some text

def SavedType (env : Environment) (ctx : Context) (pk : ℕ) (text : String) : Prop :=
  ∃ row, ctx.db.get? ⟨.credentialType, pk⟩ = some row ∧ textOf (row.fields "name") = some text ∧
    row.fields "modified" = env.now

theorem Imports.savedType (himports : Imports env options customTypes ctx record ctx') {pk : ℕ}
    {row : LocalObject} {text : String}
    (hrow : ctx.db.get? ⟨.credentialType, pk⟩ = some row)
    (hname : textOf (row.fields "name") = some text) :
    (∃ row', ctx'.db.get? ⟨.credentialType, pk⟩ = some row' ∧
      textOf (row'.fields "name") = some text ∧
      (row'.fields "modified" = row.fields "modified" ∨ row'.fields "modified" = env.now)) ∧
    (NamedLike env.texts record row → SavedType env ctx' pk text) := by
  cases himports with
  | skipped hskipped =>
    refine ⟨⟨row, hrow, hname, Or.inl rfl⟩, fun hnamed => ?_⟩
    rw [customTypes_wanted_of_namedLike hnamed] at hskipped
    exact absurd (Except.ok.inj hskipped) (Option.some_ne_none _)
  | @saved wanted own _ before loaded object saved _ _ _ hwanted hprior hloaded hassigned _ hstored
      _ _ hown hothers _ _ =>
    by_cases hpk : pk = own
    · subst hpk
      have hsaved : SavedType env ctx' pk text := by
        have hbefore : before = row := by
          cases hprior with
          | created hfree _ => exact absurd (hrow.symm.trans hfree) (Option.some_ne_none row)
          | found hbefore _ _ => exact Option.some.inj (hbefore.symm.trans hrow)
        refine ⟨saved, hown, ?_, ?_⟩
        · rw [stored_fields (by decide) hstored,
            assigned_fields (customTypes_keeps (by decide)) hassigned,
            load_fields (by decide) hloaded, hbefore]
          exact hname
        · obtain rfl := Except.ok.inj hstored
          exact set_fields_self _ _ _
      obtain ⟨row', hrow', hname', hnow⟩ := hsaved
      exact ⟨⟨row', hrow', hname', Or.inr hnow⟩, fun _ => ⟨row', hrow', hname', hnow⟩⟩
    · have hsame : ctx'.db.get? ⟨.credentialType, pk⟩ = some row := by
        rw [hothers _ fun hsame => hpk (congrArg Ref.pk hsame)]
        exact hrow
      refine ⟨⟨row, hsame, hname, Or.inl rfl⟩, fun hnamed => ?_⟩
      obtain rfl := Option.some.inj (Except.ok.inj
        (hwanted.symm.trans (customTypes_wanted_of_namedLike hnamed)))
      exfalso
      cases hprior with
      | created _ hnone => exact hnone pk row hrow rfl
      | found _ _ honly => exact hpk (honly pk row hrow rfl)

theorem namedLike_of_name {row row' : LocalObject} {text : String}
    (hnamed : NamedLike env.texts record row) (hrow : textOf (row.fields "name") = some text)
    (hrow' : textOf (row'.fields "name") = some text) : NamedLike env.texts record row' := by
  obtain ⟨name, other, hname, htext, hother⟩ := hnamed
  obtain rfl := Option.some.inj (hother.symm.trans hrow)
  exact ⟨name, other, hname, htext, hrow'⟩

theorem NamedType.step {pk : ℕ} {text : String}
    (hstep : Step env options client resource ctx ctx') (hnamed : NamedType ctx pk text) :
    NamedType ctx' pk text := by
  rcases hstep.types_cases with hsame | ⟨-, _, _, -, -, -, himports⟩
  · rw [NamedType, hsame]
    exact hnamed
  · obtain ⟨row, hrow, hname⟩ := hnamed
    obtain ⟨⟨row', hrow', hname', -⟩, -⟩ := himports.savedType hrow hname
    exact ⟨row', hrow', hname'⟩

theorem SavedType.step {pk : ℕ} {text : String}
    (hstep : Step env options client resource ctx ctx') (hsaved : SavedType env ctx pk text) :
    SavedType env ctx' pk text := by
  rcases hstep.types_cases with hsame | ⟨-, _, _, -, -, -, himports⟩
  · rw [SavedType, hsame]
    exact hsaved
  · obtain ⟨row, hrow, hname, hnow⟩ := hsaved
    obtain ⟨⟨row', hrow', hname', hmodified⟩, -⟩ := himports.savedType hrow hname
    refine ⟨row', hrow', hname', ?_⟩
    rcases hmodified with hsame | hsame
    · rw [hsame, hnow]
    · exact hsame

theorem savedType_of_importCredentialTypes {records : List Value} {pk : ℕ} {row : LocalObject}
    {text : String} (hlist : client.getList .credentialTypes = .ok records)
    (hrecord : record ∈ records) (hcustom : Custom record) (htype : NamedType ctx pk text)
    (hname : textOf (row.fields "name") = some text) (hnamed : NamedLike env.texts record row)
    (himport : importCredentialTypes env options client ctx = .ok ctx') :
    SavedType env ctx' pk text := by
  obtain ⟨records', hrecords', hloop⟩ := bind_eq_ok himport
  obtain rfl := Except.ok.inj (hlist.symm.trans hrecords')
  have hinvariant : NamedType ctx' pk text ∧ (record ∈ records → SavedType env ctx' pk text) := by
    apply foldlM_invariant (fun done state => NamedType state pk text ∧
      (record ∈ done → SavedType env state pk text)) _ _ hloop
    · exact ⟨htype, fun hmem => absurd hmem List.not_mem_nil⟩
    · rintro before other after hsplit state state' ⟨hcurrent, hbefore⟩ htaken
      have hother : other ∈ records := by rw [hsplit]; simp
      have hsteps := step_of_importCredentialType hlist hother htaken
      constructor
      · exact steps_keep (fun state => NamedType state pk text)
          (fun _ _ hstep hstate => hstate.step hstep) hsteps hcurrent
      · intro hmem
        rcases List.mem_append.mp hmem with hdone | hlast
        · exact steps_keep (fun state => SavedType env state pk text)
            (fun _ _ hstep hstate => hstate.step hstep) hsteps (hbefore hdone)
        · obtain rfl := List.mem_singleton.mp hlast
          obtain ⟨managed, hmanaged, hfalse⟩ := hcustom
          obtain ⟨managed', hmanaged', hrest⟩ := bind_eq_ok htaken
          obtain rfl := Except.ok.inj (hmanaged.symm.trans hmanaged')
          rw [if_neg (by rw [hfalse]; exact Bool.false_ne_true)] at hrest
          obtain ⟨current, hrow, hcurrentName⟩ := hcurrent
          exact ((imports_of_importObject hrest).savedType hrow hcurrentName).2
            (namedLike_of_name hnamed hname hcurrentName)
  exact hinvariant.2 hrecord

theorem not_managedKept_of_namesManaged (hnames : NamesManaged env options client db)
    (hclock : ∀ pk row, db.get? ⟨.credentialType, pk⟩ = some row → Managed row →
      row.fields "modified" ≠ env.now)
    (hrun : runImport env options client db = .ok ctx) : ¬ManagedKept db ctx.db := by
  intro hkept
  obtain ⟨honly, records, hlist, record, hrecord, hcustom, pk, row, hrow, hmanaged, hnamed⟩ := hnames
  obtain ⟨name, text, hname, htext, hrowName⟩ := hnamed
  obtain ⟨first, second, hfirst, hsecond, hrest⟩ := runImport_split .credentialTypes hrun
  rw [if_pos honly] at hsecond
  have hbefore : NamedType first pk text :=
    importResources_keeps (fun ctx => NamedType ctx pk text)
      (fun _ _ _ _ _ hstep hstate => hstate.step hstep) hfirst ⟨row, hrow, hrowName⟩
  have hsaved : SavedType env second pk text :=
    savedType_of_importCredentialTypes hlist hrecord hcustom hbefore hrowName
      ⟨name, text, hname, htext, hrowName⟩ hsecond
  obtain ⟨row', hrow', -, hnow⟩ : SavedType env ctx pk text :=
    importResources_keeps (fun ctx => SavedType env ctx pk text)
      (fun _ _ _ _ _ hstep hstate => hstate.step hstep) hrest hsaved
  obtain rfl := Option.some.inj ((hkept pk row hrow hmanaged).symm.trans hrow')
  exact hclock pk row hrow hmanaged hnow

/-! ## The run -/

/-- An untrusted source gains no privileges and brings no injectors, and the managed types stay
exactly when no other type of the source has the name of one, or the run is rolled back. -/
theorem untrusted_gains_nothing_iff (huntrusted : Untrusted options)
    (hclock : ∀ pk row, db.get? ⟨.credentialType, pk⟩ = some row → Managed row →
      row.fields "modified" ≠ env.now) :
    NoPrivilegesGained db (handle env options client db) ∧
      InjectorsKept env db (handle env options client db) ∧
      (ManagedKept db (handle env options client db) ↔
        ¬(Commits env options client db ∧ NamesManaged env options client db)) := by
  rcases handle_cases env options client db with ⟨hrolled, hsame⟩ | ⟨hcommits, ctx, hrun, hsame⟩
  · rw [hsame]
    refine ⟨fun pk user huser field _ htrue => ⟨user, huser, htrue⟩, ⟨fun pk row hrow =>
      ⟨row, hrow, rfl⟩, fun pk row hnone hrow => ?_⟩, ?_⟩
    · exact absurd (hrow.symm.trans hnone) (Option.some_ne_none row)
    · exact iff_of_true (fun _ _ hrow _ => hrow) fun hboth => hrolled hboth.1
  · rw [hsame]
    refine ⟨noPrivilegesGained_of_runImport huntrusted hrun,
      injectorsKept_of_runImport huntrusted hrun, ?_⟩
    constructor
    · rintro hkept ⟨-, hnames⟩
      exact not_managedKept_of_namesManaged hnames hclock hrun hkept
    · intro hnot
      exact managedKept_of_runImport (fun hnames => hnot ⟨hcommits, hnames⟩) hrun

/-! ## Two sources -/

def machineDatabase : Database where
  tables kind :=
    if kind = .credentialType then
      ⟨[some ((((blank.set "name" (.str "Machine")).set "description" (.str "Logs in")).set
        "managed" (.bool true)).set "namespace" (.str "ssh"))]⟩
    else ⟨[]⟩
  links := []
  grants := []

def typeSource (name : String) : Client where
  getList resource :=
    .ok (if resource = .credentialTypes then
      [.dict [("id", .int 31), ("name", .str name), ("managed", .bool false)]] else [])
  getSubList _ _ _ _ := .ok []

theorem machineDatabase_rows {pk : ℕ} {row : LocalObject}
    (hrow : machineDatabase.get? ⟨.credentialType, pk⟩ = some row) :
    row.fields "name" = .str "Machine" ∧ row.fields "modified" = .null := by
  match pk with
  | 0 =>
    obtain rfl := Option.some.inj hrow
    exact ⟨rfl, rfl⟩
  | pk + 1 => exact absurd hrow.symm (Option.some_ne_none row)

theorem untrusted_gains_nothing_other :
    ManagedKept machineDatabase
      (handle exampleEnvironment defaultOptions (typeSource "My Cloud") machineDatabase) := by
  have huntrusted : Untrusted defaultOptions := ⟨rfl, rfl⟩
  refine (untrusted_gains_nothing_iff huntrusted fun pk row hrow _ => ?_).2.2.mpr ?_
  · rw [(machineDatabase_rows hrow).2]
    exact Value.noConfusion
  · rintro ⟨-, -, records, hlist, record, hrecord, -, pk, row, hrow, -, name, text, hname, htext,
      hsame⟩
    obtain rfl := Except.ok.inj hlist
    obtain rfl := List.mem_singleton.mp hrecord
    obtain rfl := Except.ok.inj hname
    obtain rfl := Except.ok.inj htext
    rw [(machineDatabase_rows hrow).1] at hsame
    exact absurd (Option.some.inj hsame) (by decide)

theorem managed_overwritten :
    ¬ ∀ env options client db, Untrusted options →
      NoPrivilegesGained db (handle env options client db) ∧
        InjectorsKept env db (handle env options client db) ∧
        ManagedKept db (handle env options client db) := by
  intro hall
  obtain ⟨-, -, hkept⟩ :=
    hall exampleEnvironment defaultOptions (typeSource "Machine") machineDatabase ⟨rfl, rfl⟩
  have hrow := hkept 0 _ rfl rfl
  have hchanged : ((handle exampleEnvironment defaultOptions (typeSource "Machine")
      machineDatabase).get? ⟨.credentialType, 0⟩).any
        (fun row => (row.fields "description").isText "Logs in") = false := by
    decide +kernel
  rw [hrow] at hchanged
  exact absurd hchanged (by decide +kernel)

end Forail.Migration

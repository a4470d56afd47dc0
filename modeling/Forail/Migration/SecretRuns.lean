import Forail.Core.Runs
import Forail.Migration.StoredSecrets

/-!
# Secrets over repeated runs

An import replaces the whole dictionary of a credential or of a notification template that it
matches, so a secret that was entered locally stays exactly when the source exports its field,
which AWX does not do, or does not list the object.
-/

namespace Forail.Migration

open Forail.FallibleLoops Forail.Json Forail.Runs Forail.Tables

variable {env : Environment} {options : Options} {client : Client} {ctx ctx' : Context}
  {record : Value} {db : Database} {store : SecretStore}

/-! ## The claim about one run -/

/-- Whether a field of an object holds a secret: an input that the credential type declares
secret, or a password of the type of a notification template. -/
def IsSecret (env : Environment) (db : Database) (kind : Kind) (object : LocalObject)
    (field : String) : Prop :=
  match kind with
  | .credential => ∃ ref row type secret, object.references "credential_type" = some ref ∧
      db.get? ref = some row ∧ load env .credentialType row = .ok type ∧
      flaggedFields "secret" (type.fields "inputs") = .ok secret ∧
      secret.any (·.isText field) = true
  | .notificationTemplate => ∃ passwords,
      (textOf (object.fields "notification_type")).bind passwordFields = some passwords ∧
      field ∈ passwords
  | _ => False

structure StoresSecret (env : Environment) (db : Database) (store : SecretStore) (pk : ℕ)
    (object : LocalObject) (field text : String) : Prop where
  row : db.get? ⟨store.importer.kind, pk⟩ = some object
  secret : IsSecret env db store.importer.kind object field
  stored : storedText object store.dictionary field = some text

def ImportedTo (env : Environment) (options : Options) (client : Client) (db : Database)
    (store : SecretStore) (object : LocalObject) (record : Value) : Prop :=
  ∃ ctx records, options.only store.resource = true ∧
    entry env options client store.resource db = .ok ctx ∧
    client.getList store.resource = .ok records ∧ record ∈ records ∧
    store.importer.wanted env.texts ctx.maps record =
      .ok (some (naturalKey store.importer.kind object))

def ExportedFor (env : Environment) (options : Options) (client : Client) (db : Database)
    (store : SecretStore) (object : LocalObject) (field : String) : Prop :=
  ∃ record, ImportedTo env options client db store object record ∧
    Exports store.dictionary record field

/-- A run keeps every secret that the source does not export a value for. -/
def KeepsSecrets (env : Environment) (options : Options) (client : Client) (db : Database) : Prop :=
  ∀ store ∈ secretStores, ∀ pk object field text,
    StoresSecret env db store pk object field text →
      ExportedFor env options client db store object field ∨
        ∃ object', (handle env options client db).get? ⟨store.importer.kind, pk⟩ = some object' ∧
          storedText object' store.dictionary field = some text

/-- The objects that a run matches have no secrets besides those that the source exports. -/
def ExportsSecrets (env : Environment) (options : Options) (client : Client) (db : Database) :
    Prop :=
  Commits env options client db → ∀ store ∈ secretStores, ∀ pk object field text,
    StoresSecret env db store pk object field text →
      (∃ record, ImportedTo env options client db store object record) →
        ExportedFor env options client db store object field

/-! ## The loop of an importer -/

structure SecretStore.Sound (store : SecretStore) : Prop where
  importer : importerOf store.resource = some store.importer
  users : store.resource ≠ .users
  roles : store.resource ≠ .roles
  resolve : ∀ parent ∈ store.importer.parents, ∀ maps maps' : Maps,
    (∀ kind ≠ store.importer.kind, maps kind = maps' kind) →
      ∀ id, parent.resolve maps id = parent.resolve maps' id
  exports : ∀ {env options maps created record loaded object db pk before row field text},
    store.importer.assigned env.texts options maps created record loaded = .ok object →
      stored env db store.importer.kind pk before object = .ok row →
        storedText row store.dictionary field = some text → Exports store.dictionary record field

theorem credentialStore_sound : credentialStore.Sound where
  importer := rfl
  users := Resource.noConfusion
  roles := Resource.noConfusion
  resolve := by
    intro parent hparent maps maps' hmaps id
    simp only [credentialStore, credentials, List.mem_cons, List.not_mem_nil, or_false] at hparent
    rcases hparent with rfl | rfl
    · exact mapped_congr (hmaps _ Kind.noConfusion) id
    · exact mapped_congr (hmaps _ Kind.noConfusion) id
  exports := exports_of_credential

theorem notificationStore_sound : notificationStore.Sound where
  importer := rfl
  users := Resource.noConfusion
  roles := Resource.noConfusion
  resolve := by
    intro parent hparent maps maps' hmaps id
    simp only [notificationStore, notificationTemplates, List.mem_singleton] at hparent
    subst hparent
    exact mapped_congr (hmaps _ Kind.noConfusion) id
  exports := exports_of_notificationTemplate

theorem sound_of_mem (hstore : store ∈ secretStores) : store.Sound := by
  rcases List.mem_cons.mp hstore with rfl | hlast
  · exact credentialStore_sound
  · obtain rfl := List.mem_singleton.mp hlast
    exact notificationStore_sound

def Matches (env : Environment) (store : SecretStore) (maps : Maps) (object : LocalObject)
    (record : Value) : Prop :=
  store.importer.wanted env.texts maps record =
    .ok (some (naturalKey store.importer.kind object))

/-- An object in the middle of the loop over the entries: it is as it was before the first
entry that matches it, and then has only what such entries export. -/
structure Replaced (env : Environment) (store : SecretStore) (maps : Maps)
    (object : LocalObject) (done : List Value) (current : LocalObject) : Prop where
  key : naturalKey store.importer.kind current = naturalKey store.importer.kind object
  unmatched : (∀ record ∈ done, ¬Matches env store maps object record) → current = object
  matched : (∃ record ∈ done, Matches env store maps object record) → ∀ field text,
    storedText current store.dictionary field = some text →
      ∃ record ∈ done, Matches env store maps object record ∧
        Exports store.dictionary record field

theorem Replaced.skip {maps : Maps} {object current : LocalObject} {done : List Value}
    (hreplaced : Replaced env store maps object done current)
    (hnot : ¬Matches env store maps object record) :
    Replaced env store maps object (done ++ [record]) current where
  key := hreplaced.key
  unmatched hnone := hreplaced.unmatched fun other hother =>
    hnone other (List.mem_append_left _ hother)
  matched := by
    rintro ⟨other, hother, hothers⟩ field text htext
    rcases List.mem_append.mp hother with hbefore | hlast
    · obtain ⟨found, hfound, hrest⟩ := hreplaced.matched ⟨other, hbefore, hothers⟩ field text htext
      exact ⟨found, List.mem_append_left _ hfound, hrest⟩
    · rw [List.mem_singleton.mp hlast] at hothers
      exact absurd hothers hnot

theorem Replaced.imports {maps : Maps} {pk : ℕ} {object current : LocalObject} {done : List Value}
    (hsound : store.Sound) (hmaps : ∀ kind ≠ store.importer.kind, ctx.maps kind = maps kind)
    (hcurrent : ctx.db.get? ⟨store.importer.kind, pk⟩ = some current)
    (hreplaced : Replaced env store maps object done current)
    (himports : Imports env options store.importer ctx record ctx') :
    ∃ current', ctx'.db.get? ⟨store.importer.kind, pk⟩ = some current' ∧
      Replaced env store maps object (done ++ [record]) current' := by
  have hmatches : Matches env store maps object record ↔
      store.importer.wanted env.texts ctx.maps record =
        .ok (some (naturalKey store.importer.kind current)) := by
    rw [Matches, hreplaced.key, wanted_congr fun parent hparent id =>
      hsound.resolve parent hparent maps ctx.maps (fun kind hne => (hmaps kind hne).symm) id]
  cases himports with
  | skipped hskipped =>
    refine ⟨current, hcurrent, hreplaced.skip fun hmatch => ?_⟩
    rw [hmatches, hskipped] at hmatch
    exact Option.some_ne_none _ (Except.ok.inj hmatch).symm
  | @saved wanted own created before loaded assigned saved _ _ _ hwanted hprior hloaded hassigned _
      hstored _ _ hown hothers _ _ =>
    by_cases hpk : pk = own
    · subst hpk
      cases hprior with
      | created hfree _ => exact absurd (hcurrent.symm.trans hfree) (Option.some_ne_none current)
      | found hrow hfound _ =>
        obtain rfl := Option.some.inj (hcurrent.symm.trans hrow)
        have hmatch : Matches env store maps object record := by
          rw [hmatches, hwanted, hfound]
        have hlast : record ∈ done ++ [record] :=
          List.mem_append_right _ (List.mem_singleton_self _)
        refine ⟨saved, hown, ?_, fun hnone => absurd hmatch (hnone record hlast),
          fun _ field text htext => ⟨record, hlast, hmatch,
            hsound.exports hassigned hstored htext⟩⟩
        rw [naturalKey_saved (keepsKeys_of_importerOf hsound.importer) hloaded hassigned hstored]
        exact hreplaced.key
    · refine ⟨current, (hothers _ fun hsame => hpk (congrArg Ref.pk hsame)).trans hcurrent,
        hreplaced.skip fun hmatch => hpk ?_⟩
      obtain rfl := Option.some.inj (Except.ok.inj (hwanted.symm.trans (hmatches.mp hmatch)))
      cases hprior with
      | created _ hnone => exact absurd rfl (hnone pk current hcurrent)
      | found _ _ honly => exact honly pk current hcurrent rfl

theorem replaced_of_importAll {pk : ℕ} {object : LocalObject} {records : List Value}
    (hsound : store.Sound) (hlist : client.getList store.importer.resource = .ok records)
    (hobject : ctx.db.get? ⟨store.importer.kind, pk⟩ = some object)
    (himport : store.importer.importAll env options client ctx = .ok ctx') :
    ∃ current, ctx'.db.get? ⟨store.importer.kind, pk⟩ = some current ∧
      Replaced env store ctx.maps object records current := by
  obtain ⟨records', hrecords', hloop⟩ := bind_eq_ok himport
  obtain rfl := Except.ok.inj (hlist.symm.trans hrecords')
  have hinvariant : (∀ kind ≠ store.importer.kind, ctx'.maps kind = ctx.maps kind) ∧
      ∃ current, ctx'.db.get? ⟨store.importer.kind, pk⟩ = some current ∧
        Replaced env store ctx.maps object records current := by
    apply foldlM_invariant (fun done state =>
      (∀ kind ≠ store.importer.kind, state.maps kind = ctx.maps kind) ∧
      ∃ current, state.db.get? ⟨store.importer.kind, pk⟩ = some current ∧
        Replaced env store ctx.maps object done current) _ _ hloop
    · refine ⟨fun _ _ => rfl, object, hobject, rfl, fun _ => rfl, ?_⟩
      rintro ⟨_, hmem, -⟩
      exact absurd hmem List.not_mem_nil
    · rintro before record after - state state' ⟨hmaps, current, hcurrent, hreplaced⟩ htaken
      have himports := imports_of_importObject htaken
      exact ⟨fun kind hne => (himports.maps_ne hne).trans (hmaps kind hne),
        hreplaced.imports hsound hmaps hcurrent himports⟩
  exact hinvariant.2

/-! ## One run -/

theorem importAll_of_importResource (hstore : store ∈ secretStores)
    (himport : importResource env options client store.resource ctx = .ok ctx') :
    ∃ middle, store.importer.importAll env options client ctx = .ok middle ∧
      ∀ ref, ctx'.db.get? ref = middle.db.get? ref := by
  rcases List.mem_cons.mp hstore with rfl | hlast
  · exact ⟨ctx', himport, fun _ => rfl⟩
  · obtain rfl := List.mem_singleton.mp hlast
    obtain ⟨middle, hmiddle, hhooks⟩ := bind_eq_ok himport
    refine ⟨middle, hmiddle, fun ref => ?_⟩
    have hattach : ∀ {state state' : Context} {resource id sub target link},
        attachAll client resource id sub target link state = .ok state' →
        state.db.get? ref = middle.db.get? ref → state'.db.get? ref = middle.db.get? ref := by
      intro state state' resource id sub target link htaken hsame
      obtain ⟨_, _, -, rfl, -⟩ := attachAll_spec htaken
      exact hsame
    apply foldlM_keeps (fun state => state.db.get? ref = middle.db.get? ref) rfl _ hhooks
    intro _ _ _ hsame htaken
    apply foldlM_keeps (fun state => state.db.get? ref = middle.db.get? ref) hsame _ htaken
    intro _ _ _ hsame htaken
    apply foldlM_keeps (fun state => state.db.get? ref = middle.db.get? ref) hsame _ htaken
    intro _ _ _ hsame htaken
    exact hattach htaken hsame

theorem kind_of_sound (hsound : store.Sound) : store.importer.kind = store.resource.kind :=
  kind_of_importerOf hsound.importer

theorem resource_of_mem (hstore : store ∈ secretStores) :
    store.importer.resource = store.resource := by
  rcases List.mem_cons.mp hstore with rfl | hlast
  · rfl
  · obtain rfl := List.mem_singleton.mp hlast
    rfl

/-- A secret is still there after a run, or the source exports one, exactly when the run does
not match its object, or the source exports one. -/
theorem stored_iff (hstore : store ∈ secretStores)
    (hrun : runImport env options client db = .ok ctx) {pk : ℕ} {object : LocalObject}
    {field text : String} (hsecret : StoresSecret env db store pk object field text) :
    (ExportedFor env options client db store object field ∨
      ∃ object', ctx.db.get? ⟨store.importer.kind, pk⟩ = some object' ∧
        storedText object' store.dictionary field = some text) ↔
      ((∃ record, ImportedTo env options client db store object record) →
        ExportedFor env options client db store object field) := by
  have hsound := sound_of_mem hstore
  have hkind := kind_of_sound hsound
  obtain ⟨first, second, hfirst, hsecond, hrest⟩ := runImport_split store.resource hrun
  have hbefore : first.db.get? ⟨store.importer.kind, pk⟩ = some object := by
    rw [hkind, get?_entry hsound.roles hfirst, ← hkind]
    exact hsecret.row
  have hafter : ctx.db.get? ⟨store.importer.kind, pk⟩ = second.db.get? ⟨store.importer.kind, pk⟩ := by
    rw [hkind]
    exact get?_later hsound.users hrest pk
  by_cases honly : options.only store.resource = true
  · rw [if_pos honly] at hsecond
    obtain ⟨middle, hmiddle, hrows⟩ := importAll_of_importResource hstore hsecond
    obtain ⟨records, hlist, -⟩ := bind_eq_ok hmiddle
    obtain ⟨current, hcurrent, hreplaced⟩ := replaced_of_importAll hsound hlist hbefore hmiddle
    rw [resource_of_mem hstore] at hlist
    have himported : ∀ record ∈ records, Matches env store first.maps object record →
        ImportedTo env options client db store object record := fun record hrecord hmatch =>
      ⟨first, records, honly, hfirst, hlist, hrecord, hmatch⟩
    rw [hafter, hrows, hcurrent]
    constructor
    · rintro (hexported | ⟨object', hobject', htext⟩) ⟨record, ctx', records', -, hctx', hlist',
        hrecord, hmatch⟩
      · exact hexported
      · obtain rfl := Except.ok.inj (hfirst.symm.trans hctx')
        obtain rfl := Except.ok.inj (hlist.symm.trans hlist')
        obtain rfl := Option.some.inj hobject'
        obtain ⟨found, hfound, hfoundMatch, hexports⟩ :=
          hreplaced.matched ⟨record, hrecord, hmatch⟩ field text htext
        exact ⟨found, himported found hfound hfoundMatch, hexports⟩
    · intro hexported
      by_cases hmatched : ∃ record ∈ records, Matches env store first.maps object record
      · obtain ⟨record, hrecord, hmatch⟩ := hmatched
        exact Or.inl (hexported ⟨record, himported record hrecord hmatch⟩)
      · refine Or.inr ⟨current, rfl, ?_⟩
        rw [hreplaced.unmatched fun record hrecord hmatch => hmatched ⟨record, hrecord, hmatch⟩]
        exact hsecret.stored
  · rw [if_neg honly] at hsecond
    obtain rfl := Except.ok.inj hsecond
    constructor
    · rintro - ⟨_, _, _, himported, -⟩
      exact absurd himported honly
    · intro _
      exact Or.inr ⟨object, hafter.trans hbefore, hsecret.stored⟩

theorem keepsSecrets_iff :
    KeepsSecrets env options client db ↔ ExportsSecrets env options client db := by
  rcases handle_cases env options client db with ⟨hrolled, hsame⟩ | ⟨hcommits, ctx, hrun, hsame⟩
  · refine iff_of_true (fun store _ pk object field text hsecret => Or.inr ⟨object, ?_, ?_⟩)
      fun hcommits => absurd hcommits hrolled
    · rw [hsame]
      exact hsecret.row
    · exact hsecret.stored
  · rw [KeepsSecrets, hsame]
    constructor
    · intro hkept _ store hstore pk object field text hsecret
      exact (stored_iff hstore hrun hsecret).mp (hkept store hstore pk object field text hsecret)
    · intro hexports store hstore pk object field text hsecret
      exact (stored_iff hstore hrun hsecret).mpr
        (hexports hcommits store hstore pk object field text hsecret)

/-! ## Sequences of runs -/

namespace SecretRuns

structure Site where
  db : Database
  intact : Prop

inductive Event where
  | run (env : Environment) (options : Options) (client : Client)
  | enter (store : SecretStore) (pk : ℕ) (field text : String)

def setText (field text : String) (dictionary : Value) : Value :=
  .dict ((field, .str text) :: (match dictionary with
    | .dict entries => entries.filter fun entry => entry.1 ≠ field
    | _ => []))

/-- The operator imports, or stores the encrypted text of a secret in an object. -/
def step (site : Site) : Event → Option Site
  | .run env options client => some
      { db := handle env options client site.db
        intact := site.intact ∧ KeepsSecrets env options client site.db }
  | .enter store pk field text => do
      let object ← site.db.get? ⟨store.importer.kind, pk⟩
      let object' := object.set store.dictionary (setText field text (object.fields store.dictionary))
      return { site with
        db := site.db.setTable store.importer.kind
          ((site.db.tables store.importer.kind).update pk object') }

def Careful (site : Site) : Event → Prop
  | .run env options client => ExportsSecrets env options client site.db
  | .enter _ _ _ _ => True

theorem intact_step {site site' : Site} {event : Event} (hintact : site.intact)
    (hstep : step site event = some site') : site'.intact ↔ Careful site event := by
  cases event with
  | run env options client =>
    obtain rfl := Option.some.inj hstep
    exact (and_iff_right hintact).trans keepsSecrets_iff
  | enter store pk field text =>
    obtain ⟨object, -, hend⟩ := Option.bind_eq_some_iff.mp hstep
    obtain rfl := Option.some.inj hend
    exact iff_of_true hintact trivial

def cloudFields : Value :=
  .dict [("fields", .list [.dict [("id", .str "password"), ("secret", .bool true)]])]

def cloudDatabase : Database where
  tables kind :=
    match kind with
    | .organization => ⟨[some (blank.set "name" (.str "Acme"))]⟩
    | .credentialType => ⟨[some ((blank.set "name" (.str "My Cloud")).set "inputs" cloudFields)]⟩
    | .credential => ⟨[some ((((blank.set "name" (.str "cloud-cred")).setReference
        "credential_type" (some ⟨.credentialType, 0⟩)).setReference
        "organization" (some ⟨.organization, 0⟩)).set "inputs"
        (.dict [("username", .str "svc"), ("password", .str "$encrypted$UTF8$AESCBC$Z0FB")]))]⟩
    | _ => ⟨[]⟩
  links := []
  grants := []

def cloudSource (inputs : List (String × Value)) : Client where
  getList resource :=
    .ok (match resource with
      | .organizations => [.dict [("id", .int 1), ("name", .str "Acme")]]
      | .credentialTypes =>
          [.dict [("id", .int 30), ("name", .str "My Cloud"), ("managed", .bool false),
            ("inputs", cloudFields)]]
      | .credentials =>
          [.dict [("id", .int 40), ("name", .str "cloud-cred"), ("credential_type", .int 30),
            ("organization", .int 1), ("inputs", .dict inputs)]]
      | _ => [])
  getSubList _ _ _ _ := .ok []

def passwordAfter (client : Client) : Option String :=
  ((handle exampleEnvironment defaultOptions client cloudDatabase).get? ⟨.credential, 0⟩).bind
    (storedText · "inputs" "password")

example : passwordAfter (cloudSource [("username", .str "svc"), ("password", .str "secret")]) =
    some "$encrypted$UTF8$AESCBC$secret" := by
  decide +kernel

def emptySource : Client where
  getList _ := .ok []
  getSubList _ _ _ _ := .ok []

end SecretRuns

end Forail.Migration

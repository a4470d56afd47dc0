import Forail.Migration.ImportSteps

/-!
# Secrets that are stored locally

Credentials and notification templates have a dictionary with secrets, which an import replaces
with the dictionary of the source.  What is stored under a field afterwards comes from an entry
that exports the field.
-/

namespace Forail.Migration

open Forail.FallibleLoops Forail.Json Forail.Tables

variable {env : Environment} {options : Options} {client : Client} {ctx ctx' : Context}
  {record : Value} {db : Database}

structure SecretStore where
  resource : Resource
  importer : Importer
  dictionary : String

def credentialStore : SecretStore := ⟨.credentials, credentials, "inputs"⟩

def notificationStore : SecretStore :=
  ⟨.notificationTemplates, notificationTemplates, "notification_configuration"⟩

def secretStores : List SecretStore := [credentialStore, notificationStore]

def storedText (object : LocalObject) (dictionary field : String) : Option String :=
  match object.fields dictionary with
  | .dict entries =>
      match entries.lookup field with
      | some (.str text) => if text = "" then none else some text
      | _ => none
  | _ => none

/-- The source reports a value under a field, and not the placeholder. -/
def Exports (dictionary : String) (record : Value) (field : String) : Prop :=
  ∃ entries value, record.get dictionary = .dict entries ∧ (field, value) ∈ entries ∧
    value.isText placeholder = false

theorem storedText_eq_some {object : LocalObject} {dictionary field text : String}
    (hstored : storedText object dictionary field = some text) :
    ∃ entries, object.fields dictionary = .dict entries ∧ (field, .str text) ∈ entries ∧
      text ≠ "" := by
  rw [storedText] at hstored
  split at hstored
  · next entries hentries =>
    split at hstored
    · next text' hlookup =>
      split at hstored
      · exact absurd hstored.symm (Option.some_ne_none text)
      · next hne =>
        obtain rfl := Option.some.inj hstored
        obtain ⟨before, after, hsplit, -⟩ := List.lookup_eq_some_iff.mp hlookup
        exact ⟨entries, hentries, by rw [hsplit]; simp, hne⟩
    · exact absurd hstored.symm (Option.some_ne_none text)
  · exact absurd hstored.symm (Option.some_ne_none text)

theorem get_of_tryGetOr {dictionary : String} {value : Value}
    (hget : record.tryGetOr dictionary (.dict []) = .ok value) (htrue : value.truthy = true) :
    record.get dictionary = value := by
  cases record with
  | dict entries =>
    obtain rfl := Except.ok.inj hget
    cases hlookup : entries.lookup dictionary with
    | none =>
      rw [hlookup] at htrue
      exact absurd htrue (by decide)
    | some value => rw [Value.get, hlookup]; rfl
  | _ => exact absurd hget error_ne_ok

/-! ## Credentials -/

theorem mem_stripSecrets {inputs : Value} {clean : List (String × Value)} {entry : String × Value}
    (hstrip : stripSecrets inputs = .ok clean) (hentry : entry ∈ clean) :
    inputs.truthy = true ∧ ∃ entries, inputs = .dict entries ∧ entry ∈ entries ∧
      entry.2.isText placeholder = false := by
  rw [stripSecrets.eq_def] at hstrip
  split at hstrip
  · next htrue =>
    split at hstrip
    · obtain rfl := Except.ok.inj hstrip
      obtain ⟨hmem, hnot⟩ := List.mem_filter.mp hentry
      exact ⟨htrue, _, rfl, hmem, by simpa using hnot⟩
    · exact absurd hstrip error_ne_ok
  · obtain rfl := Except.ok.inj hstrip
    exact absurd hentry List.not_mem_nil

theorem mem_saveInputs {pk : ℕ} {secret askable : List Value} {before inputs : List (String × Value)}
    {entry : String × Value} (hentry : entry ∈ saveInputs env pk secret askable before inputs) :
    ∃ value, (entry.1, value) ∈ inputs := by
  obtain ⟨⟨field, value⟩, hmem, hsaved⟩ := List.mem_filterMap.mp hentry
  dsimp only at hsaved
  split at hsaved
  · split at hsaved
    · exact absurd hsaved.symm (Option.some_ne_none entry)
    · exact absurd hsaved.symm (Option.some_ne_none entry)
    · obtain rfl := Option.some.inj hsaved
      exact ⟨value, hmem⟩
  · obtain rfl := Option.some.inj hsaved
    exact ⟨value, hmem⟩

theorem saveCredential_inputs {pk : ℕ} {before object row : LocalObject}
    (hsaved : saveCredential env db pk before object = .ok row) :
    ∃ secret askable stored inputs, object.fields "inputs" = .dict inputs ∧
      row.fields "inputs" = .dict (saveInputs env pk secret askable stored inputs) := by
  rw [saveCredential.eq_def] at hsaved
  split at hsaved
  · exact absurd hsaved error_ne_ok
  · obtain ⟨_, -, hsaved⟩ := bind_eq_ok hsaved
    obtain ⟨secret, -, hsaved⟩ := bind_eq_ok hsaved
    obtain ⟨askable, -, hsaved⟩ := bind_eq_ok hsaved
    obtain ⟨inputs, hinputs, hsaved⟩ := bind_eq_ok hsaved
    obtain ⟨stored, -, hsaved⟩ := bind_eq_ok hsaved
    obtain rfl := Except.ok.inj hsaved
    rw [entriesOf.eq_def] at hinputs
    split at hinputs
    · next entries hentries =>
      obtain rfl := Except.ok.inj hinputs
      exact ⟨secret, askable, stored, entries, hentries, set_fields_self _ _ _⟩
    · exact absurd hinputs error_ne_ok

theorem exports_of_credential {maps : Maps} {created : Bool} {pk : ℕ}
    {before loaded object row : LocalObject} {field text : String}
    (hassigned : credentials.assigned env.texts options maps created record loaded = .ok object)
    (hsaved : stored env db .credential pk before object = .ok row)
    (htext : storedText row "inputs" field = some text) : Exports "inputs" record field := by
  obtain ⟨middle, hmiddle, hend⟩ := bind_eq_ok hsaved
  obtain rfl := Except.ok.inj hend
  obtain ⟨secret, askable, old, inputs, hinputs, hrow⟩ := saveCredential_inputs hmiddle
  obtain ⟨entries, hentries, hmem, -⟩ := storedText_eq_some htext
  rw [set_fields_ne _ (by decide), hrow] at hentries
  obtain rfl := Value.dict.inj hentries
  obtain ⟨value, hvalue⟩ := mem_saveInputs hmem
  have honly : ∀ other ∈ credentials.assignments, other.field = cleanInputs.field →
      other = cleanInputs := by
    simp [credentials, orEmpty, cleanInputs]
  have hmember : cleanInputs ∈ credentials.assignments := by simp [credentials]
  obtain ⟨set, hset, hassign⟩ := assigned_of_mem hmember honly hassigned
  obtain ⟨reported, hreported, hrest⟩ := bind_eq_ok hset
  obtain ⟨clean, hclean, hrest⟩ := bind_eq_ok hrest
  obtain rfl := Except.ok.inj hrest
  have hobject : object.fields "inputs" = .dict clean := hassign _ rfl
  obtain rfl := Value.dict.inj (hinputs.symm.trans hobject)
  obtain ⟨htrue, all, rfl, hall, hnot⟩ := mem_stripSecrets hclean hvalue
  exact ⟨all, value, get_of_tryGetOr hreported htrue, hall, hnot⟩

/-! ## Notification templates -/

def Reported (entries configuration : List (String × Value)) : Prop :=
  ∀ field text, (field, .str text) ∈ configuration → text ≠ "" →
    ∃ value, (field, value) ∈ entries ∧ value.isText placeholder = false

theorem reported_of_blankSecrets {configuration : Value} {clean : List (String × Value)}
    (hblank : blankSecrets configuration = .ok clean) (hclean : clean ≠ []) :
    configuration.truthy = true ∧ ∃ entries, configuration = .dict entries ∧
      Reported entries clean := by
  rw [blankSecrets.eq_def] at hblank
  split at hblank
  · next htrue =>
    split at hblank
    · next entries =>
      obtain rfl := Except.ok.inj hblank
      refine ⟨htrue, entries, rfl, fun field text hmem hne => ?_⟩
      obtain ⟨⟨other, value⟩, hentry, hsame⟩ := List.mem_map.mp hmem
      dsimp only at hsame
      split at hsame
      · obtain ⟨-, hempty⟩ := Prod.mk.inj hsame
        exact absurd (Value.str.inj hempty).symm hne
      · next hnot =>
        obtain ⟨rfl, rfl⟩ := Prod.mk.inj hsame
        exact ⟨_, hentry, eq_false_of_ne_true hnot⟩
    · exact absurd hblank error_ne_ok
  · exact absurd (Except.ok.inj hblank).symm hclean

theorem encryptPassword_reported {pk : ℕ} {field : String}
    {entries configuration configuration' : List (String × Value)}
    (hreported : Reported entries configuration)
    (hencrypt : encryptPassword env pk configuration field = .ok configuration') :
    Reported entries configuration' := by
  rw [encryptPassword.eq_def] at hencrypt
  split at hencrypt
  · exact absurd hencrypt error_ne_ok
  · next old hlookup =>
    split at hencrypt
    · obtain rfl := Except.ok.inj hencrypt
      exact hreported
    · obtain rfl := Except.ok.inj hencrypt
      intro other text hmem hne
      obtain ⟨⟨entryField, value⟩, hentry, hsame⟩ := List.mem_map.mp hmem
      dsimp only at hsame
      split at hsame
      · obtain ⟨rfl, hvalue⟩ := Prod.mk.inj hsame
        obtain ⟨before, after, hsplit, -⟩ := List.lookup_eq_some_iff.mp hlookup
        apply hreported field old (by rw [hsplit]; simp)
        -- an empty text is stored as it is
        rintro rfl
        have hempty : encryptField env pk "notification_configuration" false (.str "") =
            some "" := by
          simp [encryptField, Texts.text]
        rw [hempty] at hvalue
        exact hne (Value.str.inj hvalue).symm
      · obtain ⟨rfl, rfl⟩ := Prod.mk.inj hsame
        exact hreported _ text hentry hne
  · exact absurd hencrypt error_ne_ok

theorem saveNotificationTemplate_configuration {pk : ℕ} {object row : LocalObject}
    (hsaved : saveNotificationTemplate env pk object = .ok row) :
    ∃ (passwords : List String) (configuration configuration' : List (String × Value)),
      object.fields "notification_configuration" = .dict configuration ∧
      passwords.foldlM (encryptPassword env pk) configuration = .ok configuration' ∧
      row.fields "notification_configuration" = .dict configuration' := by
  rw [saveNotificationTemplate.eq_def] at hsaved
  split at hsaved
  · exact absurd hsaved error_ne_ok
  · next passwords _ =>
    obtain ⟨configuration, hconfiguration, hsaved⟩ := bind_eq_ok hsaved
    obtain ⟨configuration', hloop, hsaved⟩ := bind_eq_ok hsaved
    obtain rfl := Except.ok.inj hsaved
    rw [entriesOf.eq_def] at hconfiguration
    split at hconfiguration
    · next entries hentries =>
      obtain rfl := Except.ok.inj hconfiguration
      exact ⟨passwords, entries, configuration', hentries, hloop, set_fields_self _ _ _⟩
    · exact absurd hconfiguration error_ne_ok

theorem exports_of_notificationTemplate {maps : Maps} {created : Bool} {pk : ℕ}
    {before loaded object row : LocalObject} {field text : String}
    (hassigned :
      notificationTemplates.assigned env.texts options maps created record loaded = .ok object)
    (hsaved : stored env db .notificationTemplate pk before object = .ok row)
    (htext : storedText row "notification_configuration" field = some text) :
    Exports "notification_configuration" record field := by
  obtain ⟨middle, hmiddle, hend⟩ := bind_eq_ok hsaved
  obtain rfl := Except.ok.inj hend
  obtain ⟨passwords, configuration, configuration', hconfiguration, hloop, hrow⟩ :=
    saveNotificationTemplate_configuration hmiddle
  obtain ⟨entries, hentries, hmem, hne⟩ := storedText_eq_some htext
  rw [set_fields_ne _ (by decide), hrow] at hentries
  obtain rfl := Value.dict.inj hentries
  have honly : ∀ other ∈ notificationTemplates.assignments,
      other.field = cleanConfiguration.field → other = cleanConfiguration := by
    simp [notificationTemplates, orEmpty, cleanConfiguration, notificationType, ifTrue]
  have hmember : cleanConfiguration ∈ notificationTemplates.assignments := by
    simp [notificationTemplates]
  obtain ⟨set, hset, hassign⟩ := assigned_of_mem hmember honly hassigned
  obtain ⟨reported, hreported, hrest⟩ := bind_eq_ok hset
  obtain ⟨clean, hclean, hrest⟩ := bind_eq_ok hrest
  obtain rfl := Except.ok.inj hrest
  have hobject : object.fields "notification_configuration" = .dict clean := hassign _ rfl
  obtain rfl := Value.dict.inj (hconfiguration.symm.trans hobject)
  have hnonempty : configuration ≠ [] := by
    rintro rfl
    have hnil : configuration' = [] := by
      apply foldlM_keeps (fun state => state = []) rfl _ hloop
      rintro state name state' rfl htaken
      exact absurd htaken error_ne_ok
    rw [hnil] at hmem
    exact List.not_mem_nil hmem
  obtain ⟨htrue, all, rfl, hall⟩ := reported_of_blankSecrets hclean hnonempty
  have hfinal : Reported all configuration' :=
    foldlM_keeps (Reported all) hall
      (fun _ _ _ hkept htaken => encryptPassword_reported hkept htaken) hloop
  obtain ⟨value, hvalue, hnot⟩ := hfinal field text hmem hne
  exact ⟨all, value, get_of_tryGetOr hreported htrue, hvalue, hnot⟩

end Forail.Migration

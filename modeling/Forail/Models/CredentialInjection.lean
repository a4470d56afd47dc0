import Forail.Core.FallibleLoops
import Forail.Models.Credentials
import Mathlib.Data.List.Dedup
import Mathlib.Logic.Function.Basic

/-!
# Credentials that are injected

The injectors of a credential type write environment variables, files and extra variables
from the inputs of a credential.  The environment is recorded as it is rendered with the
secrets hidden.
-/

namespace Forail.CredentialInjection

open Forail.Credentials Forail.Encryption Forail.FallibleLoops Forail.Json Forail.Texts

inductive Node where
  | dict (entries : List (String × Node))
  | list (items : List Node)
  | text (template : String)

/-- The templates of a credential type, by the labels of the files and the names of the
environment variables. -/
structure Injectors where
  file : List (String × String)
  env : List (String × String)
  extraVars : List (String × Node)

/-- `tower.filename`, which is the path of the only file, or has the paths of several files. -/
inductive Filename where
  | path (path : String)
  | named (paths : String → Option String)

/-- What a template can use: the special `tower` and the values of the fields. -/
structure Namespace where
  tower : Option Filename
  fields : String → Option Value

/-- How templates are rendered, and the paths in the container of the files that are created. -/
structure Sandbox where
  render : String → Namespace → String
  path : ℕ → String

inductive Failure where
  | input (raised : Raised)
  | typeError (message : String)
  | attributeError (message : String)

inductive Content where
  | text (data : String)
  | vars (value : Value)

/-- The arguments that `inject_credential` changes, and the files that it writes. -/
structure Injected where
  env : AList fun _ : String => String
  safeEnv : AList fun _ : String => String
  args : List String
  files : List (String × Content)

/-! ## Namespaces -/

/-- The namespace for the job and the one for the database, without `tower`. -/
structure Spaces where
  fields : String → Option Value
  safeFields : String → Option Value

def len : Value → Except Failure ℕ
  | .str text => .ok text.length
  | .list items => .ok items.length
  | .dict entries => .ok entries.length
  | .int _ => .error (.typeError "object of type 'int' has no len()")
  | .float _ => .error (.typeError "object of type 'float' has no len()")
  | .bool _ => .error (.typeError "object of type 'bool' has no len()")
  | .null => .error (.typeError "object of type 'NoneType' has no len()")

def hidden : Value := .str "**********"

def injectableFields (cred : Credential) : List String :=
  (cred.inputs.keys ++ cred.dynamicInputFields).dedup

/-- A field in both namespaces.  An empty value is left out. -/
def addField (env : Surroundings) (cred : Credential) (spaces : Spaces) (fieldName : String) :
    Except Failure Spaces := do
  let value ← (cred.getInput env fieldName none).mapError .input
  match value with
  | .bool _ =>
      return ⟨Function.update spaces.fields fieldName (some value),
        Function.update spaces.safeFields fieldName (some value)⟩
  | _ =>
      let safeFields :=
        if fieldName ∈ cred.type.secretFields then
          Function.update spaces.safeFields fieldName (some hidden)
        else spaces.safeFields
      let length ← len value
      if 0 < length then
        return ⟨Function.update spaces.fields fieldName (some value),
          if fieldName ∈ cred.type.secretFields then safeFields
          else Function.update safeFields fieldName (some value)⟩
      else return ⟨spaces.fields, safeFields⟩

def endKey (fields : String → Option Value) (fieldName : String) :
    Except Failure (String → Option Value) :=
  match fields fieldName with
  | none => .ok fields
  | some (.str key) =>
      if key.toList.getLast? = some '\n' then .ok fields
      else .ok (Function.update fields fieldName (some (.str (key.push '\n'))))
  | some _ => .error (.attributeError "object has no attribute 'endswith'")

def setDefault (cred : Credential) (spaces : Spaces) (field : InputField) : Spaces :=
  if field.type = .boolean ∧ field.id ∉ cred.inputs.keys then
    ⟨Function.update spaces.fields field.id (some (.bool false)),
      Function.update spaces.safeFields field.id (some (.bool false))⟩
  else spaces

def completeField (cred : Credential) (spaces : Spaces) (field : InputField) :
    Except Failure Spaces :=
  let spaces := setDefault cred spaces field
  if field.format = some "ssh_private_key" then do
    return { spaces with fields := ← endKey spaces.fields field.id }
  else .ok spaces

def buildSpaces (env : Surroundings) (cred : Credential) : Except Failure Spaces := do
  let spaces ← (injectableFields cred).foldlM (addField env cred) ⟨fun _ => none, fun _ => none⟩
  cred.type.fields.foldlM (completeField cred) spaces

/-! ## Files -/

def labelName (label : String) : Option String :=
  if '.' ∈ label.toList then (split ['.'] label.toList)[1]?.map String.ofList else none

/-- The path of a file in `tower`, where a name cannot be set on the path of the only file. -/
def setFilename (tower : Option Filename) (label path : String) :
    Except Failure (Option Filename) :=
  match labelName label, tower with
  | none, _ => .ok (some (.path path))
  | some name, none => .ok (some (.named (Function.update (fun _ => none) name (some path))))
  | some name, some (.named paths) => .ok (some (.named (Function.update paths name (some path))))
  | some name, some (.path _) =>
      .error (.attributeError ("'str' object has no attribute '" ++ name ++ "'"))

structure Written where
  tower : Option Filename
  files : List (String × Content)

def writeFile (sandbox : Sandbox) (fields : String → Option Value) (written : Written)
    (injector : String × String) : Except Failure Written := do
  let data := sandbox.render injector.2 ⟨written.tower, fields⟩
  let path := sandbox.path written.files.length
  return ⟨← setFilename written.tower injector.1 path, written.files ++ [(path, .text data)]⟩

/-! ## Variables -/

def envBlocklist : List String :=
  ["VIRTUAL_ENV", "PATH", "PYTHONPATH", "JOB_ID", "INVENTORY_ID", "INVENTORY_SOURCE_ID",
    "INVENTORY_UPDATE_ID", "AD_HOC_COMMAND_ID", "REST_API_URL", "REST_API_TOKEN",
    "MAX_EVENT_RES", "CALLBACK_QUEUE", "CALLBACK_CONNECTION", "CACHE", "JOB_CALLBACK_DEBUG",
    "INVENTORY_HOSTVARS", "AWX_HOST", "PROJECT_REVISION", "SUPERVISOR_CONFIG_PATH"]

def envVarAllowed (envVar : String) : Bool :=
  !"ANSIBLE_".toList.isPrefixOf envVar.toList && envVar ∉ envBlocklist

def injectEnv (sandbox : Sandbox) (tower : Option Filename) (spaces : Spaces)
    (injected : Injected) (injector : String × String) : Injected :=
  if envVarAllowed injector.1 then
    { injected with
      env := injected.env.insert injector.1 (sandbox.render injector.2 ⟨tower, spaces.fields⟩)
      safeEnv := injected.safeEnv.insert injector.1
        (sandbox.render injector.2 ⟨tower, spaces.safeFields⟩) }
  else injected

def consEntry (key : String) (value : Value) (entries : List (String × Value)) :
    List (String × Value) :=
  (key, (entries.lookup key).getD value) :: entries.filter fun entry => entry.1 ≠ key

mutual

def buildExtraVars (render : String → String) : Node → Value
  | .dict entries => .dict (buildEntries render entries)
  | .list items => .list (buildItems render items)
  | .text template => .str (render template)

def buildEntries (render : String → String) : List (String × Node) → List (String × Value)
  | [] => []
  | (key, node) :: entries =>
      consEntry (render key) (buildExtraVars render node) (buildEntries render entries)

def buildItems (render : String → String) : List Node → List Value
  | [] => []
  | node :: items => buildExtraVars render node :: buildItems render items

end

def injectExtraVars (sandbox : Sandbox) (space : Namespace) (extraVars : List (String × Node))
    (injected : Injected) : Injected :=
  if (injected.env.lookup "INVENTORY_UPDATE_ID").isSome then injected
  else
    match buildEntries (fun template => sandbox.render template space) extraVars with
    | [] => injected
    | entries =>
        let path := sandbox.path injected.files.length
        { injected with
          args := injected.args ++ ["-e", "@" ++ path]
          files := injected.files ++ [(path, .vars (.dict entries))] }

def injectCredential (env : Surroundings) (sandbox : Sandbox) (injectors : Injectors)
    (cred : Credential) (injected : Injected) : Except Failure Injected := do
  let spaces ← buildSpaces env cred
  let written ← injectors.file.foldlM (writeFile sandbox spaces.fields) ⟨none, injected.files⟩
  let injected := { injected with files := written.files }
  let injected := injectors.env.foldl (injectEnv sandbox written.tower spaces) injected
  return injectExtraVars sandbox ⟨written.tower, spaces.fields⟩ injectors.extraVars injected

/-! ## Two credentials -/

/-- What is set for a field: what its input source gives, or its input. -/
def setValue (env : Surroundings) (cred : Credential) (field : String) :
    Option (Except Raised Value) :=
  match cred.inputSources.lookup field with
  | some value => some value
  | none =>
      (cred.inputs.lookup field).map fun value =>
        if field ∈ cred.type.secretFields then
          (decryptField env cred.inst field none none).map Value.str
        else .ok value

/-- Two credentials of a type that set the same fields, and differ only in texts of secret
fields that are not empty. -/
structure Alike (env : Surroundings) (cred other : Credential) : Prop where
  type : other.type = cred.type
  inputs : ∀ field, field ∈ other.inputs.keys ↔ field ∈ cred.inputs.keys
  sources : ∀ field, field ∈ other.dynamicInputFields ↔ field ∈ cred.dynamicInputFields
  values : ∀ field, setValue env other field = setValue env cred field ∨
    (field ∈ cred.type.secretFields ∧ ∃ secret secret', secret ≠ "" ∧ secret' ≠ "" ∧
      setValue env cred field = some (.ok (.str secret)) ∧
      setValue env other field = some (.ok (.str secret')))

/-- What a credential that is saved with allowed values sets.  Only a credential that is not
external has input sources. -/
structure Sets (allowed : String → Value → Prop) (env : Surroundings) (cred : Credential) :
    Prop where
  values : ∀ field ∈ injectableFields cred, ∃ value, setValue env cred field = some (.ok value) ∧
    allowed field value
  external : cred.type.kind = "external" → cred.inputSources = []

def IsText : Value → Prop
  | .str _ => True
  | _ => False

def IsBool : Value → Prop
  | .bool _ => True
  | _ => False

def IsNumber : Value → Prop
  | .int _ | .float _ => True
  | _ => False

def Fits (type : FieldType) (value : Value) : Prop :=
  match type with
  | .string => IsText value
  | .boolean => IsBool value

def Valued (type : CredentialType) (fieldName : String) (value : Value) : Prop :=
  ∃ field ∈ type.fields, field.id = fieldName ∧ Fits field.type value

/-- What is validated of a credential type: its fields have different ids, only fields of texts
have a format, and either one file is written or all files have names. -/
structure Valid (type : CredentialType) (injectors : Injectors) : Prop where
  ids : (type.fields.map InputField.id).Nodup
  formats : ∀ field ∈ type.fields, field.format ≠ none → field.type = .string
  labels : (∃ injector, injectors.file = [injector]) ∨
    ∀ injector ∈ injectors.file, labelName injector.1 ≠ none

/-- Neither injection raises, and both record the same environment. -/
def RecordsSame (env : Surroundings) (sandbox : Sandbox) (injectors : Injectors)
    (cred other : Credential) (injected : Injected) : Prop :=
  ∃ done done', injectCredential env sandbox injectors cred injected = .ok done ∧
    injectCredential env sandbox injectors other injected = .ok done' ∧
    done'.safeEnv = done.safeEnv

/-! ## Reading -/

section Reading

variable {env : Surroundings} {cred other : Credential} {field : String} {value : Value}

theorem mem_dynamicInputFields_iff :
    field ∈ cred.dynamicInputFields ↔ (cred.inputSources.lookup field).isSome := by
  rw [Credential.dynamicInputFields, List.lookup_isSome_iff, List.mem_map]
  constructor
  · rintro ⟨source, hsource, rfl⟩
    exact ⟨source, hsource, beq_self_eq_true _⟩
  · rintro ⟨source, hsource, hname⟩
    exact ⟨source, hsource, (eq_of_beq hname).symm⟩

theorem getInput_of_setValue (hexternal : cred.type.kind = "external" → cred.inputSources = [])
    (hset : setValue env cred field = some (.ok value)) :
    cred.getInput env field none = .ok value := by
  rw [setValue] at hset
  rw [Credential.getInput]
  cases hsource : cred.inputSources.lookup field with
  | some found =>
    have hkind : cred.type.kind ≠ "external" := by
      intro hkind
      rw [hexternal hkind] at hsource
      contradiction
    have hdynamic : field ∈ cred.dynamicInputFields := by
      rw [mem_dynamicInputFields_iff, hsource]
      rfl
    rw [hsource] at hset
    rw [if_pos ⟨hkind, hdynamic⟩, Credential.getDynamicInput, hsource]
    exact Option.some.inj hset
  | none =>
    have hstatic : ¬ (cred.type.kind ≠ "external" ∧ field ∈ cred.dynamicInputFields) := by
      rw [mem_dynamicInputFields_iff, hsource]
      exact fun h => Bool.false_ne_true h.2
    rw [hsource] at hset
    rw [if_neg hstatic]
    obtain ⟨stored, hstored, hread⟩ := Option.map_eq_some_iff.mp hset
    split
    · next hsecret =>
      rw [if_pos hsecret] at hread
      cases htext : decryptField env cred.inst field none none with
      | error raised =>
        rw [htext] at hread
        contradiction
      | ok text =>
        rw [htext] at hread
        exact hread
    · next hsecret =>
      rw [if_neg hsecret] at hread
      rw [hstored]
      exact hread

theorem mem_injectableFields : field ∈ injectableFields cred ↔
    field ∈ cred.inputs.keys ∨ field ∈ cred.dynamicInputFields := by
  rw [injectableFields, List.mem_dedup, List.mem_append]

end Reading

/-! ## Filling the namespaces -/

section Filling

variable {env : Surroundings} {cred other : Credential} {field : String} {value : Value}
  {spaces : Spaces}

def safeValue (secret : Prop) [Decidable secret] (value : Value) (before : Option Value) :
    Option Value :=
  match value with
  | .bool _ => some value
  | .str text => if secret then some hidden else if text = "" then before else some value
  | _ => before

theorem safeValue_safeValue (secret : Prop) [Decidable secret] (value : Value)
    (before : Option Value) :
    safeValue secret value (safeValue secret value before) = safeValue secret value before := by
  cases value with
  | str text =>
    dsimp only [safeValue]
    split
    · rfl
    · split <;> rfl
  | _ => rfl

theorem update_or_same (fields : String → Option Value) (field : String) (value : Value)
    (name : String) :
    Function.update fields field (some value) name = fields name ∨
      (name = field ∧ Function.update fields field (some value) name = some value) := by
  by_cases hname : name = field
  · exact .inr ⟨hname, by rw [hname, Function.update_self]⟩
  · exact .inl (Function.update_of_ne hname _ _)

theorem addField_eq (hread : cred.getInput env field none = .ok value)
    (hvalue : IsText value ∨ IsBool value) :
    ∃ fields, addField env cred spaces field =
        .ok ⟨fields, Function.update spaces.safeFields field
          (safeValue (field ∈ cred.type.secretFields) value (spaces.safeFields field))⟩ ∧
      ∀ name, fields name = spaces.fields name ∨ (name = field ∧ fields name = some value) := by
  cases value with
  | bool flag =>
    refine ⟨Function.update spaces.fields field (some (.bool flag)), ?_, update_or_same _ _ _⟩
    rw [addField, hread]
    rfl
  | str text =>
    refine ⟨if 0 < text.length then Function.update spaces.fields field (some (.str text))
      else spaces.fields, ?_, fun name => ?_⟩
    · rw [addField, hread]
      simp only [Except.mapError, bind, Except.bind, len, safeValue]
      have hpos : 0 < text.length ↔ text ≠ "" :=
        Nat.pos_iff_ne_zero.trans (not_congr String.length_eq_zero_iff)
      by_cases hsecret : field ∈ cred.type.secretFields
      · simp only [if_pos hsecret]
        split <;> rfl
      · simp only [if_neg hsecret]
        by_cases hempty : text = ""
        · rw [if_neg fun h => hpos.mp h hempty, if_neg fun h => hpos.mp h hempty, if_pos hempty,
            Function.update_eq_self]
          rfl
        · rw [if_pos (hpos.mpr hempty), if_pos (hpos.mpr hempty), if_neg hempty]
          rfl
    · split
      · exact update_or_same _ _ _ name
      · exact .inl rfl
  | _ => exact (hvalue.elim id id).elim

theorem foldlM_addField {fields : List String} (read : String → Value)
    (hread : ∀ field ∈ fields, cred.getInput env field none = .ok (read field))
    (hvalue : ∀ field ∈ fields, IsText (read field) ∨ IsBool (read field)) :
    ∃ filled, fields.foldlM (addField env cred) spaces =
        .ok ⟨filled, fun name => if name ∈ fields then
          safeValue (name ∈ cred.type.secretFields) (read name) (spaces.safeFields name)
          else spaces.safeFields name⟩ ∧
      ∀ name, filled name = spaces.fields name ∨
        (name ∈ fields ∧ filled name = some (read name)) := by
  induction fields generalizing spaces with
  | nil => exact ⟨spaces.fields, rfl, fun _ => .inl rfl⟩
  | cons field fields ih =>
    obtain ⟨hread, hreads⟩ := List.forall_mem_cons.mp hread
    obtain ⟨hvalue, hvalues⟩ := List.forall_mem_cons.mp hvalue
    obtain ⟨first, hfirst, hchanged⟩ := @addField_eq env cred field _ spaces hread hvalue
    obtain ⟨filled, hfilled, hnames⟩ := ih hreads hvalues
    refine ⟨filled, ?_, fun name => ?_⟩
    · rw [List.foldlM_cons, hfirst]
      refine hfilled.trans (congrArg (fun safe => Except.ok (Spaces.mk filled safe)) ?_)
      funext name
      dsimp only
      by_cases hname : name = field
      · rw [hname, if_pos List.mem_cons_self, Function.update_self, safeValue_safeValue, ite_self]
      · simp only [List.mem_cons, hname, false_or, Function.update_of_ne hname]
    · obtain hsame | ⟨hmem, hset⟩ := hnames name
      · obtain hkept | ⟨rfl, hadded⟩ := hchanged name
        · exact .inl (hsame.trans hkept)
        · exact .inr ⟨List.mem_cons_self, hsame.trans hadded⟩
      · exact .inr ⟨List.mem_cons_of_mem _ hmem, hset⟩

def TextFields (type : CredentialType) (fields : String → Option Value) : Prop :=
  ∀ field ∈ type.fields, field.type = .string → ∀ value, fields field.id = some value → IsText value

theorem TextFields.update {type : CredentialType} {fields : String → Option Value}
    (htexts : TextFields type fields) (field : String) (text : String) :
    TextFields type (Function.update fields field (some (.str text))) := by
  intro other hother hstring value hvalue
  obtain hsame | ⟨-, hset⟩ := update_or_same fields field (.str text) other.id
  · exact htexts other hother hstring value (hsame.symm.trans hvalue)
  · rw [Option.some.inj (hvalue.symm.trans hset)]
    trivial

theorem TextFields.setDefault {injectors : Injectors} (hvalid : Valid cred.type injectors)
    {completed : InputField} (hcompleted : completed ∈ cred.type.fields)
    (other : Credential) (htexts : TextFields cred.type spaces.fields) :
    TextFields cred.type (setDefault other spaces completed).fields := by
  rw [CredentialInjection.setDefault]
  split
  · next hdefault =>
    intro field hfield hstring value hvalue
    obtain hsame | ⟨hid, -⟩ := update_or_same spaces.fields completed.id (.bool false) field.id
    · exact htexts field hfield hstring value (hsame.symm.trans hvalue)
    · have heq : field = completed :=
        List.inj_on_of_nodup_map hvalid.ids hfield hcompleted hid
      rw [heq, hdefault.1] at hstring
      contradiction
  · exact htexts

theorem endKey_of_text {type : CredentialType} {fields : String → Option Value}
    (htexts : TextFields type fields)
    (hfield : ∀ value, fields field = some value → IsText value) :
    ∃ ended, endKey fields field = .ok ended ∧ TextFields type ended := by
  rw [endKey]
  cases hvalue : fields field with
  | none => exact ⟨fields, rfl, htexts⟩
  | some value =>
    have htext := hfield value hvalue
    cases value with
    | str key =>
      dsimp only
      split
      · exact ⟨fields, rfl, htexts⟩
      · exact ⟨_, rfl, htexts.update field _⟩
    | _ => exact htext.elim

theorem completeField_eq {injectors : Injectors} (hvalid : Valid cred.type injectors)
    {field : InputField} (hfield : field ∈ cred.type.fields) (other : Credential)
    (spaces : Spaces) (htexts : TextFields cred.type spaces.fields) :
    ∃ fields, completeField other spaces field =
        .ok ⟨fields, (setDefault other spaces field).safeFields⟩ ∧
      TextFields cred.type fields := by
  have hdefault := TextFields.setDefault hvalid hfield other htexts
  by_cases hkey : field.format = some "ssh_private_key"
  · have hstring : field.type = .string :=
      hvalid.formats field hfield (hkey ▸ Option.some_ne_none _)
    obtain ⟨ended, hended, hkept⟩ := endKey_of_text hdefault (hdefault field hfield hstring)
    refine ⟨ended, ?_, hkept⟩
    rw [completeField, if_pos hkey, hended]
    rfl
  · exact ⟨_, if_neg hkey, hdefault⟩

def readValue (env : Surroundings) (cred : Credential) (field : String) : Value :=
  match setValue env cred field with
  | some (.ok value) => value
  | _ => .null

theorem setValue_readValue {allowed : String → Value → Prop} (hsets : Sets allowed env cred)
    (hfield : field ∈ injectableFields cred) :
    setValue env cred field = some (.ok (readValue env cred field)) ∧
      allowed field (readValue env cred field) := by
  obtain ⟨value, hvalue, hallowed⟩ := hsets.values field hfield
  have hread : readValue env cred field = value := by rw [readValue, hvalue]
  rw [hread]
  exact ⟨hvalue, hallowed⟩

def safeSpace (env : Surroundings) (cred : Credential) (field : String) : Option Value :=
  if field ∈ injectableFields cred then
    safeValue (field ∈ cred.type.secretFields) (readValue env cred field) none
  else none

theorem fillSpaces_spec {injectors : Injectors} (hvalid : Valid cred.type injectors)
    (hsets : Sets (Valued cred.type) env cred) :
    ∃ filled, (injectableFields cred).foldlM (addField env cred) ⟨fun _ => none, fun _ => none⟩ =
        .ok ⟨filled, safeSpace env cred⟩ ∧ TextFields cred.type filled := by
  have hread : ∀ field ∈ injectableFields cred,
      cred.getInput env field none = .ok (readValue env cred field) := fun field hfield =>
    getInput_of_setValue hsets.external (setValue_readValue hsets hfield).1
  have hvalue : ∀ field ∈ injectableFields cred,
      IsText (readValue env cred field) ∨ IsBool (readValue env cred field) := by
    intro name hname
    obtain ⟨field, -, -, hfits⟩ := (setValue_readValue hsets hname).2
    cases htype : field.type with
    | string => exact .inl (by rwa [htype] at hfits)
    | boolean => exact .inr (by rwa [htype] at hfits)
  obtain ⟨filled, hfilled, hnames⟩ := foldlM_addField (readValue env cred) hread hvalue
  refine ⟨filled, hfilled, fun field hfield hstring value hvalue => ?_⟩
  obtain hnone | ⟨hmem, hset⟩ := hnames field.id
  · exact absurd (hnone.symm.trans hvalue) (Option.some_ne_none value).symm
  · obtain ⟨found, hfound, hid, hfits⟩ := (setValue_readValue hsets hmem).2
    obtain rfl : found = field := List.inj_on_of_nodup_map hvalid.ids hfound hfield hid
    rw [hstring, Option.some.inj (hset.symm.trans hvalue)] at hfits
    exact hfits

theorem Alike.injectable (halike : Alike env cred other) (field : String) :
    field ∈ injectableFields other ↔ field ∈ injectableFields cred := by
  rw [mem_injectableFields, mem_injectableFields, halike.inputs, halike.sources]

theorem Alike.sets (halike : Alike env cred other) (hsets : Sets (Valued cred.type) env cred) :
    Sets (Valued other.type) env other := by
  rw [halike.type]
  refine ⟨fun field hfield => ?_, fun hkind => ?_⟩
  · rw [halike.injectable] at hfield
    obtain ⟨value, hvalue, hvalued⟩ := hsets.values field hfield
    obtain hsame | ⟨-, secret, secret', -, -, hsecret, hsecret'⟩ := halike.values field
    · exact ⟨value, hsame.trans hvalue, hvalued⟩
    · obtain rfl : value = .str secret :=
        Except.ok.inj (Option.some.inj (hvalue.symm.trans hsecret))
      obtain ⟨found, hfound, hid, hfits⟩ := hvalued
      refine ⟨.str secret', hsecret', found, hfound, hid, ?_⟩
      cases htype : found.type with
      | string => trivial
      | boolean =>
        rw [htype] at hfits
        exact hfits.elim
  · rw [halike.type] at hkind
    have hnone := hsets.external hkind
    apply List.eq_nil_iff_forall_not_mem.mpr
    intro source hsource
    have hfield : source.1 ∈ other.dynamicInputFields := List.mem_map_of_mem hsource
    rw [halike.sources, Credential.dynamicInputFields, hnone] at hfield
    exact absurd hfield List.not_mem_nil

theorem Alike.safeSpace_eq (halike : Alike env cred other) :
    safeSpace env other = safeSpace env cred := by
  funext field
  have hvalue : safeValue (field ∈ cred.type.secretFields) (readValue env other field) none =
      safeValue (field ∈ cred.type.secretFields) (readValue env cred field) none := by
    obtain hsame | ⟨hfield, secret, secret', -, -, hsecret, hsecret'⟩ := halike.values field
    · rw [readValue, readValue, hsame]
    · rw [readValue, readValue, hsecret, hsecret']
      exact (if_pos hfield).trans (if_pos hfield).symm
  simp only [safeSpace, halike.injectable, halike.type, hvalue]

/-- Namespaces for two credentials whose values look the same in the database. -/
structure Related (type : CredentialType) (spaces spaces' : Spaces) : Prop where
  texts : TextFields type spaces.fields
  texts' : TextFields type spaces'.fields
  safe : spaces'.safeFields = spaces.safeFields

theorem completeField_related {injectors : Injectors} (hvalid : Valid cred.type injectors)
    (hinputs : ∀ field, field ∈ other.inputs.keys ↔ field ∈ cred.inputs.keys)
    {field : InputField} (hfield : field ∈ cred.type.fields) {spaces' : Spaces}
    (hrelated : Related cred.type spaces spaces') :
    ∃ done done', completeField cred spaces field = .ok done ∧
      completeField other spaces' field = .ok done' ∧ Related cred.type done done' := by
  obtain ⟨fields, hdone, hkept⟩ := completeField_eq hvalid hfield cred spaces hrelated.texts
  obtain ⟨fields', hdone', hkept'⟩ := completeField_eq hvalid hfield other spaces' hrelated.texts'
  refine ⟨_, _, hdone, hdone', hkept, hkept', ?_⟩
  simp only [setDefault, hinputs]
  split
  · rw [hrelated.safe]
  · exact hrelated.safe

theorem buildSpaces_related {injectors : Injectors} (hvalid : Valid cred.type injectors)
    (hsets : Sets (Valued cred.type) env cred) (halike : Alike env cred other) :
    ∃ spaces spaces', buildSpaces env cred = .ok spaces ∧ buildSpaces env other = .ok spaces' ∧
      spaces'.safeFields = spaces.safeFields := by
  have hvalid' : Valid other.type injectors := by
    rw [halike.type]
    exact hvalid
  obtain ⟨filled, hfilled, htexts⟩ := fillSpaces_spec hvalid hsets
  obtain ⟨filled', hfilled', htexts'⟩ := fillSpaces_spec hvalid' (halike.sets hsets)
  rw [halike.type] at htexts'
  have hstart : Related cred.type ⟨filled, safeSpace env cred⟩ ⟨filled', safeSpace env other⟩ :=
    ⟨htexts, htexts', halike.safeSpace_eq⟩
  obtain ⟨done, done', hdone, hdone', hrelated⟩ := foldlM_related (Related cred.type)
    (fun _ hfield _ _ hspaces => completeField_related hvalid halike.inputs hfield hspaces) hstart
  refine ⟨done, done', ?_, ?_, hrelated.safe⟩
  · rw [buildSpaces, hfilled]
    exact hdone
  · rw [buildSpaces, hfilled', halike.type]
    exact hdone'

end Filling

/-! ## The recorded environment -/

section Recording

variable {env : Surroundings} {sandbox : Sandbox} {injectors : Injectors}
  {cred other : Credential} {injected : Injected}

structure SameFiles (written written' : Written) : Prop where
  tower : written'.tower = written.tower
  files : written'.files.length = written.files.length

theorem setFilename_eq_ok {tower : Option Filename} {label : String} (path : String)
    (hlabel : labelName label = none ∨ ∀ path, tower ≠ some (.path path)) :
    ∃ set, setFilename tower label path = .ok set ∧
      (labelName label ≠ none → ∀ path, set ≠ some (.path path)) := by
  cases hname : labelName label with
  | none =>
    refine ⟨some (.path path), ?_, fun hnone => absurd rfl hnone⟩
    simp only [setFilename, hname]
  | some name =>
    have hnotPath := hlabel.resolve_left (hname ▸ Option.some_ne_none name)
    cases tower with
    | none =>
      refine ⟨some (.named (Function.update (fun _ => none) name (some path))), ?_, fun _ other h =>
        nomatch h⟩
      simp only [setFilename, hname]
    | some filename =>
      cases filename with
      | named paths =>
        refine ⟨some (.named (Function.update paths name (some path))), ?_, fun _ other h =>
          nomatch h⟩
        simp only [setFilename, hname]
      | path found => exact absurd rfl (hnotPath found)

theorem writeFile_related (fields fields' : String → Option Value) {injector : String × String}
    {written written' : Written} (hsame : SameFiles written written')
    (hlabel : labelName injector.1 = none ∨ ∀ path, written.tower ≠ some (.path path)) :
    ∃ done done', writeFile sandbox fields written injector = .ok done ∧
      writeFile sandbox fields' written' injector = .ok done' ∧ SameFiles done done' ∧
      (labelName injector.1 ≠ none → ∀ path, done.tower ≠ some (.path path)) := by
  obtain ⟨set, hset, hnamed⟩ := setFilename_eq_ok (sandbox.path written.files.length) hlabel
  rw [writeFile, writeFile, hsame.tower, hsame.files, hset]
  refine ⟨_, _, rfl, rfl, ⟨rfl, ?_⟩, hnamed⟩
  rw [List.length_append, List.length_append, hsame.files]
  rfl

theorem writeFiles_related (sandbox : Sandbox) (hvalid : Valid cred.type injectors)
    (fields fields' : String → Option Value) (files : List (String × Content)) :
    ∃ written written',
      injectors.file.foldlM (writeFile sandbox fields) ⟨none, files⟩ = .ok written ∧
      injectors.file.foldlM (writeFile sandbox fields') ⟨none, files⟩ = .ok written' ∧
      SameFiles written written' := by
  obtain ⟨injector, hfile⟩ | hnames := hvalid.labels
  · obtain ⟨written, written', hwritten, hwritten', hsame, -⟩ := @writeFile_related sandbox
      fields fields' injector ⟨none, files⟩ ⟨none, files⟩ ⟨rfl, rfl⟩ (.inr fun _ h => nomatch h)
    refine ⟨written, written', ?_, ?_, hsame⟩
    · rw [hfile, List.foldlM_cons, hwritten]
      exact rfl
    · rw [hfile, List.foldlM_cons, hwritten']
      exact rfl
  · have hwrite : ∀ injector ∈ injectors.file, ∀ written written' : Written,
        (SameFiles written written' ∧ ∀ path, written.tower ≠ some (.path path)) →
          ∃ done done', writeFile sandbox fields written injector = .ok done ∧
            writeFile sandbox fields' written' injector = .ok done' ∧
            SameFiles done done' ∧ ∀ path, done.tower ≠ some (.path path) := by
      rintro injector hinjector written written' ⟨hsame, hnotPath⟩
      obtain ⟨done, done', hdone, hdone', hkept, hnamed⟩ :=
        writeFile_related fields fields' hsame (.inr hnotPath)
      exact ⟨done, done', hdone, hdone', hkept, hnamed (hnames injector hinjector)⟩
    obtain ⟨written, written', hwritten, hwritten', hsame, -⟩ := foldlM_related _ hwrite
      (⟨⟨rfl, rfl⟩, fun _ h => nomatch h⟩ : SameFiles ⟨none, files⟩ ⟨none, files⟩ ∧ _)
    exact ⟨written, written', hwritten, hwritten', hsame⟩

theorem safeEnv_injectEnv (tower : Option Filename) (spaces : Spaces)
    (templates : List (String × String)) (injected : Injected) :
    (templates.foldl (injectEnv sandbox tower spaces) injected).safeEnv =
      templates.foldl (fun safeEnv injector => if envVarAllowed injector.1 then
        safeEnv.insert injector.1 (sandbox.render injector.2 ⟨tower, spaces.safeFields⟩)
        else safeEnv) injected.safeEnv := by
  induction templates generalizing injected with
  | nil => rfl
  | cons injector templates ih =>
    rw [List.foldl_cons, List.foldl_cons, ih, injectEnv]
    congr 1
    split <;> rfl

theorem safeEnv_injectExtraVars (space : Namespace) (extraVars : List (String × Node))
    (injected : Injected) :
    (injectExtraVars sandbox space extraVars injected).safeEnv = injected.safeEnv := by
  rw [injectExtraVars]
  split
  · rfl
  · split <;> rfl

theorem injectCredential_eq {spaces : Spaces} {written : Written}
    (hspaces : buildSpaces env cred = .ok spaces)
    (hwritten : injectors.file.foldlM (writeFile sandbox spaces.fields) ⟨none, injected.files⟩ =
      .ok written) :
    injectCredential env sandbox injectors cred injected =
      .ok (injectExtraVars sandbox ⟨written.tower, spaces.fields⟩ injectors.extraVars
        (injectors.env.foldl (injectEnv sandbox written.tower spaces)
          { injected with files := written.files })) := by
  rw [injectCredential, hspaces]
  dsimp only [bind, Except.bind]
  rw [hwritten]
  rfl

/-- The environments that are recorded for two credentials that differ only in secrets are the
same. -/
theorem secrets_not_recorded (env : Surroundings) (sandbox : Sandbox) (injectors : Injectors)
    (cred other : Credential) (injected : Injected) (hvalid : Valid cred.type injectors)
    (hsets : Sets (Valued cred.type) env cred) (halike : Alike env cred other) :
    RecordsSame env sandbox injectors cred other injected := by
  obtain ⟨spaces, spaces', hspaces, hspaces', hsafe⟩ := buildSpaces_related hvalid hsets halike
  obtain ⟨written, written', hwritten, hwritten', hsame⟩ := writeFiles_related sandbox hvalid
    spaces.fields spaces'.fields injected.files
  refine ⟨_, _, injectCredential_eq hspaces hwritten, injectCredential_eq hspaces' hwritten', ?_⟩
  rw [safeEnv_injectExtraVars, safeEnv_injectExtraVars, safeEnv_injectEnv, safeEnv_injectEnv,
    hsafe, hsame.tower]

end Recording

def apiType : CredentialType where
  kind := "cloud"
  fields := [⟨"username", .string, none, false, false, none⟩,
    ⟨"token", .string, none, true, false, none⟩]

def apiInjectors : Injectors where
  file := [("template", "token")]
  env := [("API_USER", "username"), ("API_TOKEN", "token")]
  extraVars := []

def apiCredential (token : String) : Credential where
  type := apiType
  pk := some "1"
  inputs := AList.singleton "username" (.str "admin")
  inputSources := [("token", .ok (.str token))]

def fieldSandbox : Sandbox where
  render := fun template space =>
    match space.fields template with
    | some (.str text) => text
    | _ => ""
  path := fun _ => "/runner/env/file"

def nothingInjected : Injected := ⟨∅, ∅, [], []⟩

theorem valid_apiType : Valid apiType apiInjectors where
  ids := by decide
  formats := by
    intro field hfield hformat
    rcases List.mem_pair.mp hfield with rfl | rfl <;> exact absurd rfl hformat
  labels := .inl ⟨_, rfl⟩

theorem sets_apiCredential (token : String) :
    Sets (Valued apiType) tagging (apiCredential token) where
  values := by
    intro field hfield
    obtain rfl | rfl := List.mem_pair.mp (show field ∈ ["username", "token"] from hfield)
    · exact ⟨.str "admin", rfl, _, List.mem_cons_self, rfl, trivial⟩
    · exact ⟨.str token, rfl, _, List.mem_cons_of_mem _ List.mem_cons_self, rfl, trivial⟩
  external := fun hkind => absurd hkind (show ¬ "cloud" = "external" by decide)

theorem alike_apiCredential {token token' : String} (htoken : token ≠ "") (htoken' : token' ≠ "") :
    Alike tagging (apiCredential token) (apiCredential token') where
  type := rfl
  inputs := fun _ => Iff.rfl
  sources := fun _ => Iff.rfl
  values := by
    intro field
    by_cases hfield : field = "token"
    · subst hfield
      have hsecret : "token" ∈ apiType.secretFields := by decide
      exact .inr ⟨hsecret, token, token', htoken, htoken', rfl, rfl⟩
    · have hne : (field == "token") = false := beq_eq_false_iff_ne.mpr hfield
      have hnone : ∀ token, (apiCredential token).inputSources.lookup field = none := by
        intro token
        rw [apiCredential, List.lookup_cons, hne]
        rfl
      rw [setValue, setValue, hnone, hnone]
      exact .inl rfl

theorem apiTokens_not_recorded :
    RecordsSame tagging fieldSandbox apiInjectors (apiCredential "first") (apiCredential "second")
      nothingInjected :=
  secrets_not_recorded tagging fieldSandbox apiInjectors _ _ nothingInjected valid_apiType
    (sets_apiCredential "first") (alike_apiCredential (by decide) (by decide))

def numberCredential : Credential where
  type := apiType
  pk := some "1"
  inputs := AList.singleton "username" (.int 7)
  inputSources := []

theorem number_not_injected :
    ¬ ∀ (env : Surroundings) (sandbox : Sandbox) (injectors : Injectors) (cred other : Credential)
      (injected : Injected), Valid cred.type injectors →
      Sets (fun _ value => IsText value ∨ IsBool value ∨ IsNumber value) env cred →
      Alike env cred other → RecordsSame env sandbox injectors cred other injected := by
  intro hclaim
  have hsets : Sets (fun _ value => IsText value ∨ IsBool value ∨ IsNumber value) tagging
      numberCredential := by
    refine ⟨fun field hfield => ?_, fun hkind => absurd hkind (by decide)⟩
    obtain rfl := List.mem_singleton.mp (show field ∈ ["username"] from hfield)
    exact ⟨.int 7, rfl, .inr (.inr trivial)⟩
  obtain ⟨done, -, hdone, -⟩ := hclaim tagging fieldSandbox apiInjectors numberCredential
    numberCredential nothingInjected valid_apiType hsets
    ⟨rfl, fun _ => Iff.rfl, fun _ => Iff.rfl, fun _ => .inl rfl⟩
  have hraised : injectCredential tagging fieldSandbox apiInjectors numberCredential
      nothingInjected = .error (.typeError "object of type 'int' has no len()") := rfl
  rw [hraised] at hdone
  contradiction

end Forail.CredentialInjection

import Forail.Utils.Encryption

/-!
# Saved credentials

The secret inputs of a credential are encrypted when it is saved.  An input that is sent as
the placeholder stands for the stored secret.
-/

namespace Forail.Credentials

open Forail.Encryption Forail.Json
open Forail.Base64 (Bytes encode)

inductive FieldType where
  | string
  | boolean
  deriving DecidableEq

structure InputField where
  id : String
  type : FieldType
  format : Option String
  secret : Bool
  askAtRuntime : Bool
  default : Option Value

structure CredentialType where
  kind : String
  fields : List InputField

namespace CredentialType

variable (type : CredentialType)

def secretFields : List String := (type.fields.filter InputField.secret).map InputField.id

def askableFields : List String := (type.fields.filter InputField.askAtRuntime).map InputField.id

def default (fieldName : String) : Option Value :=
  type.fields.findSome? fun field => if field.id = fieldName then field.default else none

end CredentialType

/-- A credential, which has no primary key before it is saved.  `inputSources` are the fields
that are read from elsewhere, with what is read. -/
structure Credential where
  type : CredentialType
  pk : Option String
  inputs : Vars
  inputSources : List (String × Except Raised Value)

def placeholder : String := "$encrypted$"

namespace Credential

variable (env : Surroundings) (cred : Credential)

def inst : Instance := ⟨cred.pk, some cred.inputs, ∅⟩

def dynamicInputFields : List String := cred.inputSources.map Prod.fst

def getDynamicInput (fieldName : String) : Except Raised Value :=
  match cred.inputSources.lookup fieldName with
  | some value => value
  | none => .error (.valueError (fieldName ++ " is not a dynamic input field"))

def getInput (fieldName : String) (default : Option Value) : Except Raised Value :=
  if cred.type.kind ≠ "external" ∧ fieldName ∈ cred.dynamicInputFields then
    cred.getDynamicInput fieldName
  else if fieldName ∈ cred.type.secretFields then
    match decryptField env cred.inst fieldName none none with
    | .ok text => .ok (.str text)
    | .error (.attributeError _) =>
        match (cred.type.default fieldName).or default with
        | some value => .ok value
        | none => .error (.attributeError fieldName)
    | .error raised => .error raised
  else
    match (cred.inputs.lookup fieldName).or (default.or (cred.type.default fieldName)) with
    | some value => .ok value
    | none => .error (.attributeError fieldName)

/-! ## Saving -/

/-- A placeholder is replaced by the stored input, or by itself if there is none. -/
def restoreInput (before inputs : Vars) (field : String) : Vars :=
  if (inputs.lookup field).any (·.isText placeholder) then
    inputs.insert field ((before.lookup field).getD (.str placeholder))
  else inputs

def restoreInputs (before : Vars) : Credential :=
  if before.entries.isEmpty then cred
  else { cred with inputs := cred.type.secretFields.foldl (restoreInput before) cred.inputs }

/-- `Credential.encrypt_field`, which deletes an input without a value. -/
def encryptInput (drawn : String → Bytes) (field : String) : Except Raised Credential :=
  match cred.inputs.lookup field with
  | none => .ok cred
  | some _ => do
      let ask := decide (field ∈ cred.type.askableFields)
      let encrypted ← encryptField env (drawn field) cred.inst field ask none none
      if encrypted.truthy then
        return { cred with inputs := cred.inputs.insert field encrypted }
      else return { cred with inputs := cred.inputs.erase field }

def saveAgain (drawn : String → Bytes) (before : Vars) : Except Raised Credential :=
  cred.type.secretFields.foldlM (fun cred field => cred.encryptInput env drawn field)
    (cred.restoreInputs before)

/-- `save`, where `next` is the primary key of a new row and `drawn` what the cipher draws for
the fields.  The first save of a new credential stores the inputs as they are, and the second
one finds them. -/
def save (next : String) (drawn : String → Bytes) (before : Vars) : Except Raised Credential :=
  match cred.pk with
  | some _ => cred.saveAgain env drawn before
  | none => { cred with pk := some next }.saveAgain env drawn cred.inputs

end Credential

/-! ## Requests -/

structure Request where
  inputs : Vars
  drawn : String → Bytes

variable (env : Surroundings) (next : String)

def Credential.saveRequest (cred : Credential) (request : Request) : Except Raised Credential :=
  { cred with inputs := request.inputs }.save env next request.drawn cred.inputs

/-- What a stored secret decrypts to; one that is empty counts as none. -/
def Credential.secret (cred : Credential) (field : String) : Except Raised (Option String) :=
  match cred.inputs.lookup field with
  | none => .ok none
  | some _ => do
      let text ← decryptField env cred.inst field none none
      return if text = "" then none else some text

def sentText : Option Value → Option String
  | none | some .null => none
  | some value => if env.texts.text value = "" then none else some (env.texts.text value)

def IsPlaceholder (sent : Option Value) : Prop := sent.any (·.isText placeholder) = true

structure Kept (cred : Credential) (sent : Vars) (after : Credential) : Prop where
  placeholders : ∀ field ∈ cred.type.secretFields, IsPlaceholder (sent.lookup field) →
    after.secret env field = cred.secret env field
  values : ∀ field ∈ cred.type.secretFields, ¬ IsPlaceholder (sent.lookup field) →
    after.secret env field = .ok (sentText env (sent.lookup field))
  neverBare : ∀ field ∈ cred.type.secretFields, ¬ IsPlaceholder (after.inputs.lookup field)
  readable : ∀ field default raised, field ∉ after.dynamicInputFields →
    after.getInput env field default = .error raised →
      raised = .attributeError field ∧ after.inputs.lookup field = none

def AllKept : Credential → List Request → Prop
  | _, [] => True
  | cred, request :: requests =>
      ∃ after, cred.saveRequest env next request = .ok after ∧
        Kept env cred request.inputs after ∧ AllKept after requests

/-- A secret is sent as the placeholder only where one is stored, and otherwise does not begin
with the placeholder. -/
def Covered (cred : Credential) (sent : Vars) : Prop :=
  ∀ field ∈ cred.type.secretFields, ∀ value, sent.lookup field = some value →
    if value.isText placeholder then cred.inputs.lookup field ≠ none
    else value = .null ∨ ¬ encryptedMark.isPrefixOf (env.texts.text value).toList = true

def AllCovered : Credential → List Request → Prop
  | _, [] => True
  | cred, request :: requests =>
      Covered env cred request.inputs ∧
        ∀ after, cred.saveRequest env next request = .ok after → AllCovered after requests

def newCredential (type : CredentialType)
    (inputSources : List (String × Except Raised Value)) : Credential :=
  ⟨type, none, ∅, inputSources⟩

/-! ## What is stored -/

section Stored

variable {env} {next} {type : CredentialType} {pk : Option String} {field : String}
  {value : Value} {drawn : String → Bytes} {cred after : Credential}

def KeptText (type : CredentialType) (field text : String) : Prop :=
  text = "" ∨ encryptedMark.isPrefixOf text.toList = true ∨
    (decide (field ∈ type.askableFields) = true ∧ text = "ASK")

instance (type : CredentialType) (field text : String) : Decidable (KeptText type field text) :=
  inferInstanceAs (Decidable (_ ∨ _))

def token (env : Surroundings) (drawn : Bytes) (pk : Option String) (field text : String) :
    String :=
  match fernetKey (getEncryptionKey env field pk none) with
  | .ok key => String.ofList
      (storedMark ++ encode (env.encrypt (key.take 32) (key.drop 32) drawn (smartBytes text)))
  | .error _ => ""

def sealText (env : Surroundings) (drawn : String → Bytes) (type : CredentialType)
    (pk : Option String) (field text : String) : String :=
  if KeptText type field text then text else token env (drawn field) pk field text

def sealInput (env : Surroundings) (drawn : String → Bytes) (type : CredentialType)
    (pk : Option String) (field : String) (sent : Option Value) : Option Value :=
  (sentText env sent).map fun text => .str (sealText env drawn type pk field text)

def reveal (env : Surroundings) (pk : Option String) (field : String) (value : Value) :
    Except Raised String :=
  let text := env.texts.text value
  if text = "" ∨ ¬ encryptedMark.isPrefixOf text.toList then .ok text
  else decryptValue env (getEncryptionKey env field pk none) text

theorem value_inst (hvalue : cred.inputs.lookup field = some value) :
    cred.inst.value field none = .ok value := by
  have hfield : cred.inst.field field = .ok value := by
    rw [Instance.field, Credential.inst, Option.getD_some, hvalue]
  rw [Instance.value, hfield]
  cases value <;> rfl

theorem decryptField_inst (hvalue : cred.inputs.lookup field = some value) :
    decryptField env cred.inst field none none = reveal env cred.pk field value := by
  rw [decryptField, value_inst hvalue]
  rfl

theorem encryptField_inst (hvalue : cred.inputs.lookup field = some value)
    (hnull : value ≠ .null) :
    encryptField env (drawn field) cred.inst field (decide (field ∈ cred.type.askableFields))
      none none =
      .ok (.str (sealText env drawn cred.type cred.pk field (env.texts.text value))) := by
  obtain ⟨fernet, hfernet⟩ := fernetKey_getEncryptionKey env field cred.pk none
  have hinst : encryptField env (drawn field) cred.inst field
      (decide (field ∈ cred.type.askableFields)) none none =
      if KeptText cred.type field (env.texts.text value) then .ok (.str (env.texts.text value))
      else do
        let key ← fernetKey (getEncryptionKey env field cred.pk none)
        let encrypted := env.encrypt (key.take 32) (key.drop 32) (drawn field)
          (smartBytes (env.texts.text value))
        let tokens := ["$encrypted".toList, "UTF8".toList, "AESCBC".toList, encode encrypted]
        return .str (String.ofList (['$'].intercalate tokens)) := by
    rw [encryptField, value_inst hvalue]
    cases value with
    | null => contradiction
    | _ => rfl
  rw [hinst, sealText, token, hfernet]
  split
  · rfl
  · change Except.ok (Value.str (String.ofList (['$'].intercalate _))) = _
    rw [intercalate_tokens]

theorem reveal_of_marked {text : String} (hmark : encryptedMark.isPrefixOf text.toList = true) :
    reveal env pk field (.str text) =
      decryptValue env (getEncryptionKey env field pk none) text := by
  have hmarked : ¬ (text = "" ∨ ¬ encryptedMark.isPrefixOf text.toList = true) := by
    rintro (rfl | h)
    · exact absurd hmark (by decide)
    · exact h hmark
  exact if_neg hmarked

theorem reveal_of_plain {text : String} (hplain : ¬ encryptedMark.isPrefixOf text.toList = true) :
    reveal env pk field (.str text) = .ok text :=
  if_pos (.inr hplain)

/-- What is encrypted begins with the placeholder, goes on behind it, and is decrypted again. -/
theorem token_spec (env : Surroundings) (drawn : Bytes) (pk : Option String)
    (field text : String) :
    encryptedMark.isPrefixOf (token env drawn pk field text).toList = true ∧
      token env drawn pk field text ≠ placeholder ∧
      reveal env pk field (.str (token env drawn pk field text)) = .ok text := by
  obtain ⟨fernet, hfernet⟩ := fernetKey_getEncryptionKey env field pk none
  have htoken : token env drawn pk field text = String.ofList (storedMark ++
      encode (env.encrypt (fernet.take 32) (fernet.drop 32) drawn (smartBytes text))) := by
    rw [token, hfernet]
  have hmark : encryptedMark.isPrefixOf (token env drawn pk field text).toList = true := by
    rw [htoken, String.toList_ofList]
    rfl
  have hlonger : token env drawn pk field text ≠ placeholder := by
    intro hsame
    have hlengths := congrArg (fun text => text.toList.length) (htoken.symm.trans hsame)
    have hmarkLength : storedMark.length = 23 := by decide
    have hplaceholder : placeholder.toList.length = 11 := by decide
    simp only [String.toList_ofList, List.length_append, hmarkLength, hplaceholder] at hlengths
    omega
  have hback : reveal env pk field (.str (token env drawn pk field text)) = .ok text := by
    rw [reveal_of_marked hmark, htoken,
      decryptValue_storedMark hfernet (env.decrypt_encrypt _ _ _ _), smartStr_smartBytes]
  exact ⟨hmark, hlonger, hback⟩

theorem ne_empty_of_marked {text : String}
    (hmark : encryptedMark.isPrefixOf text.toList = true) : text ≠ "" := by
  rintro rfl
  exact absurd hmark (by decide)

theorem sealText_ne {text : String} (hne : text ≠ "") :
    sealText env drawn type pk field text ≠ "" := by
  rw [sealText]
  split
  · exact hne
  · exact ne_empty_of_marked (token_spec env _ pk field text).1

theorem sentText_some (hnull : value ≠ .null) :
    sentText env (some value) =
      if env.texts.text value = "" then none else some (env.texts.text value) := by
  cases value with
  | null => contradiction
  | _ => rfl

def sealStep (env : Surroundings) (drawn : String → Bytes) (type : CredentialType)
    (pk : Option String) (inputs : Vars) (field : String) : Vars :=
  match sealInput env drawn type pk field (inputs.lookup field) with
  | none => inputs.erase field
  | some value => inputs.insert field value

theorem encryptInput_eq (env : Surroundings) (drawn : String → Bytes) (cred : Credential)
    (field : String) :
    cred.encryptInput env drawn field =
      .ok { cred with inputs := sealStep env drawn cred.type cred.pk cred.inputs field } := by
  rw [Credential.encryptInput, sealStep]
  cases hvalue : cred.inputs.lookup field with
  | none =>
    have herase := erase_of_lookup_eq_none hvalue
    exact congrArg (fun inputs => Except.ok { cred with inputs := inputs }) herase.symm
  | some value =>
    dsimp only
    by_cases hnull : value = .null
    · have hencrypted : encryptField env (drawn field) cred.inst field
          (decide (field ∈ cred.type.askableFields)) none none = .ok .null := by
        rw [encryptField, value_inst hvalue, hnull]
        rfl
      rw [hencrypted, hnull]
      rfl
    · rw [encryptField_inst hvalue hnull, sealInput, sentText_some hnull]
      by_cases hempty : env.texts.text value = ""
      · rw [if_pos hempty, hempty]
        rfl
      · rw [if_neg hempty]
        exact if_pos (decide_eq_true (sealText_ne hempty))

theorem lookup_sealStep (inputs : Vars) (field other : String) :
    (sealStep env drawn type pk inputs field).lookup other =
      if other = field then sealInput env drawn type pk field (inputs.lookup field)
      else inputs.lookup other := by
  rw [sealStep]
  split
  · next hnone =>
    split
    · next heq => rw [heq, AList.lookup_erase, hnone]
    · next hne => rw [AList.lookup_erase_ne hne]
  · next value hsome =>
    split
    · next heq => rw [heq, AList.lookup_insert, hsome]
    · next hne => rw [AList.lookup_insert_ne hne]

theorem isText_iff {text : String} : value.isText text = true ↔ value = .str text := by
  cases value <;> simp [Value.isText]

theorem isPlaceholder_iff {sent : Option Value} :
    IsPlaceholder sent ↔ sent = some (.str placeholder) := by
  cases sent with
  | none => simp [IsPlaceholder]
  | some value => exact isText_iff.trans Option.some_inj.symm

def restored (before sent : Option Value) : Option Value :=
  if sent.any (·.isText placeholder) then some (before.getD (.str placeholder)) else sent

theorem lookup_restoreInput (before inputs : Vars) (field other : String) :
    (Credential.restoreInput before inputs field).lookup other =
      if other = field then restored (before.lookup field) (inputs.lookup field)
      else inputs.lookup other := by
  rw [Credential.restoreInput, restored]
  split
  · split
    · next heq => rw [heq, AList.lookup_insert]
    · next hne => rw [AList.lookup_insert_ne hne]
  · split
    · next heq => rw [heq]
    · rfl

theorem restored_of_placeholder {sent : Option Value} (before : Option Value)
    (hsent : IsPlaceholder sent) :
    restored before sent = some (before.getD (.str placeholder)) :=
  if_pos hsent

theorem restored_of_other {sent : Option Value} (before : Option Value)
    (hsent : ¬ IsPlaceholder sent) : restored before sent = sent :=
  if_neg hsent

theorem restored_none (sent : Option Value) : restored none sent = sent := by
  rw [restored]
  split
  · next hsent => exact (isPlaceholder_iff.mp hsent).symm
  · rfl

theorem restored_restored (before sent : Option Value) :
    restored before (restored before sent) = restored before sent := by
  by_cases hsent : IsPlaceholder sent
  · rw [restored_of_placeholder before hsent, restored]
    exact ite_self _
  · rw [restored_of_other before hsent, restored_of_other before hsent]

theorem lookup_restoreInputs (before : Vars) (cred : Credential) (field : String) :
    (cred.restoreInputs before).inputs.lookup field =
      if field ∈ cred.type.secretFields then
        restored (before.lookup field) (cred.inputs.lookup field)
      else cred.inputs.lookup field := by
  rw [Credential.restoreInputs]
  by_cases hempty : before.entries.isEmpty = true
  · have hnone : before.lookup field = none := by
      rw [AList.lookup, List.isEmpty_iff.mp hempty]
      rfl
    rw [if_pos hempty, hnone, restored_none, ite_self]
  · rw [if_neg hempty]
    exact lookup_foldl (lookup_restoreInput before) (fun key => restored_restored _) _ _

theorem sentText_eq_some {sent : Option Value} {text : String}
    (hsent : sentText env sent = some text) :
    ∃ value, sent = some value ∧ value ≠ .null ∧ env.texts.text value = text ∧ text ≠ "" := by
  cases sent with
  | none => contradiction
  | some value =>
    have hnull : value ≠ .null := by
      rintro rfl
      contradiction
    rw [sentText_some hnull] at hsent
    obtain ⟨hne, htext⟩ := Option.ite_none_left_eq_some.mp hsent
    have htext : env.texts.text value = text := Option.some.inj htext
    exact ⟨value, rfl, hnull, htext, htext ▸ hne⟩

theorem keptText_sealText (text : String) :
    KeptText type field (sealText env drawn type pk field text) := by
  rw [sealText]
  split
  · next hkept => exact hkept
  · exact .inr (.inl (token_spec env _ pk field text).1)

theorem sealInput_of_kept {text : String} (hne : text ≠ "") (hkept : KeptText type field text) :
    sealInput env drawn type pk field (some (.str text)) = some (.str text) := by
  have hsent : sentText env (some (.str text)) = some text := if_neg hne
  rw [sealInput, hsent, Option.map_some, sealText, if_pos hkept]

theorem sealInput_sealInput (field : String) (sent : Option Value) :
    sealInput env drawn type pk field (sealInput env drawn type pk field sent) =
      sealInput env drawn type pk field sent := by
  cases hsent : sentText env sent with
  | none =>
    have hnone : sealInput env drawn type pk field sent = none := by
      rw [sealInput, hsent, Option.map_none]
    rw [hnone]
    rfl
  | some text =>
    have hsome : sealInput env drawn type pk field sent =
        some (.str (sealText env drawn type pk field text)) := by
      rw [sealInput, hsent, Option.map_some]
    obtain ⟨-, -, -, -, hne⟩ := sentText_eq_some hsent
    rw [hsome]
    exact sealInput_of_kept (sealText_ne hne) (keptText_sealText text)

theorem foldlM_encryptInput (env : Surroundings) (drawn : String → Bytes) (cred : Credential)
    (fields : List String) :
    fields.foldlM (fun cred field => cred.encryptInput env drawn field) cred =
      .ok { cred with
        inputs := fields.foldl (sealStep env drawn cred.type cred.pk) cred.inputs } := by
  induction fields generalizing cred with
  | nil => rfl
  | cons field fields ih =>
    rw [List.foldlM_cons, encryptInput_eq]
    exact ih _

theorem saveAgain_spec (env : Surroundings) (drawn : String → Bytes) (before : Vars)
    (cred : Credential) :
    ∃ inputs : Vars, cred.saveAgain env drawn before = .ok { cred with inputs := inputs } ∧
      ∀ field, inputs.lookup field =
        if field ∈ cred.type.secretFields then
          sealInput env drawn cred.type cred.pk field
            (restored (before.lookup field) (cred.inputs.lookup field))
        else cred.inputs.lookup field := by
  have hsame : ∃ inputs : Vars, cred.restoreInputs before = { cred with inputs := inputs } := by
    rw [Credential.restoreInputs]
    split
    · exact ⟨cred.inputs, rfl⟩
    · exact ⟨_, rfl⟩
  obtain ⟨inputs, hinputs⟩ := hsame
  have hlookup := lookup_restoreInputs before cred
  rw [hinputs] at hlookup
  refine ⟨cred.type.secretFields.foldl (sealStep env drawn cred.type cred.pk) inputs, ?_, ?_⟩
  · rw [Credential.saveAgain, hinputs, foldlM_encryptInput]
  · intro field
    rw [lookup_foldl lookup_sealStep sealInput_sealInput]
    split
    · next hsecret => rw [hlookup, if_pos hsecret]
    · next hother => rw [hlookup, if_neg hother]

structure Sealed (env : Surroundings) (type : CredentialType) (pk : Option String)
    (field : String) (value : Value) : Prop where
  kept : ∀ drawn, sealInput env drawn type pk field (some value) = some value
  notBare : value ≠ .str placeholder
  decrypts : ∃ text, reveal env pk field value = .ok text

/-- The stored secrets of a credential are sealed; before the first save there are none. -/
structure Intact (env : Surroundings) (cred : Credential) : Prop where
  sealed : ∀ field ∈ cred.type.secretFields, ∀ value, cred.inputs.lookup field = some value →
    Sealed env cred.type cred.pk field value
  unsaved : cred.pk = none → cred.inputs = ∅

theorem secret_eq (env : Surroundings) (cred : Credential) (field : String) :
    cred.secret env field =
      match cred.inputs.lookup field with
      | none => .ok none
      | some value => do
          let text ← reveal env cred.pk field value
          return if text = "" then none else some text := by
  rw [Credential.secret]
  cases hvalue : cred.inputs.lookup field with
  | none => rfl
  | some value =>
    dsimp only
    rw [decryptField_inst hvalue]

theorem sealed_sealInput {sent : Option Value} {text : String}
    (hsent : sentText env sent = some text)
    (hplain : ¬ encryptedMark.isPrefixOf text.toList = true) :
    ∃ value, sealInput env drawn type pk field sent = some value ∧
      Sealed env type pk field value ∧ reveal env pk field value = .ok text := by
  obtain ⟨-, -, -, -, hne⟩ := sentText_eq_some hsent
  have hreveal : reveal env pk field (.str (sealText env drawn type pk field text)) = .ok text := by
    rw [sealText]
    split
    · exact reveal_of_plain hplain
    · exact (token_spec env _ pk field text).2.2
  have hbare : sealText env drawn type pk field text ≠ placeholder := by
    rw [sealText]
    split
    · rintro rfl
      exact hplain (by decide)
    · exact (token_spec env _ pk field text).2.1
  refine ⟨.str (sealText env drawn type pk field text), ?_, ⟨fun drawn' => ?_, ?_, text, hreveal⟩,
    hreveal⟩
  · rw [sealInput, hsent, Option.map_some]
  · exact sealInput_of_kept (sealText_ne hne) (keptText_sealText text)
  · exact fun hsame => hbare (Value.str.inj hsame)

theorem saveRequest_eq (env : Surroundings) (next : String) (request : Request)
    (hunsaved : cred.pk = none → cred.inputs = ∅) :
    ∃ pk before, cred.saveRequest env next request =
        (Credential.mk cred.type (some pk) request.inputs cred.inputSources).saveAgain env
          request.drawn before ∧
      ∀ field value, cred.inputs.lookup field = some value →
        cred.pk = some pk ∧ before = cred.inputs := by
  rw [Credential.saveRequest, Credential.save]
  cases hpk : cred.pk with
  | none =>
    refine ⟨next, request.inputs, rfl, fun field value hvalue => ?_⟩
    rw [hunsaved hpk] at hvalue
    contradiction
  | some pk => exact ⟨pk, cred.inputs, rfl, fun _ _ _ => ⟨rfl, rfl⟩⟩

/-- What a save stores for a secret field: what was stored, if the placeholder is sent, or what
is sent. -/
inductive Stores (env : Surroundings) (cred : Credential) (sent : Option Value)
    (after : Credential) (field : String) : Prop
  | before (value : Value) (hsent : IsPlaceholder sent)
      (hbefore : cred.inputs.lookup field = some value)
      (hafter : after.inputs.lookup field = some value) (hpk : after.pk = cred.pk)
      (hsealed : Sealed env after.type after.pk field value)
  | nothing (hsent : ¬ IsPlaceholder sent) (htext : sentText env sent = none)
      (hafter : after.inputs.lookup field = none)
  | text (text : String) (value : Value) (hsent : ¬ IsPlaceholder sent)
      (htext : sentText env sent = some text) (hafter : after.inputs.lookup field = some value)
      (hsealed : Sealed env after.type after.pk field value)
      (hreveal : reveal env after.pk field value = .ok text)

theorem saveRequest_spec (next : String) (request : Request) (hintact : Intact env cred)
    (hcovered : Covered env cred request.inputs) :
    ∃ after, cred.saveRequest env next request = .ok after ∧ after.type = cred.type ∧
      after.pk ≠ none ∧ ∀ field ∈ cred.type.secretFields,
        Stores env cred (request.inputs.lookup field) after field := by
  obtain ⟨pk, before, hsave, hbefore⟩ := saveRequest_eq env next request hintact.unsaved
  obtain ⟨inputs, hinputs, hlookup⟩ := saveAgain_spec env request.drawn before
    (Credential.mk cred.type (some pk) request.inputs cred.inputSources)
  refine ⟨_, hsave.trans hinputs, rfl, Option.some_ne_none pk, fun field hsecret => ?_⟩
  have hstored := hlookup field
  rw [if_pos hsecret] at hstored
  by_cases hplaceholder : IsPlaceholder (request.inputs.lookup field)
  · have hneeded := hcovered field hsecret _ (isPlaceholder_iff.mp hplaceholder)
    rw [if_pos (isText_iff.mpr rfl)] at hneeded
    obtain ⟨value, hvalue⟩ := Option.ne_none_iff_exists'.mp hneeded
    obtain ⟨hpk, rfl⟩ := hbefore field value hvalue
    have hsealed := hintact.sealed field hsecret value hvalue
    rw [hpk] at hsealed
    rw [restored_of_placeholder _ hplaceholder, hvalue, Option.getD_some, hsealed.kept] at hstored
    exact .before value hplaceholder hvalue hstored hpk.symm hsealed
  · rw [restored_of_other _ hplaceholder] at hstored
    cases hsent : sentText env (request.inputs.lookup field) with
    | none =>
      rw [sealInput, hsent, Option.map_none] at hstored
      exact .nothing hplaceholder hsent hstored
    | some text =>
      obtain ⟨value, hvalue, hnull, rfl, -⟩ := sentText_eq_some hsent
      have hplain := hcovered field hsecret value hvalue
      have hother : ¬ value.isText placeholder = true := fun htext =>
        hplaceholder (isPlaceholder_iff.mpr (hvalue.trans (congrArg some (isText_iff.mp htext))))
      rw [if_neg hother, or_iff_right hnull] at hplain
      obtain ⟨stored, hsome, hsealed, hreveal⟩ := sealed_sealInput hsent hplain
      exact .text _ stored hplaceholder hsent (hstored.trans hsome) hsealed hreveal

theorem intact_of_stores {sent : Vars} (htype : after.type = cred.type) (hpk : after.pk ≠ none)
    (hstores : ∀ field ∈ cred.type.secretFields, Stores env cred (sent.lookup field) after field) :
    Intact env after := by
  refine ⟨fun field hsecret value hvalue => ?_, fun hnone => absurd hnone hpk⟩
  rw [htype] at hsecret
  cases hstores field hsecret with
  | before stored _ _ hafter _ hsealed =>
    obtain rfl := Option.some.inj (hafter.symm.trans hvalue)
    exact hsealed
  | nothing _ _ hafter => exact absurd (hafter.symm.trans hvalue) (Option.some_ne_none value).symm
  | text _ stored _ _ hafter hsealed _ =>
    obtain rfl := Option.some.inj (hafter.symm.trans hvalue)
    exact hsealed

theorem getInput_of_intact {default : Option Value} {raised : Raised} (hintact : Intact env cred)
    (hstatic : field ∉ cred.dynamicInputFields)
    (hraised : cred.getInput env field default = .error raised) :
    raised = .attributeError field ∧ cred.inputs.lookup field = none := by
  have hdynamic : ¬ (cred.type.kind ≠ "external" ∧ field ∈ cred.dynamicInputFields) :=
    fun h => hstatic h.2
  rw [Credential.getInput, if_neg hdynamic] at hraised
  split at hraised
  · next hsecret =>
    cases hvalue : cred.inputs.lookup field with
    | some value =>
      obtain ⟨text, htext⟩ := (hintact.sealed field hsecret value hvalue).decrypts
      rw [decryptField_inst hvalue, htext] at hraised
      contradiction
    | none =>
      have habsent : decryptField env cred.inst field none none =
          .error (.attributeError field) := by
        rw [decryptField, Instance.value, Instance.field, Credential.inst, Option.getD_some, hvalue]
        rfl
      rw [habsent] at hraised
      dsimp only at hraised
      split at hraised
      · contradiction
      · exact ⟨(Except.error.inj hraised).symm, rfl⟩
  · cases hvalue : cred.inputs.lookup field with
    | some value =>
      rw [hvalue] at hraised
      contradiction
    | none =>
      split at hraised
      · contradiction
      · exact ⟨(Except.error.inj hraised).symm, rfl⟩

theorem kept_of_stores {sent : Vars} (htype : after.type = cred.type) (hpk : after.pk ≠ none)
    (hstores : ∀ field ∈ cred.type.secretFields, Stores env cred (sent.lookup field) after field) :
    Kept env cred sent after := by
  have hintact := intact_of_stores htype hpk hstores
  refine ⟨fun field hsecret hsent => ?_, fun field hsecret hsent => ?_,
    fun field hsecret hbare => ?_, fun field default raised => getInput_of_intact hintact⟩
  · cases hstores field hsecret with
    | before value _ hbefore hafter hsame _ =>
      rw [secret_eq, secret_eq, hbefore, hafter, hsame]
    | nothing hother => exact absurd hsent hother
    | text _ _ hother => exact absurd hsent hother
  · cases hstores field hsecret with
    | before _ hplaceholder => exact absurd hplaceholder hsent
    | nothing _ htext hafter => rw [secret_eq, hafter, htext]
    | text text value _ htext hafter _ hreveal =>
      obtain ⟨-, -, -, -, hne⟩ := sentText_eq_some htext
      rw [secret_eq, hafter, htext]
      dsimp only
      rw [hreveal]
      exact congrArg Except.ok (if_neg hne)
  · rw [← htype] at hsecret
    exact (hintact.sealed field hsecret _ (isPlaceholder_iff.mp hbare)).notBare rfl

end Stored

/-! ## Runs -/

theorem intact_newCredential (type : CredentialType)
    (inputSources : List (String × Except Raised Value)) :
    Intact env (newCredential type inputSources) where
  sealed := fun _ _ _ hvalue => nomatch hvalue
  unsaved := fun _ => rfl

theorem allKept_of_intact {cred : Credential} {requests : List Request}
    (hintact : Intact env cred) (hcovered : AllCovered env next cred requests) :
    AllKept env next cred requests := by
  induction requests generalizing cred with
  | nil => trivial
  | cons request requests ih =>
    obtain ⟨after, hsave, htype, hpk, hstores⟩ :=
      saveRequest_spec next request hintact hcovered.1
    exact ⟨after, hsave, kept_of_stores htype hpk hstores,
      ih (intact_of_stores htype hpk hstores) (hcovered.2 after hsave)⟩

/-- In every run of saves in which the placeholder stands for stored secrets only, and no other
secret begins with it, each save keeps the secrets. -/
theorem covered_runs_keep_secrets (env : Surroundings) (next : String) (type : CredentialType)
    (inputSources : List (String × Except Raised Value)) (requests : List Request)
    (hcovered : AllCovered env next (newCredential type inputSources) requests) :
    AllKept env next (newCredential type inputSources) requests :=
  allKept_of_intact env next (intact_newCredential env type inputSources) hcovered

def passwordType : CredentialType where
  kind := "ssh"
  fields := [⟨"password", .string, none, true, true, none⟩]

def sendPassword (text : String) : Request where
  inputs := AList.singleton "password" (.str text)
  drawn := fun _ => []

theorem covered_sendPassword {cred : Credential} {text : String} (htype : cred.type = passwordType)
    (htext : if text = placeholder then cred.inputs.lookup "password" ≠ none
      else ¬ encryptedMark.isPrefixOf text.toList = true) :
    Covered tagging cred (sendPassword text).inputs := by
  intro field hsecret value hvalue
  rw [htype] at hsecret
  obtain rfl : field = "password" := List.mem_singleton.mp hsecret
  obtain rfl : .str text = value := Option.some.inj hvalue
  split at htext
  · next heq => rw [if_pos (isText_iff.mpr (congrArg Value.str heq))]; exact htext
  · next hne => rw [if_neg fun h => hne (Value.str.inj (isText_iff.mp h))]; exact .inr htext

theorem sentTwice_kept :
    AllKept tagging "1" (newCredential passwordType [])
      [sendPassword "s3cr&t", sendPassword placeholder] := by
  apply covered_runs_keep_secrets
  have hcovered : Covered tagging (newCredential passwordType []) (sendPassword "s3cr&t").inputs :=
    covered_sendPassword rfl (by decide)
  refine ⟨hcovered, fun after hafter => ⟨?_, fun _ _ => trivial⟩⟩
  obtain ⟨saved, hsaved, htype, -, hstores⟩ := saveRequest_spec "1" _
    (intact_newCredential tagging passwordType []) hcovered
  obtain rfl : saved = after := Except.ok.inj (hsaved.symm.trans hafter)
  apply covered_sendPassword htype
  rw [if_pos rfl]
  cases hstores "password" List.mem_cons_self with
  | before _ _ hbefore => exact absurd hbefore (Option.some_ne_none _).symm
  | nothing _ htext => exact absurd htext (by decide)
  | text _ value _ _ hstored => exact hstored ▸ Option.some_ne_none value

theorem bare_placeholder_stored :
    ¬ ∀ (env : Surroundings) (next : String) (type : CredentialType)
      (inputSources : List (String × Except Raised Value)) (requests : List Request),
      AllKept env next (newCredential type inputSources) requests := by
  intro hclaim
  obtain ⟨created, hcreated, -, updated, hupdated, hkept, -⟩ :=
    hclaim tagging "1" passwordType [] [⟨∅, fun _ => []⟩, sendPassword placeholder]
  have hempty : (newCredential passwordType []).saveRequest tagging "1" ⟨∅, fun _ => []⟩ =
      .ok ⟨passwordType, some "1", ∅, []⟩ := rfl
  obtain rfl := Except.ok.inj (hempty.symm.trans hcreated)
  have hbare : Credential.saveRequest tagging "1" ⟨passwordType, some "1", ∅, []⟩
      (sendPassword placeholder) =
      .ok ⟨passwordType, some "1", AList.singleton "password" (.str placeholder), []⟩ := rfl
  obtain rfl := Except.ok.inj (hbare.symm.trans hupdated)
  exact hkept.neverBare "password" List.mem_cons_self rfl

end Forail.Credentials

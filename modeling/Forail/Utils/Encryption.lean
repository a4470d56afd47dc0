import Forail.Core.Base64
import Forail.Core.Dictionaries
import Mathlib.Data.List.Infix

/-!
# Encrypted fields

A secret is stored as a marker with the base64 text of its token.  A text that begins with the
marker is taken for a secret that is stored already, and is stored as it is.
-/

namespace Forail.Encryption

open Forail.Base64 Forail.Json Forail.Texts

inductive Raised where
  | attributeError (field : String)
  | keyError (key : String)
  | valueError (message : String)
  | unicodeDecodeError
  | invalidToken
  deriving DecidableEq

/-- The cipher of `Fernet256`, with its signing key, its encryption key and what it draws for a
token, and the hash of its keys. -/
structure Cipher where
  encrypt : Bytes → Bytes → Bytes → Bytes → Bytes
  decrypt : Bytes → Bytes → Bytes → Option Bytes
  decrypt_encrypt : ∀ signingKey encryptionKey drawn plain,
    decrypt signingKey encryptionKey (encrypt signingKey encryptionKey drawn plain) = some plain
  sha512 : Bytes → Bytes
  length_sha512 : ∀ bytes, (sha512 bytes).length = 64

structure Surroundings extends Cipher where
  secretKey : String
  texts : Texts

/-- An instance of a model, with the text of its primary key and its inputs if it has any. -/
structure Instance where
  pk : Option String
  inputs : Option Vars
  attributes : Vars

/-- The value of a field, which is the one of the inputs if there are inputs. -/
def Instance.field (inst : Instance) (fieldName : String) : Except Raised Value :=
  match (inst.inputs.getD inst.attributes).lookup fieldName with
  | some value => .ok value
  | none => .error (.attributeError fieldName)

def select (value : Value) (subfield : Option String) : Except Raised Value :=
  match value, subfield with
  | .dict entries, some key =>
      match entries.lookup key with
      | some value => .ok value
      | none => .error (.keyError key)
  | value, _ => .ok value

def Instance.value (inst : Instance) (fieldName : String) (subfield : Option String) :
    Except Raised Value := do
  select (← inst.field fieldName) subfield

def smartBytes (text : String) : Bytes := text.toUTF8.data.toList

def smartStr (bytes : Bytes) : Except Raised String :=
  match String.fromUTF8? ⟨bytes.toArray⟩ with
  | some text => .ok text
  | none => .error .unicodeDecodeError

def fernetKey (key : Text) : Except Raised Bytes :=
  match urlsafeDecode key with
  | none => .error (.valueError "Incorrect padding")
  | some key =>
      if key.length ≠ 64 then
        .error (.valueError "Fernet key must be 64 url-safe base64-encoded bytes.")
      else .ok key

def encryptedMark : Text := "$encrypted$".toList

variable (env : Surroundings)

def getEncryptionKey (fieldName : String) (pk : Option String) (secretKey : Option String) : Text :=
  let secret := if secretKey.getD "" = "" then env.secretKey else secretKey.getD ""
  urlsafeEncode (env.sha512
    (smartBytes secret ++ (pk.elim [] smartBytes) ++ smartBytes fieldName))

def encryptField (drawn : Bytes) (inst : Instance) (fieldName : String) (ask : Bool)
    (subfield secretKey : Option String) : Except Raised Value := do
  let value ← inst.value fieldName subfield
  match value with
  | .null => return .null
  | value =>
      let text := env.texts.text value
      if text = "" ∨ encryptedMark.isPrefixOf text.toList ∨ (ask ∧ text = "ASK") then
        return .str text
      let key ← fernetKey (getEncryptionKey env fieldName inst.pk secretKey)
      let encrypted := env.encrypt (key.take 32) (key.drop 32) drawn (smartBytes text)
      let tokens := ["$encrypted".toList, "UTF8".toList, "AESCBC".toList, encode encrypted]
      return .str (String.ofList (['$'].intercalate tokens))

def decryptValue (encryptionKey : Text) (value : String) : Except Raised String := do
  let rawData := value.toList.drop encryptedMark.length
  let utf8 := "UTF8$".toList.isPrefixOf rawData
  let rawData := if utf8 then rawData.drop "UTF8$".length else rawData
  let algo := rawData.takeWhile fun char => char != '$'
  match rawData.dropWhile fun char => char != '$' with
  | [] => .error (.valueError "not enough values to unpack (expected 2, got 1)")
  | _ :: b64data =>
      if algo ≠ "AESCBC".toList then
        .error (.valueError ("unsupported algorithm: " ++ String.ofList algo))
      else
        match decode b64data with
        | none => .error (.valueError "Incorrect padding")
        | some encrypted =>
            let key ← fernetKey encryptionKey
            match env.decrypt (key.take 32) (key.drop 32) encrypted with
            | none => .error .invalidToken
            | some plain => smartStr plain

def decryptField (inst : Instance) (fieldName : String) (subfield secretKey : Option String) :
    Except Raised String := do
  let value ← inst.value fieldName subfield
  let text := env.texts.text value
  if text = "" ∨ ¬ encryptedMark.isPrefixOf text.toList then return text
  decryptValue env (getEncryptionKey env fieldName inst.pk secretKey) text

def setEntry (key : String) (value : Value) (entries : List (String × Value)) :
    List (String × Value) :=
  entries.map fun entry => if entry.1 = key then (key, value) else entry

def replaceSelected (value : Value) (subfield : Option String) (stored : Value) : Value :=
  match value, subfield with
  | .dict entries, some key => .dict (setEntry key stored entries)
  | _, _ => stored

def Instance.setField (inst : Instance) (fieldName : String) (value : Value) : Instance :=
  match inst.inputs with
  | some inputs => { inst with inputs := some (inputs.insert fieldName value) }
  | none => { inst with attributes := inst.attributes.insert fieldName value }

def Instance.store (inst : Instance) (fieldName : String) (subfield : Option String)
    (stored : Value) : Instance :=
  match inst.field fieldName with
  | .ok value => inst.setField fieldName (replaceSelected value subfield stored)
  | .error _ => inst

/-! ## Stored values -/

section Storing

variable {inst : Instance} {fieldName : String} {subfield : Option String} {value : Value}

theorem field_setField : (inst.setField fieldName value).field fieldName = .ok value := by
  obtain ⟨pk, inputs, attributes⟩ := inst
  cases inputs with
  | none => simp only [Instance.setField, Instance.field, Option.getD_none, AList.lookup_insert]
  | some inputs =>
    simp only [Instance.setField, Instance.field, Option.getD_some, AList.lookup_insert]

theorem pk_store (stored : Value) : (inst.store fieldName subfield stored).pk = inst.pk := by
  rw [Instance.store]
  cases inst.field fieldName with
  | error raised => rfl
  | ok value =>
    dsimp only
    rw [Instance.setField]
    cases inst.inputs <;> rfl

theorem lookup_setEntry {key : String} {old : Value} {entries : List (String × Value)}
    (hold : entries.lookup key = some old) :
    (setEntry key value entries).lookup key = some value := by
  induction entries with
  | nil => exact absurd hold.symm (Option.some_ne_none _)
  | cons entry entries ih =>
    obtain ⟨other, otherValue⟩ := entry
    rw [setEntry, List.map_cons]
    by_cases hkey : other = key
    · rw [if_pos hkey, List.lookup_cons, beq_self_eq_true]
    · have hne : (key == other) = false := beq_eq_false_iff_ne.mpr (Ne.symm hkey)
      rw [List.lookup_cons, hne] at hold
      rw [if_neg hkey, List.lookup_cons, hne]
      exact ih hold

theorem select_replaceSelected {old : Value} {stored : String}
    (hold : select value subfield = .ok old) :
    select (replaceSelected value subfield (.str stored)) subfield = .ok (.str stored) := by
  cases subfield with
  | none => cases value <;> rfl
  | some key =>
    cases value with
    | dict entries =>
      rw [select] at hold
      rw [replaceSelected, select]
      split at hold
      · rename_i found hfound
        rw [lookup_setEntry hfound]
      · contradiction
    | _ => rfl

theorem value_store {old : Value} {stored : String}
    (hold : inst.value fieldName subfield = .ok old) :
    (inst.store fieldName subfield (.str stored)).value fieldName subfield = .ok (.str stored) := by
  rw [Instance.value] at hold
  rw [Instance.store]
  cases hfield : inst.field fieldName with
  | error raised =>
    rw [hfield] at hold
    contradiction
  | ok value =>
    rw [hfield] at hold
    have hselect : select value subfield = .ok old := hold
    rw [Instance.value, field_setField]
    exact select_replaceSelected hselect

end Storing

/-! ## The round trip -/

section RoundTrip

variable {env} {inst : Instance} {fieldName : String} {subfield : Option String} {value : Value}

theorem smartStr_smartBytes (text : String) : smartStr (smartBytes text) = .ok text := by
  have hbytes : (⟨(smartBytes text).toArray⟩ : ByteArray) = text.toUTF8 := by
    rw [smartBytes, Array.toArray_toList]
  have hvalid : text.toUTF8.IsValidUTF8 := text.isValidUTF8
  rw [smartStr, hbytes, String.fromUTF8?, dif_pos hvalid]
  rfl

theorem fernetKey_getEncryptionKey (env : Surroundings) (fieldName : String) (pk secretKey : Option String) :
    ∃ key, fernetKey (getEncryptionKey env fieldName pk secretKey) = .ok key := by
  rw [getEncryptionKey, fernetKey, urlsafeDecode_urlsafeEncode]
  exact ⟨_, if_neg (not_not.mpr (env.length_sha512 _))⟩

def storedMark : Text := "$encrypted$UTF8$AESCBC$".toList

theorem intercalate_tokens (b64data : Text) :
    ['$'].intercalate ["$encrypted".toList, "UTF8".toList, "AESCBC".toList, b64data] =
      storedMark ++ b64data := by
  rw [List.intercalate_cons_cons, List.intercalate_cons_cons, List.intercalate_cons_cons,
    List.intercalate_singleton]
  rfl

theorem decryptValue_storedMark {key : Text} {fernet token plain : Bytes}
    (hkey : fernetKey key = .ok fernet)
    (htoken : env.decrypt (fernet.take 32) (fernet.drop 32) token = some plain) :
    decryptValue env key (String.ofList (storedMark ++ encode token)) = smartStr plain := by
  have hlist : (String.ofList (storedMark ++ encode token)).toList = storedMark ++ encode token :=
    String.toList_ofList
  have hdrop : (storedMark ++ encode token).drop encryptedMark.length =
      "UTF8$AESCBC$".toList ++ encode token := rfl
  have hutf8 : "UTF8$".toList.isPrefixOf ("UTF8$AESCBC$".toList ++ encode token) = true := rfl
  have hdrop' : ("UTF8$AESCBC$".toList ++ encode token).drop "UTF8$".length =
      "AESCBC$".toList ++ encode token := rfl
  have halgo : ("AESCBC$".toList ++ encode token).takeWhile (fun char => char != '$') =
      "AESCBC".toList := rfl
  have hrest : ("AESCBC$".toList ++ encode token).dropWhile (fun char => char != '$') =
      '$' :: encode token := rfl
  rw [decryptValue, hlist, hdrop, if_pos hutf8, hdrop', hrest]
  rw [halgo]
  dsimp only
  rw [if_neg (not_not.mpr rfl), decode_encode, hkey]
  change (match env.decrypt (fernet.take 32) (fernet.drop 32) token with
    | none => Except.error Raised.invalidToken
    | some plain => smartStr plain) = _
  rw [htoken]

theorem encryptField_str (env : Surroundings) (drawn : Bytes) (secretKey : Option String)
    {text : String} {ask : Bool}
    (hvalue : inst.value fieldName subfield = .ok (.str text)) (hne : text ≠ "")
    (hmark : ¬ encryptedMark.isPrefixOf text.toList) (hask : ¬ (ask = true ∧ text = "ASK")) :
    ∃ fernet, fernetKey (getEncryptionKey env fieldName inst.pk secretKey) = .ok fernet ∧
      encryptField env drawn inst fieldName ask subfield secretKey =
        .ok (.str (String.ofList (storedMark ++ encode
          (env.encrypt (fernet.take 32) (fernet.drop 32) drawn (smartBytes text))))) := by
  obtain ⟨fernet, hfernet⟩ := fernetKey_getEncryptionKey env fieldName inst.pk secretKey
  refine ⟨fernet, hfernet, ?_⟩
  have hkept : ¬ (text = "" ∨ encryptedMark.isPrefixOf text.toList = true ∨
      (ask = true ∧ text = "ASK")) := by
    rintro (h | h | h)
    · exact hne h
    · exact hmark h
    · exact hask h
  rw [encryptField, hvalue]
  change (if text = "" ∨ encryptedMark.isPrefixOf text.toList = true ∨ (ask = true ∧ text = "ASK")
    then _ else _) = _
  rw [if_neg hkept, hfernet]
  change Except.ok (Value.str (String.ofList (['$'].intercalate _))) = _
  rw [intercalate_tokens]
  rfl

theorem encryptField_of_kept {text : String} {drawn : Bytes} {ask : Bool}
    {secretKey : Option String} (hvalue : inst.value fieldName subfield = .ok (.str text))
    (hkept : text = "" ∨ encryptedMark.isPrefixOf text.toList = true ∨
      (ask = true ∧ text = "ASK")) :
    encryptField env drawn inst fieldName ask subfield secretKey = .ok (.str text) := by
  rw [encryptField, hvalue]
  change (if text = "" ∨ encryptedMark.isPrefixOf text.toList = true ∨ (ask = true ∧ text = "ASK")
    then _ else _) = _
  rw [if_pos hkept]
  rfl

theorem decryptField_of_plain {text : String} {secretKey : Option String}
    (hvalue : inst.value fieldName subfield = .ok (.str text))
    (hplain : text = "" ∨ ¬ encryptedMark.isPrefixOf text.toList = true) :
    decryptField env inst fieldName subfield secretKey = .ok text := by
  rw [decryptField, hvalue]
  change (if text = "" ∨ ¬ encryptedMark.isPrefixOf text.toList = true then _ else _) = _
  rw [if_pos hplain]
  rfl

theorem decryptField_of_marked {text : String} {secretKey : Option String}
    (hvalue : inst.value fieldName subfield = .ok (.str text))
    (hmark : encryptedMark.isPrefixOf text.toList = true) :
    decryptField env inst fieldName subfield secretKey =
      decryptValue env (getEncryptionKey env fieldName inst.pk secretKey) text := by
  have hne : text ≠ "" := by
    rintro rfl
    exact absurd hmark (by decide)
  have hmarked : ¬ (text = "" ∨ ¬ encryptedMark.isPrefixOf text.toList = true) := by
    rintro (h | h)
    · exact hne h
    · exact h hmark
  rw [decryptField, hvalue]
  change (if text = "" ∨ ¬ encryptedMark.isPrefixOf text.toList = true then _ else _) = _
  rw [if_neg hmarked]
  rfl

theorem decryptField_store {text stored : String} {secretKey : Option String} {fernet drawn : Bytes}
    (hvalue : inst.value fieldName subfield = .ok (.str text))
    (hfernet : fernetKey (getEncryptionKey env fieldName inst.pk secretKey) = .ok fernet)
    (hstored : stored = String.ofList (storedMark ++ encode
      (env.encrypt (fernet.take 32) (fernet.drop 32) drawn (smartBytes text)))) :
    decryptField env (inst.store fieldName subfield (.str stored)) fieldName subfield secretKey =
      .ok text := by
  have hmark : encryptedMark.isPrefixOf stored.toList = true := by
    rw [hstored, String.toList_ofList]
    rfl
  rw [decryptField_of_marked (value_store hvalue) hmark, pk_store, hstored,
    decryptValue_storedMark hfernet (env.decrypt_encrypt _ _ _ _), smartStr_smartBytes]

theorem mem_storedMark_encode {char : Char} {bytes : Bytes}
    (hchar : char ∈ storedMark ++ encode bytes) : char ∈ '$' :: '=' :: alphabet := by
  have hall : storedMark.all (fun char => char ∈ '$' :: '=' :: alphabet) = true := by decide
  obtain hmem | hmem := List.mem_append.mp hchar
  · exact of_decide_eq_true (List.all_eq_true.mp hall char hmem)
  · obtain hmem | rfl := mem_encode hmem
    · exact List.mem_cons_of_mem _ (List.mem_cons_of_mem _ hmem)
    · exact List.mem_cons_of_mem _ List.mem_cons_self

end RoundTrip

def RoundTrips (env : Surroundings) (drawn : Bytes) (inst : Instance) (fieldName : String)
    (subfield secretKey : Option String) (text : String) : Prop :=
  ∃ stored, encryptField env drawn inst fieldName false subfield secretKey = .ok (.str stored) ∧
    decryptField env (inst.store fieldName subfield (.str stored)) fieldName subfield secretKey =
      .ok text

def Hidden (env : Surroundings) (drawn : Bytes) (inst : Instance) (fieldName : String)
    (subfield secretKey : Option String) (text : String) : Prop :=
  ∀ stored, encryptField env drawn inst fieldName false subfield secretKey = .ok (.str stored) →
    ¬ text.toList <:+: stored.toList

def tagging : Surroundings where
  encrypt := fun _ _ _ plain => 0x80 :: plain
  decrypt := fun _ _ token => if token.head? = some 0x80 then some token.tail else none
  decrypt_encrypt := fun _ _ _ _ => rfl
  sha512 := fun _ => List.replicate 64 0
  length_sha512 := fun _ => List.length_replicate
  secretKey := "secret"
  texts := ⟨fun _ => "", fun _ => ""⟩

def setting (text : String) : Instance where
  pk := some "123"
  inputs := none
  attributes := AList.singleton "value" (.str text)

theorem encryptField_not_roundTrip :
    (¬ ∀ (env : Surroundings) (drawn : Bytes) (inst : Instance) (fieldName : String)
        (subfield secretKey : Option String) (text : String),
      inst.value fieldName subfield = .ok (.str text) →
        RoundTrips env drawn inst fieldName subfield secretKey text) ∧
    ¬ ∀ (env : Surroundings) (drawn : Bytes) (inst : Instance) (fieldName : String)
        (subfield secretKey : Option String) (text : String),
      inst.value fieldName subfield = .ok (.str text) → text ≠ "" →
        Hidden env drawn inst fieldName subfield secretKey text := by
  constructor
  · intro hround
    obtain ⟨stored, hstored, hback⟩ :=
      hround tagging [] (setting "$encrypted$") "value" none none "$encrypted$" rfl
    have hkept : encryptField tagging [] (setting "$encrypted$") "value" false none none =
        .ok (.str "$encrypted$") := rfl
    obtain rfl : "$encrypted$" = stored := by
      rw [hkept] at hstored
      simpa using hstored
    have hraised : decryptField tagging
        ((setting "$encrypted$").store "value" none (.str "$encrypted$")) "value" none none =
        .error (.valueError "not enough values to unpack (expected 2, got 1)") := rfl
    rw [hraised] at hback
    contradiction
  · intro hhidden
    have hvalue : (setting "e").value "value" none = .ok (.str "e") := rfl
    have hask : ¬ (false = true ∧ "e" = "ASK") := by decide
    obtain ⟨fernet, -, hstored⟩ :=
      encryptField_str tagging [] none hvalue (by decide) (by decide) hask
    exact hhidden tagging [] (setting "e") "value" none none "e" rfl (by decide) _ hstored
      ⟨['$'], "ncrypted$UTF8$AESCBC$".toList ++ encode _, String.toList_ofList.symm⟩

/-- A text that begins with the marker is stored as it is.  Any other text comes back, and what
is stored of it is the marker with a token, in which nothing of the text is found that has
another character than these have. -/
theorem encryptField_roundTrip (env : Surroundings) (drawn : Bytes) (inst : Instance)
    (fieldName : String) (ask : Bool) (subfield secretKey : Option String) (text : String)
    (hvalue : inst.value fieldName subfield = .ok (.str text)) :
    (encryptedMark.isPrefixOf text.toList = true →
      encryptField env drawn inst fieldName ask subfield secretKey = .ok (.str text)) ∧
    (¬ encryptedMark.isPrefixOf text.toList = true →
      ∃ stored, encryptField env drawn inst fieldName ask subfield secretKey = .ok (.str stored) ∧
        decryptField env (inst.store fieldName subfield (.str stored)) fieldName subfield
          secretKey = .ok text ∧
        (text ≠ "" → ¬ (ask = true ∧ text = "ASK") →
          stored ≠ text ∧
          (∃ token, stored.toList = storedMark ++ encode token) ∧
          ∀ char ∈ text.toList, char ∉ '$' :: '=' :: alphabet →
            ¬ text.toList <:+: stored.toList)) := by
  refine ⟨fun hmark => encryptField_of_kept hvalue (.inr (.inl hmark)), fun hmark => ?_⟩
  by_cases hkept : text = "" ∨ (ask = true ∧ text = "ASK")
  · refine ⟨text, encryptField_of_kept hvalue (hkept.imp_right .inr),
      decryptField_of_plain (value_store hvalue) (.inr hmark), fun hne hask => ?_⟩
    exact absurd hkept (not_or.mpr ⟨hne, hask⟩)
  · rw [not_or] at hkept
    obtain ⟨fernet, hfernet, hstored⟩ :=
      encryptField_str env drawn secretKey hvalue hkept.1 hmark hkept.2
    refine ⟨_, hstored, decryptField_store hvalue hfernet rfl, fun _ _ => ?_⟩
    rw [String.toList_ofList]
    refine ⟨fun hsame => ?_, ⟨_, rfl⟩, fun char hchar hother hpart => ?_⟩
    · rw [← hsame, String.toList_ofList] at hmark
      exact hmark rfl
    · exact hother (mem_storedMark_encode (hpart.subset hchar))

theorem setting_roundTrip :
    ∃ stored, encryptField tagging [] (setting "s3cr&t") "value" false none none =
        .ok (.str stored) ∧
      decryptField tagging ((setting "s3cr&t").store "value" none (.str stored)) "value" none
        none = .ok "s3cr&t" ∧ ¬ "s3cr&t".toList <:+: stored.toList := by
  obtain ⟨stored, hstored, hback, hhidden⟩ := (encryptField_roundTrip tagging []
    (setting "s3cr&t") "value" false none none "s3cr&t" rfl).2 (by decide)
  exact ⟨stored, hstored, hback, (hhidden (by decide) (by decide)).2.2 '&' (by decide) (by decide)⟩

end Forail.Encryption

import Forail.Core.Interleaving
import Forail.Core.OrderedDicts

/-!
# Encrypted settings

A setting is read by `SettingsWrapper` of `conf/settings.py`: from the memory of the process,
from the cache that all processes share, or from the table.  What is cached of an encrypted
setting is encrypted with a key that is derived from the id of its row, and the id is cached
under a key of its own.  A change of a row goes through `Setting.save`, and the signal handlers
of `conf/signals.py` remove the value from the cache, but not the id.

The settings here are the encrypted ones that are not of a user.  The programs below take one
operation for each database statement and for each access to the cache, to the memory of the
process and to the clock.
-/

namespace Forail.EncryptedSettings

open Forail.Interleaving Forail.OrderedDicts

open Forail.Interleaving.Fallible (raises)

def settingMemoryTtl : ℕ := 5

def settingCacheTimeout : ℕ := 60

def defaultTimeout : ℕ := 300

def settingCacheNotset : String := "___notset___"

def settingCacheEmptyList : String := "___[]___"

def settingCacheEmptyDict : String := "___{}___"

inductive Error where
  | invalidToken
  | valueError
  | attributeError
  | databaseError
  | improperlyConfigured
  | validationError
  deriving DecidableEq

inductive Value where
  | text (text : String)
  | emptyList
  | emptyDict
  deriving DecidableEq

/-! ## Encryption -/

/-- What is stored of an encrypted setting: a text that is left as it is, or one that is
encrypted with the key of an id. -/
inductive Cipher where
  | text (text : String)
  | token (pk : Option ℕ) (plain : String)
  deriving DecidableEq

def Cipher.plain : Cipher → String
  | .text value => value
  | .token _ plain => plain

def encryptedMark : String := "$encrypted$"

def isEncrypted (text : String) : Bool := encryptedMark.toList.isPrefixOf text.toList

/-- The registered settings, and what `decrypt_value` makes of a text that passes for an
encrypted one but is none. -/
structure Registry (Name : Type) where
  names : List Name
  readOnly : Name → Bool
  fieldDefault : Name → Option Value
  fileDefault : Name → Option String
  validate : Name → Value → Option String
  dependents : Name → List Name
  decryptValue : Option ℕ → String → Except Error String

def encryptField (pk : Option ℕ) (value : String) : Cipher :=
  if value = "" ∨ isEncrypted value = true then .text value else .token pk value

variable {Name Process : Type} [DecidableEq Name] [DecidableEq Process]

def decryptField (registry : Registry Name) (pk : Option ℕ) : Cipher → Except Error String
  | .text value =>
      if isEncrypted value = true then registry.decryptValue pk value else .ok value
  | .token key plain => if key = pk then .ok plain else .error .invalidToken

/-! ## The table, the cache and the memories -/

structure Row (Name : Type) where
  pk : ℕ
  key : Name
  value : Cipher
  deriving DecidableEq

structure Entry (α : Type) where
  value : α
  expires : ℕ

def Entry.read? {α : Type} (now : ℕ) (entry : Option (Entry α)) : Option α :=
  entry.bind fun entry => if now < entry.expires then some entry.value else none

structure Cache (Name : Type) where
  values : Name → Option (Entry Cipher)
  ids : Name → Option (Entry (Option ℕ))
  preloadExpires : Option (Entry ℕ)

structure Memory (Name : Type) where
  settings : Name → Option (Entry (Option String))
  preloadExpires : Option ℕ

/-- A read that has ended: when it began, what it gave, and what of the setting was stored
then, when that was written, and all that had been stored before. -/
structure Read (Name : Type) where
  name : Name
  begun : ℕ
  outcome : Except Error String
  row : Option String
  writtenAt : ℕ
  earlier : List String

/-- The rows are in the order of their primary keys.  The last three fields are the history of
the run, which no program reads. -/
structure State (Name Process : Type) where
  now : ℕ
  rows : List (Row Name)
  nextPk : ℕ
  cache : Cache Name
  memory : Process → Memory Name
  stored : Name → List String
  writtenAt : Name → ℕ
  reads : List (Read Name)

def State.row? (state : State Name Process) (name : Name) : Option (Row Name) :=
  state.rows.find? fun row => row.key = name

/-! ## Operations -/

/-- One access.  The id of a setting is looked up to encrypt a value or to decrypt one, which
the operation names for the conditions on runs. -/
inductive Op (Name : Type) where
  | time
  | localPreloadExpires
  | setLocalPreloadExpires (expires : ℕ)
  | preloaded
  | setPreloaded (expires : ℕ)
  | getValue (name : Name)
  | setValue (name : Name) (value : Cipher)
  | deleteValue (name : Name)
  | getId (name : Name) (decrypting : Option Cipher)
  | setId (name : Name) (id : Option ℕ)
  | rows (names : List Name)
  | first (name : Name) (decrypting : Option Cipher)
  | insert (name : Name)
  | update (pk : ℕ) (value : Cipher)
  | delete (pk : ℕ)
  | remembered (name : Name)
  | remember (name : Name) (outcome : Option String)
  | forgetAll
  | report (name : Name) (begun : ℕ) (outcome : Except Error String)

@[reducible]
def Op.Answer : Op Name → Type
  | time => ℕ
  | localPreloadExpires => Option ℕ
  | preloaded => Bool
  | getValue _ => Option Cipher
  | getId _ _ => Option (Option ℕ)
  | rows _ => List (Row Name)
  | first _ _ => Option (Row Name)
  | insert _ => ℕ
  | update _ _ => Bool
  | remembered _ => Option (Option String)
  | _ => Unit

def Cache.setValue (cache : Cache Name) (name : Name) (entry : Option (Entry Cipher)) :
    Cache Name :=
  { cache with values := Function.update cache.values name entry }

def Cache.setId (cache : Cache Name) (name : Name) (entry : Option (Entry (Option ℕ))) :
    Cache Name :=
  { cache with ids := Function.update cache.ids name entry }

def State.remember (state : State Name Process) (process : Process) (memory : Memory Name) :
    State Name Process :=
  { state with memory := Function.update state.memory process memory }

def State.written (state : State Name Process) (pk : ℕ) : Name → ℕ := fun name =>
  if ∃ row ∈ state.rows, row.pk = pk ∧ row.key = name then state.now else state.writtenAt name

def Row.save (pk : ℕ) (value : Cipher) (row : Row Name) : Row Name :=
  if row.pk = pk then { row with value := value } else row

def execute (process : Process) (state : State Name Process) :
    (op : Op Name) → op.Answer × State Name Process
  | .time => (state.now, state)
  | .localPreloadExpires => ((state.memory process).preloadExpires, state)
  | .setLocalPreloadExpires expires =>
      ((), state.remember process
        { state.memory process with preloadExpires := some expires })
  | .preloaded => ((Entry.read? state.now state.cache.preloadExpires).isSome, state)
  | .setPreloaded expires =>
      ((), { state with cache := { state.cache with
        preloadExpires := some ⟨expires, state.now + settingCacheTimeout⟩ } })
  | .getValue name => (Entry.read? state.now (state.cache.values name), state)
  | .setValue name value =>
      ((), { state with
        cache := state.cache.setValue name (some ⟨value, state.now + settingCacheTimeout⟩) })
  | .deleteValue name => ((), { state with cache := state.cache.setValue name none })
  | .getId name _ => (Entry.read? state.now (state.cache.ids name), state)
  | .setId name id =>
      ((), { state with cache := state.cache.setId name (some ⟨id, state.now + defaultTimeout⟩) })
  | .rows names => (state.rows.filter fun row => row.key ∈ names, state)
  | .first name _ => (state.row? name, state)
  | .insert name =>
      (state.nextPk, { state with
        rows := state.rows ++ [⟨state.nextPk, name, .text ""⟩]
        nextPk := state.nextPk + 1
        writtenAt := Function.update state.writtenAt name state.now })
  | .update pk value =>
      (state.rows.any fun row => row.pk = pk, { state with
        rows := state.rows.map (Row.save pk value)
        stored := fun name =>
          if ∃ row ∈ state.rows, row.pk = pk ∧ row.key = name then value.plain :: state.stored name
          else state.stored name
        writtenAt := state.written pk })
  | .delete pk =>
      ((), { state with
        rows := state.rows.filter fun row => row.pk ≠ pk
        writtenAt := state.written pk })
  | .remembered name => (Entry.read? state.now ((state.memory process).settings name), state)
  | .remember name outcome =>
      ((), state.remember process { state.memory process with
        settings := Function.update (state.memory process).settings name
          (some ⟨outcome, state.now + settingMemoryTtl⟩) })
  | .forgetAll =>
      ((), state.remember process { state.memory process with settings := fun _ => none })
  | .report name begun outcome =>
      ((), { state with reads := ⟨name, begun, outcome, (state.row? name).map fun row => row.value.plain,
        state.writtenAt name, state.stored name⟩ :: state.reads })

/-- What happens by itself: time passes, and entries are dropped. -/
inductive Change (Name Process : Type) where
  | tick
  | dropValue (name : Name)
  | dropId (name : Name)
  | dropPreloaded
  | forget (process : Process) (name : Name)

def disturb : Change Name Process → State Name Process → State Name Process
  | .tick, state => { state with now := state.now + 1 }
  | .dropValue name, state => { state with cache := state.cache.setValue name none }
  | .dropId name, state => { state with cache := state.cache.setId name none }
  | .dropPreloaded, state => { state with cache := { state.cache with preloadExpires := none } }
  | .forget process name, state => state.remember process { state.memory process with
      settings := Function.update (state.memory process).settings name none }

/-! ## The programs -/

abbrev Code (Name α : Type) := Fallible Error (Op Name) Op.Answer α

abbrev perform (op : Op Name) : Code Name op.Answer := Fallible.perform op

def getSettingFromDb (registry : Registry Name) (name : Name) (decrypting : Option Cipher) :
    Code Name (Option (Row Name)) :=
  if registry.readOnly name then pure none else perform (.first name decrypting)

def objId (registry : Registry Name) (name : Name) (decrypting : Option Cipher) :
    Code Name (Option ℕ) := do
  match ← perform (.getId name decrypting) with
  | some id => pure id
  | none =>
      let setting ← getSettingFromDb registry name decrypting
      pure (setting.map Row.pk)

def cacheGet (registry : Registry Name) (name : Name) : Code Name (Option String) := do
  match ← perform (.getValue name) with
  | none => pure none
  | some value =>
      let id ← objId registry name (some value)
      let plain ← raises (decryptField registry id value)
      pure (some plain)

def cacheSet (registry : Registry Name) (name : Name) (value : String) : Code Name Unit := do
  let id ← objId registry name none
  perform (.setValue name (encryptField id value))

def getCacheValue : Value → String
  | .text text => text
  | .emptyList => settingCacheEmptyList
  | .emptyDict => settingCacheEmptyDict

structure Preload (Name : Type) where
  settingsToCache : Name → String
  settingIds : OrderedDict Name (Option ℕ)

def Preload.add (preload : Preload Name) (name : Name) (value : String) (id : Option ℕ) :
    Preload Name where
  settingsToCache := Function.update preload.settingsToCache name value
  settingIds := upsert none (fun _ => id) name preload.settingIds

def loadRows (registry : Registry Name) : List (Row Name) → Preload Name →
    Except Error (Preload Name)
  | [], preload => .ok preload
  | row :: rows, preload =>
      if preload.settingsToCache row.key ≠ settingCacheNotset then loadRows registry rows preload
      else
        match decryptField registry (some row.pk) row.value with
        | .ok value => loadRows registry rows (preload.add row.key value (some row.pk))
        | .error error => .error error

def loadDefaults (registry : Registry Name) : List Name → Preload Name → Preload Name
  | [], preload => preload
  | name :: names, preload =>
      if preload.settingsToCache name ≠ settingCacheNotset then loadDefaults registry names preload
      else
        match registry.fieldDefault name with
        | some value => loadDefaults registry names (preload.add name (getCacheValue value) none)
        | none => loadDefaults registry names preload

def Registry.writeable (registry : Registry Name) : List Name :=
  registry.names.filter fun name => !registry.readOnly name

/-- The part of `_preload_cache` after the cache was found without the settings. -/
def storeSettings (registry : Registry Name) (expires : ℕ) : Code Name Unit := do
  let rows ← perform (.rows registry.writeable)
  let loaded ← raises (loadRows registry rows ⟨fun _ => settingCacheNotset, []⟩)
  let preload := loadDefaults registry registry.writeable loaded
  preload.settingIds.forM fun entry => perform (.setId entry.1 entry.2)
  registry.writeable.forM fun name => cacheSet registry name (preload.settingsToCache name)
  perform (.setPreloaded expires)

def preloadCache (registry : Registry Name) : Code Name Unit := do
  let expires ← perform .localPreloadExpires
  let now ← perform .time
  if expires.any (now < ·) then pure ()
  else
    let now ← perform .time
    perform (.setLocalPreloadExpires (now + settingCacheTimeout))
    let preloaded ← perform .preloaded
    if preloaded then pure () else storeSettings registry (now + settingCacheTimeout)

def readCacheValue (cacheValue : String) : Option Value :=
  if cacheValue = settingCacheNotset then none
  else if cacheValue = settingCacheEmptyList then some .emptyList
  else if cacheValue = settingCacheEmptyDict then some .emptyDict
  else some (.text cacheValue)

/-- The value and the id of a setting that the cache does not have. -/
def storedOrDefault (registry : Registry Name) (name : Name) :
    Code Name (Value × Option (Option ℕ)) := do
  match ← getSettingFromDb registry name none with
  | some setting =>
      let value ← raises (decryptField registry (some setting.pk) setting.value)
      pure (.text value, some (some setting.pk))
  | none =>
      match registry.fieldDefault name with
      | some value => pure (value, some none)
      | none => pure (.text settingCacheNotset, none)

/-- The value of a setting that the cache does not have, which is cached. -/
def lookUp (registry : Registry Name) (name : Name) (cacheValue : Option String) :
    Code Name Value := do
  let (value, settingId) ← storedOrDefault registry name
  if cacheValue.map Value.text = some value then pure value
  else
    match settingId with
    | some id => perform (.setId name id)
    | none => pure ()
    cacheSet registry name (getCacheValue value)
    pure value

/-- The exceptions of `cache.get` that are handled. -/
def cacheValueOf (registry : Registry Name) (name : Name) : Code Name (Option String) :=
  tryCatch (cacheGet registry name) fun error =>
    if error = .valueError then pure none else throw error

/-- What the field makes of a value, with `none` for `empty`. -/
def validated (registry : Registry Name) (name : Name) (value : Value) : Option String :=
  if value = .text settingCacheNotset then none else registry.validate name value

/-- `_get_local`, with `none` for `empty`. -/
def getLocal (registry : Registry Name) (name : Name) : Code Name (Option String) := do
  preloadCache registry
  let cacheValue ← cacheValueOf registry name
  let value ← match cacheValue.bind readCacheValue with
    | some value => pure value
    | none => lookUp registry name cacheValue
  pure (validated registry name value)

def getLocalWithCache (registry : Registry Name) (name : Name) : Code Name (Option String) := do
  match ← perform (.remembered name) with
  | some outcome => pure outcome
  | none =>
      let outcome ← getLocal registry name
      perform (.remember name outcome)
      pure outcome

def getAttr (registry : Registry Name) (name : Name) : Code Name String := do
  match ← getLocalWithCache registry name with
  | some value => pure value
  | none =>
      match registry.fileDefault name with
      | some value => pure value
      | none => throw .attributeError

def read (registry : Registry Name) (name : Name) : Code Name String := do
  let begun ← perform .time
  let outcome ← (getAttr registry name).attempt
  perform (.report name begun outcome)
  raises outcome

def readOrNone (registry : Registry Name) (name : Name) : Code Name Unit :=
  tryCatch (do let _ ← read registry name) fun error =>
    if error = .attributeError then pure () else throw error

def handleSettingChange (registry : Registry Name) (key : Name) : Code Name Unit := do
  let settingKeys := key :: registry.dependents key
  settingKeys.forM fun name => perform (.deleteValue name)
  perform .forgetAll
  settingKeys.forM fun name => readOrNone registry name

def saveValue (registry : Registry Name) (key : Name) (pk : ℕ) (value : String) :
    Code Name Unit := do
  let saved ← perform (.update pk (encryptField (some pk) value))
  if saved then handleSettingChange registry key else throw .databaseError

def create (registry : Registry Name) (key : Name) (value : String) : Code Name Unit := do
  let pk ← perform (.insert key)
  handleSettingChange registry key
  saveValue registry key pk value

def setLocal (registry : Registry Name) (name : Name) (value : Value) : Code Name Unit := do
  if registry.readOnly name then throw .improperlyConfigured
  else
    match registry.validate name value with
    | none => throw .validationError
    | some dbValue =>
        match ← perform (.first name none) with
        | none => create registry name dbValue
        | some setting =>
            if setting.value = .text dbValue then pure ()
            else saveValue registry name setting.pk dbValue

def delLocal (registry : Registry Name) (name : Name) : Code Name Unit := do
  if registry.readOnly name then throw .improperlyConfigured
  else
    let settings ← perform (.rows [name])
    settings.forM fun setting => do
      perform (.delete setting.pk)
      handleSettingChange registry setting.key

inductive Task (Name : Type) where
  | read (name : Name)
  | set (name : Name) (value : Value)
  | delete (name : Name)
  | preload

def Task.code (registry : Registry Name) : Task Name → Code Name Unit
  | read name => do let _ ← EncryptedSettings.read registry name
  | set name value => setLocal registry name value
  | delete name => delLocal registry name
  | preload => preloadCache registry

/-- A task of a process, which ends with its exception if it raises one. -/
def code (registry : Registry Name) (task : Task Name) : Prog (Op Name) Op.Answer Unit :=
  (task.code registry).run >>= fun _ => pure ()

end Forail.EncryptedSettings

import Forail.Conf.EncryptedSettings
import Mathlib.Order.Nat

/-!
# What the programs on encrypted settings rely on

A value that was stored at a time is the stored one for as long as the setting is not written.
What is cached, and what a process remembers, was the stored value not too long ago, as long as
no process puts there what is older.
-/

namespace Forail.EncryptedSettings

open Forail.Interleaving

variable {Name Process : Type} [DecidableEq Name]
  {registry : Registry Name} {state state' state'' : State Name Process} {name : Name}
  {value : String} {time : ℕ}

def Registry.default? (registry : Registry Name) (name : Name) : Option String :=
  match (registry.fieldDefault name).bind (registry.validate name) with
  | some value => some value
  | none => registry.fileDefault name

/-- What is to be read of a setting: the value of its row, or its default. -/
def Registry.valueOf (registry : Registry Name) (name : Name) (row : Option String) :
    Option String :=
  if registry.readOnly name then registry.default? name else row.or (registry.default? name)

def State.value? (registry : Registry Name) (state : State Name Process) (name : Name) :
    Option String :=
  registry.valueOf name ((state.row? name).map fun row => row.value.plain)

/-- A read gives the default or what was stored before, and what is stored once the setting has
not been written for longer than the timeouts. -/
def Read.Safe (registry : Registry Name) (read : Read Name) : Prop :=
  ∃ value, read.outcome = .ok value ∧
    (registry.default? read.name = some value ∨ value ∈ read.earlier) ∧
    (read.writtenAt + settingCacheTimeout + settingMemoryTtl < read.begun →
      registry.valueOf read.name read.row = some value)

/-- The value was stored at the time, or the setting has been written since. -/
def AsOf (registry : Registry Name) (state : State Name Process) (name : Name) (time : ℕ)
    (value : String) : Prop :=
  state.writtenAt name < time → state.value? registry name = some value

def Plain (text : String) : Prop :=
  isEncrypted text = false ∧
    text ∉ [settingCacheNotset, settingCacheEmptyList, settingCacheEmptyDict]

instance (text : String) : Decidable (Plain text) := inferInstanceAs (Decidable (_ ∧ _))

/-- Every setting has the blank default, which its field accepts, and a field accepts what it
has validated. -/
structure Registry.Blank (registry : Registry Name) : Prop where
  fieldDefault : ∀ name, registry.fieldDefault name = some (.text "")
  blank : ∀ name, registry.validate name (.text "") = some ""
  again : ∀ name value text, registry.validate name value = some text →
    registry.validate name (.text text) = some text

/-- When an operation does not go wrong: the id that is found to decrypt a value is the one it
was encrypted with, what is put in the cache is stored, what is remembered is not older than
the cache, and what is saved is no marker. -/
def Allowed (registry : Registry Name) (state : State Name Process) : Op Name → Prop
  | .getId name (some (.token pk _)) =>
      ∀ id ∈ Entry.read? state.now (state.cache.ids name), id = pk
  | .first name (some (.token pk _)) => (state.row? name).map Row.pk = pk
  | .setValue name value =>
      state.writtenAt name < state.now → state.value? registry name = some value.plain
  | .remember name outcome =>
      state.writtenAt name + settingCacheTimeout < state.now →
        state.value? registry name = outcome
  | .update _ value => value = .text "" ∨ Plain value.plain
  | _ => True

/-- The blank default, or a text that was stored for the setting. -/
def Held (registry : Registry Name) (state : State Name Process) (name : Name)
    (value : String) : Prop :=
  value = "" ∨ registry.readOnly name = false ∧ value ∈ state.stored name

def Required (registry : Registry Name) (state : State Name Process) : Op Name → Prop
  | .setValue name value =>
      ∃ id plain, value = encryptField id plain ∧ Held registry state name plain
  | .remember name outcome => ∃ value, outcome = some value ∧ Held registry state name value
  | .update pk value => ∃ plain, value = encryptField (some pk) plain ∧
      ∀ row ∈ state.rows, row.pk = pk → registry.validate row.key (.text plain) = some plain
  | .report name begun outcome => ∃ value, outcome = .ok value ∧
      Held registry state name value ∧
        AsOf registry state name (begun - (settingCacheTimeout + settingMemoryTtl)) value
  | _ => True

structure Later (registry : Registry Name) (state state' : State Name Process) : Prop where
  now : state.now ≤ state'.now
  nextPk : state.nextPk ≤ state'.nextPk
  stored : ∀ name, state.stored name ⊆ state'.stored name
  keys : ∀ row' ∈ state'.rows, row'.pk < state.nextPk →
    ∃ row ∈ state.rows, row.pk = row'.pk ∧ row.key = row'.key
  written : ∀ name, state.now ≤ state'.writtenAt name ∨
    state'.writtenAt name = state.writtenAt name ∧
      state'.value? registry name = state.value? registry name

theorem Later.refl (state : State Name Process) : Later registry state state :=
  ⟨le_rfl, le_rfl, fun _ => List.Subset.refl _, fun row hrow _ => ⟨row, hrow, rfl, rfl⟩,
    fun _ => .inr ⟨rfl, rfl⟩⟩

theorem Later.trans (hfirst : Later registry state state')
    (hsecond : Later registry state' state'') : Later registry state state'' where
  now := hfirst.now.trans hsecond.now
  nextPk := hfirst.nextPk.trans hsecond.nextPk
  stored := fun name => List.Subset.trans (hfirst.stored name) (hsecond.stored name)
  keys := by
    intro row hrow hpk
    obtain ⟨row', hrow', hpk', hkey'⟩ := hsecond.keys row hrow (hpk.trans_le hfirst.nextPk)
    obtain ⟨row₀, hrow₀, hpk₀, hkey₀⟩ := hfirst.keys row' hrow' (hpk' ▸ hpk)
    exact ⟨row₀, hrow₀, hpk₀.trans hpk', hkey₀.trans hkey'⟩
  written := by
    intro name
    rcases hsecond.written name with hwritten | ⟨hsame, hvalue⟩
    · exact .inl (hfirst.now.trans hwritten)
    · rw [hsame, hvalue]
      exact hfirst.written name

theorem AsOf.later (hasOf : AsOf registry state name time value) (htime : time ≤ state.now)
    (hlater : Later registry state state') : AsOf registry state' name time value := by
  intro hbefore
  rcases hlater.written name with hwritten | ⟨hsame, hvalue⟩
  · exact absurd (htime.trans hwritten) (not_le.mpr hbefore)
  · rw [hvalue]
    exact hasOf (hsame ▸ hbefore)

theorem AsOf.mono {time' : ℕ} (hasOf : AsOf registry state name time value)
    (htime : time' ≤ time) : AsOf registry state name time' value :=
  fun hbefore => hasOf (hbefore.trans_le htime)

theorem Held.later (hheld : Held registry state name value)
    (hlater : Later registry state state') : Held registry state' name value :=
  hheld.imp id fun hstored => ⟨hstored.1, hlater.stored name hstored.2⟩

def Cached (registry : Registry Name) (state : State Name Process) (name : Name)
    (entry : Entry Cipher) : Prop :=
  entry.expires ≤ state.now + settingCacheTimeout ∧ ∃ id plain,
    entry.value = encryptField id plain ∧ Held registry state name plain ∧
      AsOf registry state name (entry.expires - settingCacheTimeout) plain

/-- What a process remembers was stored no longer ago than the cache keeps it. -/
def Remembered (registry : Registry Name) (state : State Name Process) (name : Name)
    (entry : Entry (Option String)) : Prop :=
  entry.expires ≤ state.now + settingMemoryTtl ∧ ∃ value,
    entry.value = some value ∧ Held registry state name value ∧
      AsOf registry state name (entry.expires - (settingCacheTimeout + settingMemoryTtl)) value

theorem Cached.later {entry : Entry Cipher} (hcached : Cached registry state name entry)
    (hlater : Later registry state state') : Cached registry state' name entry := by
  obtain ⟨hexpires, id, plain, hvalue, hheld, hasOf⟩ := hcached
  refine ⟨hexpires.trans (Nat.add_le_add_right hlater.now _), id, plain, hvalue,
    hheld.later hlater, hasOf.later ?_ hlater⟩
  exact Nat.sub_le_iff_le_add.mpr hexpires

theorem Remembered.later {entry : Entry (Option String)}
    (hremembered : Remembered registry state name entry)
    (hlater : Later registry state state') : Remembered registry state' name entry := by
  obtain ⟨hexpires, value, hvalue, hheld, hasOf⟩ := hremembered
  refine ⟨hexpires.trans (Nat.add_le_add_right hlater.now _), value, hvalue,
    hheld.later hlater, hasOf.later ?_ hlater⟩
  omega

structure TableKept (registry : Registry Name) (state : State Name Process) : Prop where
  pks : (state.rows.map Row.pk).Nodup
  fresh : ∀ row ∈ state.rows, row.pk < state.nextPk
  rows : ∀ row ∈ state.rows, ∃ plain, row.value = encryptField (some row.pk) plain ∧
    (plain = "" ∨ plain ∈ state.stored row.key)
  stored : ∀ name, ∀ plain ∈ state.stored name,
    Plain plain ∧ registry.validate name (.text plain) = some plain

structure Invariant (registry : Registry Name) (state : State Name Process) : Prop where
  table : TableKept registry state
  values : ∀ name entry, state.cache.values name = some entry → Cached registry state name entry
  memories : ∀ process name entry, (state.memory process).settings name = some entry →
    Remembered registry state name entry
  reads : ∀ read ∈ state.reads, read.Safe registry

theorem Invariant.of_later (hinvariant : Invariant registry state)
    (hlater : Later registry state state') (htable : TableKept registry state')
    (hvalues : ∀ name entry, state'.cache.values name = some entry →
      state.cache.values name = some entry ∨ Cached registry state' name entry)
    (hmemories : ∀ process name entry, (state'.memory process).settings name = some entry →
      (state.memory process).settings name = some entry ∨ Remembered registry state' name entry)
    (hreads : ∀ read ∈ state'.reads, read ∈ state.reads ∨ read.Safe registry) :
    Invariant registry state' where
  table := htable
  values := by
    intro name entry hentry
    exact (hvalues name entry hentry).elim
      (fun hold => (hinvariant.values name entry hold).later hlater) id
  memories := by
    intro process name entry hentry
    exact (hmemories process name entry hentry).elim
      (fun hold => (hinvariant.memories process name entry hold).later hlater) id
  reads := fun read hread => (hreads read hread).elim (hinvariant.reads read) id

end Forail.EncryptedSettings

import Forail.Conf.SafeReads

/-!
# Runs of processes on encrypted settings

Processes read, set, delete and preload settings in any order of their operations.  The cached
value of a setting and the id that its key is derived from are looked up one after the other,
and a row that is created or deleted in between leaves them apart, which raises an exception
that no handler of a read expects.
-/

namespace Forail.EncryptedSettings

open Forail.Interleaving Forail.Runs

variable {Name Process : Type} [DecidableEq Name] [DecidableEq Process]
  {registry : Registry Name} {start : State Name Process}
  {system : System (State Name Process) Process (Op Name) Op.Answer}

/-- A state in which the processes start: the rows were saved, and nothing is cached yet. -/
structure Started (registry : Registry Name) (state : State Name Process) : Prop
    extends TableKept registry state where
  values : ∀ name, state.cache.values name = none
  memories : ∀ process name, (state.memory process).settings name = none
  reads : state.reads = []

abbrev SettingsRun (registry : Registry Name)
    (allowed : State Name Process → Op Name → Prop) (start : State Name Process)
    (system : System (State Name Process) Process (Op Name) Op.Answer) : Prop :=
  Run (System.step (code registry) execute disturb) (System.Allows allowed)
    ⟨start, fun _ => none⟩ system

omit [DecidableEq Process] in
theorem Started.invariant (hstart : Started registry start) : Invariant registry start where
  table := hstart.toTableKept
  values := fun name entry hentry => absurd (hentry.symm.trans (hstart.values name)) nofun
  memories := fun process name entry hentry =>
    absurd (hentry.symm.trans (hstart.memories process name)) nofun
  reads := by
    rw [hstart.reads]
    exact fun read hread => absurd hread List.not_mem_nil

instance (registry : Registry Name) (state : State Name Process) (op : Op Name) :
    Decidable (Allowed registry state op) :=
  match op with
  | .getId name decrypting =>
      match decrypting with
      | some (.token pk _) => inferInstanceAs
          (Decidable (∀ id ∈ Entry.read? state.now (state.cache.ids name), id = pk))
      | some (.text _) => isTrue trivial
      | none => isTrue trivial
  | .first name decrypting =>
      match decrypting with
      | some (.token pk _) => inferInstanceAs (Decidable ((state.row? name).map Row.pk = pk))
      | some (.text _) => isTrue trivial
      | none => isTrue trivial
  | .setValue name value => inferInstanceAs (Decidable
      (state.writtenAt name < state.now → state.value? registry name = some value.plain))
  | .remember name outcome => inferInstanceAs (Decidable
      (state.writtenAt name + settingCacheTimeout < state.now →
        state.value? registry name = outcome))
  | .update _ value => inferInstanceAs (Decidable (value = .text "" ∨ Plain value.plain))
  | .time => isTrue trivial
  | .localPreloadExpires => isTrue trivial
  | .setLocalPreloadExpires _ => isTrue trivial
  | .preloaded => isTrue trivial
  | .setPreloaded _ => isTrue trivial
  | .getValue _ => isTrue trivial
  | .deleteValue _ => isTrue trivial
  | .setId _ _ => isTrue trivial
  | .rows _ => isTrue trivial
  | .insert _ => isTrue trivial
  | .delete _ => isTrue trivial
  | .remembered _ => isTrue trivial
  | .forgetAll => isTrue trivial
  | .report _ _ _ => isTrue trivial

def oneSecret : Registry Unit where
  names := [()]
  readOnly := fun _ => false
  fieldDefault := fun _ => some (.text "")
  fileDefault := fun _ => some ""
  validate := fun _ value =>
    match value with
    | .text text => some text
    | _ => none
  dependents := fun _ => []
  decryptValue := fun _ _ => .error .valueError

theorem oneSecret_blank : oneSecret.Blank where
  fieldDefault := fun _ => rfl
  blank := fun _ => rfl
  again := by
    rintro name (text | _ | _) text' hvalid
    · obtain rfl := Option.some.inj hvalid
      rfl
    · contradiction
    · contradiction

def oneRow : State Unit (Fin 3) where
  now := 0
  rows := [⟨1, (), .token (some 1) "secret"⟩]
  nextPk := 2
  cache := ⟨fun _ => none, fun _ => none, none⟩
  memory := fun _ => ⟨fun _ => none, none⟩
  stored := fun _ => ["secret"]
  writtenAt := fun _ => 0
  reads := []

theorem oneRow_started : Started oneSecret oneRow where
  pks := by decide
  fresh := by decide
  rows := by
    intro row hrow
    obtain rfl := List.mem_singleton.mp hrow
    exact ⟨"secret", by decide, .inr List.mem_cons_self⟩
  stored := by
    intro name plain hplain
    obtain rfl := List.mem_singleton.mp hplain
    exact ⟨by decide, rfl⟩
  values := fun _ => rfl
  memories := fun _ _ => rfl
  reads := rfl

abbrev SettingsEvent := Event (Fin 3) (Task Unit) (Change Unit (Fin 3))

def performs (process : Fin 3) (count : ℕ) : List SettingsEvent :=
  List.replicate count (.perform process)

def outcomes (system : System (State Unit (Fin 3)) (Fin 3) (Op Unit) Op.Answer) :
    List (Except Error String) :=
  system.shared.reads.map (·.outcome)

/-- One process reads the setting and another one sets it, which reads it too, and after more
than a minute a third one reads it twice. -/
def readsAndSet : List SettingsEvent :=
  .start 0 (.read ()) :: performs 0 17 ++ .start 1 (.set () (.text "other")) :: performs 1 19 ++
    List.replicate 70 (.change .tick) ++ .start 2 (.read ()) :: performs 2 17 ++
      .start 2 (.read ()) :: performs 2 4

def checkedReads : Option (System (State Unit (Fin 3)) (Fin 3) (Op Unit) Op.Answer) :=
  readsAndSet.foldlM (fun system event =>
    if system.Allows (Allowed oneSecret) event then
      System.step (code oneSecret) execute disturb system event
    else none) ⟨oneRow, fun _ => none⟩

/-- A process has found the encrypted value in the cache when another one deletes the setting,
and looks up the id that the other one has cached. -/
def readWhileDeleted : List SettingsEvent :=
  .start 0 (.read ()) :: performs 0 17 ++ .start 2 (.read ()) :: performs 2 8 ++
    .start 1 (.delete ()) :: performs 1 19 ++ performs 2 2

def readsWhileDeleted : Option (System (State Unit (Fin 3)) (Fin 3) (Op Unit) Op.Answer) :=
  readWhileDeleted.foldlM (System.step (code oneSecret) execute disturb) ⟨oneRow, fun _ => none⟩

end Forail.EncryptedSettings

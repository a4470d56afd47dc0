import Forail.Conf.SettingsContract
import Mathlib.Data.List.Find
import Mathlib.Data.List.Nodup

/-!
# Operations on encrypted settings

Every operation that meets the contract keeps the invariant and leads to a later state.  Most of
them leave the table as it is; a statement that writes makes the settings of its rows new ones.
-/

namespace Forail.EncryptedSettings

open Forail.Interleaving

variable {Name Process : Type} [DecidableEq Name] {registry : Registry Name}
  {state state' : State Name Process} {name : Name}

theorem row?_mem {row : Row Name} (hrow : state.row? name = some row) :
    row ∈ state.rows ∧ row.key = name := by
  rw [State.row?] at hrow
  exact ⟨List.mem_of_find?_eq_some hrow, by simpa using List.find?_some hrow⟩

theorem value?_congr (hrow : (state'.row? name).map (·.value) = (state.row? name).map (·.value)) :
    state'.value? registry name = state.value? registry name := by
  have hplain : ∀ state : State Name Process, (state.row? name).map (fun row => row.value.plain) =
      ((state.row? name).map (·.value)).map Cipher.plain := by
    intro state
    rw [Option.map_map]
    rfl
  rw [State.value?, State.value?, hplain, hplain, hrow]

/-- What an operation leaves as it is when it does not write to the table. -/
structure SameTable (state state' : State Name Process) : Prop where
  now : state.now ≤ state'.now
  rows : state'.rows = state.rows
  nextPk : state'.nextPk = state.nextPk
  stored : state'.stored = state.stored
  writtenAt : state'.writtenAt = state.writtenAt

theorem SameTable.later (hsame : SameTable state state') : Later registry state state' where
  now := hsame.now
  nextPk := hsame.nextPk.ge
  stored := fun name => hsame.stored ▸ List.Subset.refl _
  keys := fun row hrow _ => ⟨row, hsame.rows ▸ hrow, rfl, rfl⟩
  written := by
    intro name
    refine .inr ⟨by rw [hsame.writtenAt], value?_congr ?_⟩
    rw [State.row?, State.row?, hsame.rows]

omit [DecidableEq Name] in
theorem SameTable.tableKept (hsame : SameTable state state')
    (htable : TableKept registry state) : TableKept registry state' where
  pks := hsame.rows ▸ htable.pks
  fresh := by
    rw [hsame.rows, hsame.nextPk]
    exact htable.fresh
  rows := by
    rw [hsame.rows, hsame.stored]
    exact htable.rows
  stored := hsame.stored ▸ htable.stored

theorem Invariant.of_sameTable (hinvariant : Invariant registry state)
    (hsame : SameTable state state')
    (hvalues : ∀ name entry, state'.cache.values name = some entry →
      state.cache.values name = some entry ∨ Cached registry state' name entry)
    (hmemories : ∀ process name entry, (state'.memory process).settings name = some entry →
      (state.memory process).settings name = some entry ∨ Remembered registry state' name entry)
    (hreads : ∀ read ∈ state'.reads, read ∈ state.reads ∨ read.Safe registry) :
    Invariant registry state' ∧ Later registry state state' :=
  ⟨hinvariant.of_later hsame.later (hsame.tableKept hinvariant.table) hvalues hmemories hreads,
    hsame.later⟩

/-! ## The cache -/

theorem update_eq_some {α : Type} {entries : Name → Option α} {entry : Option α} {entry' : α}
    {other : Name} (hentry : Function.update entries name entry other = some entry') :
    entries other = some entry' ∨ other = name ∧ entry = some entry' := by
  by_cases hother : other = name
  · subst hother
    rw [Function.update_self] at hentry
    exact .inr ⟨rfl, hentry⟩
  · rw [Function.update_of_ne hother] at hentry
    exact .inl hentry

theorem plain_encryptField {id : Option ℕ} {plain : String} :
    (encryptField id plain).plain = plain := by
  rw [encryptField]
  split <;> rfl

theorem cached_setValue {value : Cipher} (hallowed : Allowed registry state (.setValue name value))
    (hrequired : Required registry state (.setValue name value)) :
    Cached registry state name ⟨value, state.now + settingCacheTimeout⟩ := by
  obtain ⟨id, plain, hvalue, hheld⟩ := hrequired
  refine ⟨le_rfl, id, plain, hvalue, hheld, ?_⟩
  rw [Nat.add_sub_cancel]
  rw [Allowed, hvalue, plain_encryptField] at hallowed
  exact hallowed

theorem plain_of_allowed {id : Option ℕ} {plain : String} {pk : ℕ}
    (hallowed : Allowed registry state (.update pk (encryptField id plain))) : Plain plain := by
  rcases hallowed with hblank | hplain
  · have hempty : plain = "" := by
      have hplain : (encryptField id plain).plain = plain := plain_encryptField
      rw [← hplain, hblank]
      rfl
    subst hempty
    decide
  · rwa [plain_encryptField] at hplain

/-! ## The memories -/

variable [DecidableEq Process]

omit [DecidableEq Name] in
theorem memory_remember (process other : Process) (memory : Memory Name) :
    (state.remember process memory).memory other =
      if other = process then memory else state.memory other :=
  Function.update_apply ..

omit [DecidableEq Name] in
theorem sameTable_remember (state : State Name Process) (process : Process)
    (memory : Memory Name) : SameTable state (state.remember process memory) :=
  ⟨le_rfl, rfl, rfl, rfl, rfl⟩

theorem Invariant.remember (hinvariant : Invariant registry state) (process : Process)
    (memory : Memory Name)
    (hmemory : ∀ name entry, memory.settings name = some entry →
      (state.memory process).settings name = some entry ∨ Remembered registry state name entry) :
    Invariant registry (state.remember process memory) ∧
      Later registry state (state.remember process memory) := by
  have hsame := sameTable_remember state process memory
  refine hinvariant.of_sameTable hsame (fun _ _ hentry => .inl hentry) ?_
    fun _ hread => .inl hread
  intro other name entry hentry
  rw [memory_remember] at hentry
  split at hentry
  · next hother =>
    subst hother
    exact (hmemory name entry hentry).imp id fun hremembered => hremembered.later hsame.later
  · exact .inl hentry

omit [DecidableEq Process] in
theorem remembered_remember {outcome : Option String}
    (hallowed : Allowed registry state (.remember name outcome))
    (hrequired : Required registry state (.remember name outcome)) :
    Remembered registry state name ⟨outcome, state.now + settingMemoryTtl⟩ := by
  obtain ⟨value, rfl, hheld⟩ := hrequired
  refine ⟨le_rfl, value, rfl, hheld, fun hbefore => hallowed ?_⟩
  dsimp only at hbefore
  omega

theorem later_setId (state : State Name Process) (process : Process) (name : Name)
    (id : Option ℕ) : Later registry state (execute process state (.setId name id)).2 :=
  SameTable.later ⟨le_rfl, rfl, rfl, rfl, rfl⟩

/-! ## The table -/

theorem later_insert (state : State Name Process) (process : Process) (name : Name) :
    Later registry state (execute process state (.insert name)).2 where
  now := le_rfl
  nextPk := Nat.le_succ _
  stored := fun _ => List.Subset.refl _
  keys := by
    intro row hrow hpk
    rcases List.mem_append.mp hrow with hold | hnew
    · exact ⟨row, hold, rfl, rfl⟩
    · obtain rfl := List.mem_singleton.mp hnew
      exact absurd hpk (lt_irrefl _)
  written := by
    intro other
    by_cases hother : other = name
    · subst hother
      exact .inl (Function.update_self other state.now state.writtenAt).ge
    · refine .inr ⟨Function.update_of_ne hother .., value?_congr ?_⟩
      have hnew : ([⟨state.nextPk, name, .text ""⟩] : List (Row Name)).find?
          (fun row => row.key = other) = none := by
        rw [List.find?_singleton, decide_eq_false (Ne.symm hother)]
        rfl
      rw [State.row?, execute, List.find?_append, hnew, Option.or_none, State.row?]

omit [DecidableEq Process] in
theorem written_cases (state : State Name Process) (pk : ℕ) (name : Name) :
    state.written pk name = state.now ∨
      state.written pk name = state.writtenAt name ∧
        ∀ row ∈ state.rows, row.key = name → row.pk ≠ pk := by
  rw [State.written]
  split
  · exact .inl rfl
  · next hnone =>
    exact .inr ⟨rfl, fun row hrow hkey hpk => hnone ⟨row, hrow, hpk, hkey⟩⟩

theorem later_update (state : State Name Process) (process : Process) (pk : ℕ) (value : Cipher) :
    Later registry state (execute process state (.update pk value)).2 where
  now := le_rfl
  nextPk := le_rfl
  stored := by
    intro name
    rw [execute]
    dsimp only
    split
    · exact List.subset_cons_self ..
    · exact List.Subset.refl _
  keys := by
    intro row hrow _
    obtain ⟨old, hold, rfl⟩ := List.mem_map.mp hrow
    refine ⟨old, hold, ?_⟩
    rw [Row.save]
    split <;> exact ⟨rfl, rfl⟩
  written := by
    intro name
    rcases written_cases state pk name with hnow | ⟨hsame, hother⟩
    · exact .inl hnow.ge
    · refine .inr ⟨hsame, value?_congr ?_⟩
      have hrow : ((state.rows.map (Row.save pk value)).find? fun row => row.key = name) =
          state.row? name := by
        have hkey : ∀ row : Row Name, (row.save pk value).key = row.key := by
          intro row
          rw [Row.save]
          split <;> rfl
        rw [List.find?_map, State.row?]
        simp only [Function.comp_def, hkey]
        cases hfound : state.rows.find? fun row => row.key = name with
        | none => rfl
        | some row =>
          obtain ⟨hmem, hname⟩ := row?_mem hfound
          rw [Option.map_some, Row.save, if_neg (hother row hmem hname)]
      rw [execute, State.row?, hrow]

theorem later_delete (state : State Name Process) (process : Process) (pk : ℕ) :
    Later registry state (execute process state (.delete pk)).2 where
  now := le_rfl
  nextPk := le_rfl
  stored := fun _ => List.Subset.refl _
  keys := fun row hrow _ => ⟨row, List.mem_of_mem_filter hrow, rfl, rfl⟩
  written := by
    intro name
    rcases written_cases state pk name with hnow | ⟨hsame, hother⟩
    · exact .inl hnow.ge
    · refine .inr ⟨hsame, value?_congr ?_⟩
      have hrow : ((state.rows.filter fun row => row.pk ≠ pk).find? fun row => row.key = name) =
          state.row? name := by
        rw [List.find?_filter, State.row?]
        apply List.find?_congr
        intro row hmem
        by_cases hname : row.key = name
        · simp [hname, hother row hmem hname]
        · simp [hname]
      rw [execute, State.row?, hrow]

theorem tableKept_insert (htable : TableKept registry state) (process : Process) (name : Name) :
    TableKept registry (execute process state (.insert name)).2 where
  pks := by
    rw [execute, List.map_append, List.map_singleton, List.nodup_append_comm]
    refine List.nodup_cons.mpr ⟨fun hmem => ?_, htable.pks⟩
    obtain ⟨row, hrow, hpk⟩ := List.mem_map.mp hmem
    exact absurd (htable.fresh row hrow) (hpk ▸ lt_irrefl _)
  fresh := by
    intro row hrow
    rcases List.mem_append.mp hrow with hold | hnew
    · exact (htable.fresh row hold).trans (Nat.lt_succ_self _)
    · obtain rfl := List.mem_singleton.mp hnew
      exact Nat.lt_succ_self _
  rows := by
    intro row hrow
    rcases List.mem_append.mp hrow with hold | hnew
    · exact htable.rows row hold
    · obtain rfl := List.mem_singleton.mp hnew
      exact ⟨"", rfl, .inl rfl⟩
  stored := htable.stored

theorem tableKept_delete (htable : TableKept registry state) (process : Process) (pk : ℕ) :
    TableKept registry (execute process state (.delete pk)).2 where
  pks := (List.filter_sublist.map Row.pk).nodup htable.pks
  fresh := fun row hrow => htable.fresh row (List.mem_of_mem_filter hrow)
  rows := fun row hrow => htable.rows row (List.mem_of_mem_filter hrow)
  stored := htable.stored

theorem tableKept_update (htable : TableKept registry state) (process : Process) {pk : ℕ}
    {value : Cipher} (hallowed : Allowed registry state (.update pk value))
    (hrequired : Required registry state (.update pk value)) :
    TableKept registry (execute process state (.update pk value)).2 := by
  obtain ⟨plain, rfl, hvalid⟩ := hrequired
  have hlater : Later registry state
      (execute process state (.update pk (encryptField (some pk) plain))).2 := later_update ..
  constructor
  case pks =>
    have hpks : (state.rows.map (Row.save pk (encryptField (some pk) plain))).map Row.pk =
        state.rows.map Row.pk := by
      rw [List.map_map]
      refine List.map_congr_left fun row _ => ?_
      rw [Function.comp_apply, Row.save]
      split <;> rfl
    rw [execute, hpks]
    exact htable.pks
  case fresh =>
    intro row hrow
    obtain ⟨old, hold, rfl⟩ := List.mem_map.mp hrow
    rw [Row.save]
    split <;> exact htable.fresh old hold
  case rows =>
    intro row hrow
    obtain ⟨old, hold, rfl⟩ := List.mem_map.mp hrow
    by_cases hpk : old.pk = pk
    · rw [Row.save, if_pos hpk]
      refine ⟨plain, by rw [hpk], .inr ?_⟩
      rw [execute]
      dsimp only
      rw [if_pos ⟨old, hold, hpk, rfl⟩, plain_encryptField]
      exact List.mem_cons_self
    · rw [Row.save, if_neg hpk]
      obtain ⟨text, hvalue, htext⟩ := htable.rows old hold
      exact ⟨text, hvalue, htext.imp id fun hstored => hlater.stored old.key hstored⟩
  case stored =>
    intro name text htext
    rw [execute] at htext
    dsimp only at htext
    split at htext
    · next hwritten =>
      rw [plain_encryptField] at htext
      rcases List.mem_cons.mp htext with rfl | hold
      · obtain ⟨row, hrow, hpk, rfl⟩ := hwritten
        exact ⟨plain_of_allowed hallowed, hvalid row hrow hpk⟩
      · exact htable.stored name text hold
    · exact htable.stored name text htext

/-! ## All operations -/

omit [DecidableEq Process] in
theorem read_safe (hblank : registry.Blank) {begun : ℕ} {outcome : Except Error String}
    (hrequired : Required registry state (.report name begun outcome)) :
    Read.Safe registry ⟨name, begun, outcome, (state.row? name).map fun row => row.value.plain,
      state.writtenAt name, state.stored name⟩ := by
  obtain ⟨value, rfl, hheld, hasOf⟩ := hrequired
  refine ⟨value, rfl, ?_, fun hquiet => hasOf ?_⟩
  · rcases hheld with rfl | ⟨-, hstored⟩
    · left
      rw [Registry.default?, hblank.fieldDefault, Option.bind_some, hblank.blank]
    · exact .inr hstored
  · dsimp only at hquiet
    omega

theorem execute_kept (hblank : registry.Blank) (process : Process) {op : Op Name}
    (hinvariant : Invariant registry state) (hallowed : Allowed registry state op)
    (hrequired : Required registry state op) :
    Invariant registry (execute process state op).2 ∧
      Later registry state (execute process state op).2 := by
  have hkept : Invariant registry state ∧ Later registry state state :=
    ⟨hinvariant, Later.refl state⟩
  cases op with
  | time => exact hkept
  | localPreloadExpires => exact hkept
  | preloaded => exact hkept
  | getValue other => exact hkept
  | getId other decrypting => exact hkept
  | rows names => exact hkept
  | first other decrypting => exact hkept
  | remembered other => exact hkept
  | setLocalPreloadExpires expires =>
    exact hinvariant.remember process _ fun _ _ hentry => .inl hentry
  | setPreloaded expires =>
    exact hinvariant.of_sameTable ⟨le_rfl, rfl, rfl, rfl, rfl⟩ (fun _ _ hentry => .inl hentry)
      (fun _ _ _ hentry => .inl hentry) fun _ hread => .inl hread
  | setValue other value =>
    have hsame : SameTable state (execute process state (.setValue other value)).2 :=
      ⟨le_rfl, rfl, rfl, rfl, rfl⟩
    refine hinvariant.of_sameTable hsame ?_ (fun _ _ _ hentry => .inl hentry)
      fun _ hread => .inl hread
    intro name entry hentry
    refine (update_eq_some hentry).imp id ?_
    rintro ⟨rfl, hnew⟩
    obtain rfl := Option.some.inj hnew
    exact (cached_setValue hallowed hrequired).later hsame.later
  | deleteValue other =>
    refine hinvariant.of_sameTable ⟨le_rfl, rfl, rfl, rfl, rfl⟩ ?_
      (fun _ _ _ hentry => .inl hentry) fun _ hread => .inl hread
    intro name entry hentry
    exact .inl ((update_eq_some hentry).resolve_right fun hnone =>
      Option.some_ne_none entry hnone.2.symm)
  | setId other id =>
    exact hinvariant.of_sameTable ⟨le_rfl, rfl, rfl, rfl, rfl⟩ (fun _ _ hentry => .inl hentry)
      (fun _ _ _ hentry => .inl hentry) fun _ hread => .inl hread
  | insert other =>
    have hlater : Later registry state (execute process state (.insert other)).2 :=
      later_insert state process other
    exact ⟨hinvariant.of_later hlater (tableKept_insert hinvariant.table process other)
      (fun _ _ hentry => .inl hentry) (fun _ _ _ hentry => .inl hentry)
      fun _ hread => .inl hread, hlater⟩
  | update pk value =>
    have hlater : Later registry state (execute process state (.update pk value)).2 :=
      later_update state process pk value
    exact ⟨hinvariant.of_later hlater
      (tableKept_update hinvariant.table process hallowed hrequired)
      (fun _ _ hentry => .inl hentry) (fun _ _ _ hentry => .inl hentry)
      fun _ hread => .inl hread, hlater⟩
  | delete pk =>
    have hlater : Later registry state (execute process state (.delete pk)).2 :=
      later_delete state process pk
    exact ⟨hinvariant.of_later hlater (tableKept_delete hinvariant.table process pk)
      (fun _ _ hentry => .inl hentry) (fun _ _ _ hentry => .inl hentry)
      fun _ hread => .inl hread, hlater⟩
  | remember other outcome =>
    refine hinvariant.remember process _ fun name entry hentry => ?_
    refine (update_eq_some hentry).imp id ?_
    rintro ⟨rfl, hnew⟩
    obtain rfl := Option.some.inj hnew
    exact remembered_remember hallowed hrequired
  | forgetAll =>
    exact hinvariant.remember process _ fun _ entry hentry =>
      absurd hentry.symm (Option.some_ne_none entry)
  | report other begun outcome =>
    refine hinvariant.of_sameTable ⟨le_rfl, rfl, rfl, rfl, rfl⟩ (fun _ _ hentry => .inl hentry)
      (fun _ _ _ hentry => .inl hentry) fun read hread => ?_
    rcases List.mem_cons.mp hread with rfl | hold
    · exact .inr (read_safe hblank hrequired)
    · exact .inl hold

theorem disturb_kept (change : Change Name Process) (hinvariant : Invariant registry state) :
    Invariant registry (disturb change state) ∧ Later registry state (disturb change state) := by
  cases change with
  | tick =>
    exact hinvariant.of_sameTable ⟨Nat.le_succ _, rfl, rfl, rfl, rfl⟩
      (fun _ _ hentry => .inl hentry) (fun _ _ _ hentry => .inl hentry) fun _ hread => .inl hread
  | dropValue other =>
    refine hinvariant.of_sameTable ⟨le_rfl, rfl, rfl, rfl, rfl⟩ ?_
      (fun _ _ _ hentry => .inl hentry) fun _ hread => .inl hread
    intro name entry hentry
    exact .inl ((update_eq_some hentry).resolve_right fun hnone =>
      Option.some_ne_none entry hnone.2.symm)
  | dropId other =>
    exact hinvariant.of_sameTable ⟨le_rfl, rfl, rfl, rfl, rfl⟩ (fun _ _ hentry => .inl hentry)
      (fun _ _ _ hentry => .inl hentry) fun _ hread => .inl hread
  | dropPreloaded =>
    exact hinvariant.of_sameTable ⟨le_rfl, rfl, rfl, rfl, rfl⟩ (fun _ _ hentry => .inl hentry)
      (fun _ _ _ hentry => .inl hentry) fun _ hread => .inl hread
  | forget process other =>
    refine hinvariant.remember process _ fun name entry hentry => ?_
    exact .inl ((update_eq_some hentry).resolve_right fun hnone =>
      Option.some_ne_none entry hnone.2.symm)

def contract (Process : Type) (registry : Registry Name) :
    Prog.Contract (State Name Process) (Op Name) where
  invariant := Invariant registry
  later := Later registry
  allowed := Allowed registry
  required := Required registry

theorem contract_sound (hblank : registry.Blank) (process : Process) :
    (contract Process registry).Sound (execute process) where
  refl := Later.refl
  trans := Later.trans
  execute := execute_kept hblank process

end Forail.EncryptedSettings

import Forail.Inventory.ImportedRows

/-!
# The rows of a second import

After an import every imported host has a row with its name and its instance id.  When no
other row has the id of an imported host, a second import finds the same rows again.
-/

namespace Forail.InventoryImport

open Forail.Json Forail.Batches

variable {env : Surroundings} {options : Options} {mem : MemInventory}
  {db before grouped hosted after : Inventory} {found : List (ℕ × String)}
  {pk : ℕ} {name id : String}

/-! ## Instance ids -/

section

variable (env : Surroundings) (options : Options) (mem : MemInventory)

def DistinctIds : Prop :=
  ∀ host ∈ mem.hosts, ∀ host' ∈ mem.hosts, getInstanceId env options host.vars ≠ "" →
    getInstanceId env options host.vars = getInstanceId env options host'.vars → host = host'

def HasId (id : String) : Prop :=
  id ≠ "" ∧ ∃ host ∈ mem.hosts, getInstanceId env options host.vars = id

/-- No row has an imported instance id or name but the row that was found, and instance ids
are read from other variables than the description. -/
structure Clear (before : Inventory) (found : List (ℕ × String)) : Prop where
  others : ∀ row ∈ before.hosts, Remains options before found row.pk →
    found.lookup row.pk = none → row.name ∉ mem.hosts.map MemHost.name ∧
      ¬ HasId env options mem row.instanceId ∧
      ¬ HasId env options mem (getInstanceId env options row.vars)
  updated : ∀ row ∈ before.hosts, ∀ host ∈ mem.hosts, found.lookup row.pk = some host.name →
    getInstanceId env options host.vars = "" →
      ¬ HasId env options mem (getInstanceId env options (updateHost env options row host).vars)
  created : ∀ host ∈ mem.hosts, host.name ∉ found.map Prod.snd →
    getInstanceId env options host.vars = "" →
      ¬ HasId env options mem (getInstanceId env options
        (withoutRemoteVars options (host.vars.erase descriptionVar)))
  ids : ∀ host ∈ mem.hosts, host.name ∉ found.map Prod.snd →
    getInstanceId env options (host.vars.erase descriptionVar) =
      getInstanceId env options host.vars

end

theorem mem_memInstanceIds_hasId {memGroup : MemGroup}
    (hid : id ∈ memInstanceIds mem env options memGroup) : HasId env options mem id := by
  obtain ⟨hne, name, -, host, hhost, hsame⟩ := mem_memInstanceIds.mp hid
  exact ⟨hne, host, (MemInventory.mem_of_host hhost).1, hsame⟩

/-! ## Ids in the variables of rows -/

/-- Rows by the instance ids in their variables, which have no instance id of their own. -/
def FromVariables (env : Surroundings) (options : Options) (db : Inventory)
    (map : AList fun _ : String => ℕ) : Prop :=
  ∀ id pk, map.lookup id = some pk → id ≠ "" ∧ ∃ row ∈ db.hosts, row.pk = pk ∧
    row.instanceId = "" ∧ getInstanceId env options row.vars = id

theorem fromVariables_foldl {hosts : List Host} {map : AList fun _ : String => ℕ}
    (hmap : FromVariables env options db map)
    (hhosts : ∀ host ∈ hosts, host ∈ db.hosts ∧ host.instanceId = "") :
    FromVariables env options db (hosts.foldl (fun map host =>
      if getInstanceId env options host.vars = "" then map
      else map.insert (getInstanceId env options host.vars) host.pk) map) := by
  induction hosts generalizing map with
  | nil => exact hmap
  | cons host hosts ih =>
    obtain ⟨hmem, hnone⟩ := hhosts host List.mem_cons_self
    apply ih _ fun other hother => hhosts other (List.mem_cons_of_mem _ hother)
    dsimp only
    split
    · exact hmap
    · next hid =>
      intro id pk hlookup
      by_cases hsame : id = getInstanceId env options host.vars
      · subst hsame
        obtain rfl := Option.some.inj ((AList.lookup_insert _).symm.trans hlookup)
        exact ⟨hid, host, hmem, rfl, hnone, rfl⟩
      · exact hmap id pk ((AList.lookup_insert_ne hsame).symm.trans hlookup)

theorem fromVariables_dbInstanceIdMap :
    FromVariables env options db (dbInstanceIdMap env options db) := by
  have hfold : ∀ (paths : List VarPath) (start : List Host × AList fun _ : String => ℕ),
      (∀ host ∈ start.1, host ∈ db.hosts) → FromVariables env options db start.2 →
        FromVariables env options db (paths.foldl (searchVariable env options) start).2 := by
    intro paths
    induction paths with
    | nil => exact fun _ _ hmap => hmap
    | cons path paths ih =>
      intro start hstart hmap
      apply ih
      · exact fun host hhost => hstart host (List.mem_of_mem_filter hhost)
      · apply fromVariables_foldl hmap
        intro host hhost
        obtain ⟨hmem, hkept⟩ := List.mem_filter.mp ((perm_hostsInOrder env _).mem_iff.mp hhost)
        exact ⟨hstart host hmem, of_decide_eq_true (Bool.and_eq_true_iff.mp hkept).1⟩
  apply hfold
  · exact fun host hhost => List.mem_of_mem_filter hhost
  · exact fun _ _ hnone => absurd hnone.symm (Option.some_ne_none _)

theorem host_of_instanceIdMaps :
    (∀ pk name, (instanceIdMaps env options mem db).1.lookup pk = some name →
      ∃ host ∈ mem.hosts, host.name = name ∧ (dbInstanceIdMap env options db).lookup
        (getInstanceId env options host.vars) = some pk) ∧
    ∀ id name, (instanceIdMaps env options mem db).2.lookup id = some name →
      id ≠ "" ∧ (dbInstanceIdMap env options db).lookup id = none ∧
        ∃ host ∈ mem.hosts, host.name = name ∧ getInstanceId env options host.vars = id := by
  rw [instanceIdMaps]
  induction mem.hosts using List.reverseRecOn with
  | nil => exact ⟨fun _ _ hnone => absurd hnone.symm (Option.some_ne_none _),
      fun _ _ hnone => absurd hnone.symm (Option.some_ne_none _)⟩
  | append_singleton hosts host ih =>
    have hlast : host ∈ hosts ++ [host] := List.mem_append_right _ List.mem_cons_self
    have hfirst : ∀ pk name, _ → ∃ other ∈ hosts ++ [host], other.name = name ∧
        (dbInstanceIdMap env options db).lookup (getInstanceId env options other.vars) =
          some pk := fun pk name hlookup =>
      (ih.1 pk name hlookup).imp fun _ hother => ⟨List.mem_append_left _ hother.1, hother.2⟩
    have hsecond : ∀ id name, _ → id ≠ "" ∧ (dbInstanceIdMap env options db).lookup id = none ∧
        ∃ other ∈ hosts ++ [host], other.name = name ∧
          getInstanceId env options other.vars = id := fun id name hlookup =>
      ⟨(ih.2 id name hlookup).1, (ih.2 id name hlookup).2.1, (ih.2 id name hlookup).2.2.imp
        fun _ hother => ⟨List.mem_append_left _ hother.1, hother.2⟩⟩
    rw [List.foldl_append, List.foldl_cons, List.foldl_nil]
    dsimp only
    split
    · next pk hpk =>
      refine ⟨fun key name hlookup => ?_, hsecond⟩
      by_cases hkey : key = pk
      · subst hkey
        exact ⟨host, hlast, Option.some.inj ((AList.lookup_insert _).symm.trans hlookup), hpk⟩
      · exact hfirst key name ((AList.lookup_insert_ne hkey).symm.trans hlookup)
    · next hunknown =>
      split
      · exact ⟨hfirst, hsecond⟩
      · next hid =>
        refine ⟨hfirst, fun key name hlookup => ?_⟩
        by_cases hkey : key = getInstanceId env options host.vars
        · subst hkey
          exact ⟨hid, hunknown, host, hlast,
            Option.some.inj ((AList.lookup_insert _).symm.trans hlookup), rfl⟩
        · exact hsecond key name ((AList.lookup_insert_ne hkey).symm.trans hlookup)

/-! ## Rows after an import -/

/-- The rows after an import that took no row over by its name. -/
inductive RowAfter (env : Surroundings) (options : Options) (mem : MemInventory)
    (before : Inventory) (found : List (ℕ × String)) : Host → Prop where
  | updated {row : Host} {host : MemHost} (hrow : row ∈ before.hosts)
      (hfound : found.lookup row.pk = some host.name) (hhost : host ∈ mem.hosts) :
      RowAfter env options mem before found (updateHost env options row host)
  | created {pk : ℕ} {host : MemHost} {description : String} (hhost : host ∈ mem.hosts)
      (hnew : host.name ∉ found.map Prod.snd) :
      RowAfter env options mem before found (createdHost env options pk host description)
  | other {row : Host} (hrow : row ∈ before.hosts) (hremains : Remains options before found row.pk)
      (hfound : found.lookup row.pk = none) : RowAfter env options mem before found row

theorem Loaded.rowAfter (hloaded : Loaded env options mem before grouped hosted after)
    (hclear : Clear env options mem before (pkMemHostMap env options mem before)) {row : Host}
    (hrow : row ∈ after.hosts) :
    RowAfter env options mem before (pkMemHostMap env options mem before) row := by
  rw [hloaded.hosts_eq] at hrow
  cases hloaded.hosts.origin row hrow with
  | @updated old _ hold hfound hhost =>
    exact .updated (hloaded.mem_hosts_grouped.mp hold).1 hfound hhost
  | kept hold hfound _ =>
    obtain ⟨hmem, hremains⟩ := hloaded.mem_hosts_grouped.mp hold
    exact .other hmem hremains hfound
  | @recreated old _ _ hold hfound hname hhost _ _ =>
    obtain ⟨hmem, hremains⟩ := hloaded.mem_hosts_grouped.mp hold
    exact absurd (hname ▸ List.mem_map_of_mem hhost)
      (hclear.others old hmem hremains hfound).1
  | created _ hhost hnew _ _ => exact .created hhost hnew

theorem RowAfter.instanceId_eq (hclear : Clear env options mem before found) {row : Host}
    (hafter : RowAfter env options mem before found row) {host : MemHost}
    (hhost : host ∈ mem.hosts) (hname : row.name = host.name) :
    row.instanceId = getInstanceId env options host.vars := by
  cases hafter with
  | updated _ _ hother =>
    obtain rfl := List.inj_on_of_nodup_map mem.hostNames hother hhost hname
    rfl
  | created hother hnew =>
    obtain rfl := List.inj_on_of_nodup_map mem.hostNames hother hhost hname
    exact hclear.ids _ hother hnew
  | other hrow hremains hfound =>
    exact absurd (hname ▸ List.mem_map_of_mem hhost) (hclear.others row hrow hremains hfound).1

theorem RowAfter.not_hasId (hclear : Clear env options mem before found) {row : Host}
    (hafter : RowAfter env options mem before found row) (hnone : row.instanceId = "") :
    ¬ HasId env options mem (getInstanceId env options row.vars) := by
  cases hafter with
  | updated hrow hfound hhost => exact hclear.updated _ hrow _ hhost hfound hnone
  | created hhost hnew =>
    exact hclear.created _ hhost hnew ((hclear.ids _ hhost hnew).symm.trans hnone)
  | other hrow hremains hfound => exact (hclear.others row hrow hremains hfound).2.2

theorem Loaded.not_hasId_of_lookup (hloaded : Loaded env options mem before grouped hosted after)
    (hclear : Clear env options mem before (pkMemHostMap env options mem before))
    (hlookup : (dbInstanceIdMap env options after).lookup id = some pk) :
    ¬ HasId env options mem id := by
  obtain ⟨-, row, hrow, -, hnone, rfl⟩ := fromVariables_dbInstanceIdMap id pk hlookup
  exact (hloaded.rowAfter hclear hrow).not_hasId hclear hnone

theorem Loaded.candidateOf_after (hloaded : Loaded env options mem before grouped hosted after)
    (hdistinct : DistinctIds env options mem)
    (hclear : Clear env options mem before (pkMemHostMap env options mem before)) {row : Host}
    (hrow : row ∈ after.hosts) :
    candidateOf env options mem after row.pk =
      if row.name ∈ mem.hosts.map MemHost.name then some row.name else none := by
  have hafter := hloaded.rowAfter hclear hrow
  have hfirst : (instanceIdMaps env options mem after).1.lookup row.pk = none := by
    cases hlookup : (instanceIdMaps env options mem after).1.lookup row.pk with
    | none => rfl
    | some name =>
      obtain ⟨host, hhost, -, hid⟩ := host_of_instanceIdMaps.1 _ _ hlookup
      have hne := (fromVariables_dbInstanceIdMap _ _ hid).1
      exact absurd ⟨hne, host, hhost, rfl⟩ (hloaded.not_hasId_of_lookup hclear hid)
  rw [candidateOf_eq hloaded.keyed.hostKeys hrow, hfirst, Option.none_or]
  cases hlookup : (instanceIdMaps env options mem after).2.lookup row.instanceId with
  | none => rw [Option.none_or]
  | some name =>
    obtain ⟨hne, -, other, hother, rfl, hid⟩ := host_of_instanceIdMaps.2 _ _ hlookup
    have himported : ∀ host ∈ mem.hosts, row.name = host.name →
        some other.name = if row.name ∈ mem.hosts.map MemHost.name then some row.name
          else none := by
      intro host hhost hname
      have hsame := hafter.instanceId_eq hclear hhost hname
      rw [← hid] at hsame hne
      obtain rfl := hdistinct other hother host hhost hne hsame
      rw [hname, if_pos (List.mem_map_of_mem hhost)]
    rw [Option.some_or]
    cases hafter with
    | @updated _ host _ _ hhost => exact himported host hhost rfl
    | @created _ host _ hhost _ => exact himported host hhost rfl
    | other hold hremains hfound =>
      exact absurd ⟨hne, other, hother, hid⟩ (hclear.others row hold hremains hfound).2.1

theorem Loaded.lookup_second (hloaded : Loaded env options mem before grouped hosted after)
    (hdistinct : DistinctIds env options mem)
    (hclear : Clear env options mem before (pkMemHostMap env options mem before)) {row : Host}
    (hrow : row ∈ after.hosts) :
    (pkMemHostMap env options mem after).lookup row.pk =
      if row.name ∈ mem.hosts.map MemHost.name then some row.name else none := by
  have hmatching : Matching mem after (pkMemHostMap env options mem after) :=
    matching_pkMemHostMap
  have hcandidate := fun {row : Host} (hrow : row ∈ after.hosts) =>
    hloaded.candidateOf_after hdistinct hclear hrow
  split
  · next himported =>
    rw [lookup_eq_some_iff hmatching.keys]
    apply mem_pkMemHostMap_of_unique ((hcandidate hrow).trans (if_pos himported))
    intro pk hpk
    obtain ⟨other, hother, rfl⟩ := List.mem_map.mp (mem_candidates (mem_of_lookup hpk)).1
    rw [hcandidate hother] at hpk
    obtain ⟨-, hname⟩ := Option.ite_none_right_eq_some.mp hpk
    rw [List.inj_on_of_nodup_map hloaded.keyed.hostNames hother hrow (Option.some.inj hname)]
  · next hother =>
    cases hlookup : (pkMemHostMap env options mem after).lookup row.pk with
    | none => rfl
    | some name =>
      have hmem := candidateOf_of_mem ((lookup_eq_some_iff hmatching.keys).mp hlookup)
      rw [hcandidate hrow, if_neg hother] at hmem
      exact hmem.symm

end Forail.InventoryImport

import Forail.Inventory.SecondMatching

/-!
# Renamed hosts

A host that was renamed at its source is found again by its instance id.  The search by
name comes last, and the row with the new name of the host, when it is not found by an id
itself, takes the place of the row with the id.
-/

namespace Forail.InventoryImport

open Forail.Json Forail.Batches

section

variable (env : Surroundings) (options : Options) (mem : MemInventory) (db : Inventory)

/-- A row carries its instance id, or without one the id in its variables. -/
def Carries (row : Host) (id : String) : Prop :=
  row.instanceId = id ∨ row.instanceId = "" ∧ getInstanceId env options row.vars = id

/-- The rows are related to imported hosts one to one, an imported host with the id of a
row to a row with this id, and an overwrite keeps the row that is alone in carrying an
imported id. -/
structure HostsMatched : Prop where
  matching : Matching mem db (pkMemHostMap env options mem db)
  byId : ∀ host ∈ mem.hosts, getInstanceId env options host.vars ≠ "" →
    (∃ row ∈ db.hosts, Carries env options row (getInstanceId env options host.vars)) →
    ∃ row ∈ db.hosts, Carries env options row (getInstanceId env options host.vars) ∧
      (row.pk, host.name) ∈ pkMemHostMap env options mem db
  kept : ∀ host ∈ mem.hosts, getInstanceId env options host.vars ≠ "" → ∀ row ∈ db.hosts,
    Carries env options row (getInstanceId env options host.vars) →
    (∀ other ∈ db.hosts, Carries env options other (getInstanceId env options host.vars) →
      other = row) →
    row ∈ (deleteHosts db (pkMemHostMap env options mem db)).hosts

/-- A row that the id of an imported host leads to: it is known by its variables, or else
has the id stored. -/
def FoundById (row : Host) : Prop :=
  ∃ host ∈ mem.hosts,
    (dbInstanceIdMap env options db).lookup (getInstanceId env options host.vars) = some row.pk ∨
      (dbInstanceIdMap env options db).lookup (getInstanceId env options host.vars) = none ∧
        getInstanceId env options host.vars ≠ "" ∧
        row.instanceId = getInstanceId env options host.vars

def Known (id : String) : Prop :=
  (dbInstanceIdMap env options db).lookup id ≠ none ∨ ∃ row ∈ db.hosts, row.instanceId = id

/-- Where a row carries the id of an imported host, a row with the name of the host carries
this id as well or is found by another one, and when no row is left for the name the id is
known. -/
def NamesGiveWay : Prop :=
  ∀ host ∈ mem.hosts, getInstanceId env options host.vars ≠ "" →
    (∃ row ∈ db.hosts, Carries env options row (getInstanceId env options host.vars)) →
    (∀ row ∈ db.hosts, row.name = host.name → ¬ FoundById env options mem db row →
      Carries env options row (getInstanceId env options host.vars)) ∧
    ((∃ row ∈ db.hosts, row.name = host.name ∧ ¬ FoundById env options mem db row) ∨
      Known env options db (getInstanceId env options host.vars))

end

variable {env : Surroundings} {options : Options} {mem : MemInventory} {db : Inventory}
  {pk : ℕ} {name : String} {found : (AList fun _ : String => ℕ) × List ℕ}
  {entries : List (ℕ × String)}

/-! ## Candidates one after the other -/

theorem lookup_foldl_of_seen
    (hseen : ∀ entry ∈ entries, entry.2 = name → entry.1 ∈ found.2) :
    (entries.foldl takeCandidate found).1.lookup name = found.1.lookup name := by
  induction entries generalizing found with
  | nil => rfl
  | cons entry entries ih =>
    have hrest : ∀ other ∈ entries, other.2 = name → other.1 ∈ found.2 :=
      fun other hother => hseen other (List.mem_cons_of_mem entry hother)
    rw [List.foldl_cons, takeCandidate]
    split
    · exact ih hrest
    next hnew =>
      have hne : name ≠ entry.2 :=
        fun hname => hnew (hseen entry List.mem_cons_self hname.symm)
      rw [ih fun other hother hname => List.mem_cons_of_mem _ (hrest other hother hname)]
      exact AList.lookup_insert_ne hne

theorem lookup_foldl_of_new (hkeys : (entries.map Prod.fst).Nodup)
    (hmem : (pk, name) ∈ entries) (hnew : pk ∉ found.2)
    (hsole : ∀ entry ∈ entries, entry.2 = name → entry.1 = pk) :
    (entries.foldl takeCandidate found).1.lookup name = some pk := by
  induction entries generalizing found with
  | nil => exact absurd hmem List.not_mem_nil
  | cons entry entries ih =>
    obtain ⟨hfresh, hkeys⟩ := List.nodup_cons.mp hkeys
    rw [List.foldl_cons, takeCandidate]
    rcases List.mem_cons.mp hmem with rfl | hmem
    · rw [if_neg hnew, lookup_foldl_of_seen]
      · exact AList.lookup_insert _
      · intro other hother hname
        rw [hsole other (List.mem_cons_of_mem _ hother) hname]
        exact List.mem_cons_self
    · have hne : entry.1 ≠ pk := by
        rintro rfl
        exact hfresh (List.mem_map.mpr ⟨_, hmem, rfl⟩)
      have hrest : ∀ other ∈ entries, other.2 = name → other.1 = pk :=
        fun other hother => hsole other (List.mem_cons_of_mem entry hother)
      split
      · exact ih hkeys hmem hnew hrest
      · exact ih hkeys hmem (fun hseen => (List.mem_cons.mp hseen).elim
          (fun hpk => hne hpk.symm) hnew) hrest

theorem isSome_foldl (hsome : (found.1.lookup name).isSome) :
    ((entries.foldl takeCandidate found).1.lookup name).isSome := by
  induction entries generalizing found with
  | nil => exact hsome
  | cons entry entries ih =>
    rw [List.foldl_cons, takeCandidate]
    split
    · exact ih hsome
    · apply ih
      by_cases hname : name = entry.2
      · rw [hname, AList.lookup_insert]
        rfl
      · rw [AList.lookup_insert_ne hname]
        exact hsome

theorem isSome_foldl_of_lookup (hlookup : entries.lookup pk = some name)
    (hnew : pk ∉ found.2) : ((entries.foldl takeCandidate found).1.lookup name).isSome := by
  induction entries generalizing found with
  | nil => exact absurd hlookup.symm (Option.some_ne_none _)
  | cons entry entries ih =>
    obtain ⟨key, value⟩ := entry
    rw [List.lookup_cons] at hlookup
    rw [List.foldl_cons, takeCandidate]
    by_cases hkey : pk = key
    · subst hkey
      rw [beq_self_eq_true] at hlookup
      obtain rfl := Option.some.inj hlookup
      rw [if_neg hnew]
      apply isSome_foldl
      rw [AList.lookup_insert]
      rfl
    · rw [beq_false_of_ne hkey] at hlookup
      split
      · exact ih hlookup hnew
      · exact ih hlookup fun hseen => (List.mem_cons.mp hseen).elim hkey hnew

/-! ## Candidates by id -/

section

variable (env : Surroundings) (options : Options) (mem : MemInventory) (db : Inventory)

def idCandidates : List (ℕ × String) :=
  let maps := instanceIdMaps env options mem db
  (select (hostsInOrder env) Host.pk (sortedKeys maps.1.keys) db.hosts).map
      (fun host => (host.pk, (maps.1.lookup host.pk).getD "")) ++
    (select (hostsInOrder env) Host.instanceId (sortedNames maps.2.keys) db.hosts).map
      fun host => (host.pk, (maps.2.lookup host.instanceId).getD "")

def namedRows : List Host :=
  select (hostsInOrder env) Host.name (sortedNames (mem.hosts.map MemHost.name)) db.hosts

def matchedById : (AList fun _ : String => ℕ) × List ℕ :=
  (idCandidates env options mem db).foldl takeCandidate (∅, [])

end

theorem candidates_eq : candidates env options mem db =
    idCandidates env options mem db ++
      (namedRows env mem db).map fun host => (host.pk, host.name) := rfl

theorem lookup_idCandidates (hkeys : (db.hosts.map Host.pk).Nodup) {row : Host}
    (hrow : row ∈ db.hosts) :
    (idCandidates env options mem db).lookup row.pk =
      ((instanceIdMaps env options mem db).1.lookup row.pk).or
        ((instanceIdMaps env options mem db).2.lookup row.instanceId) := by
  rw [idCandidates, lookup_append, lookup_select_map hkeys hrow Host.pk _ fun _ => mem_sortedKeys,
    lookup_select_map hkeys hrow Host.instanceId _ fun _ => mem_sortedNames]

theorem isSome_lookup_insert {Key : Type} [DecidableEq Key] {map : AList fun _ : Key => String}
    {key other : Key} {value : String} (hsome : (map.lookup key).isSome ∨ key = other) :
    ((map.insert other value).lookup key).isSome := by
  by_cases hkey : key = other
  · rw [hkey, AList.lookup_insert]
    rfl
  · rw [AList.lookup_insert_ne hkey]
    exact hsome.resolve_right hkey

theorem isSome_instanceIdMaps {host : MemHost} (hhost : host ∈ mem.hosts) :
    (∀ pk, (dbInstanceIdMap env options db).lookup (getInstanceId env options host.vars) =
        some pk → ((instanceIdMaps env options mem db).1.lookup pk).isSome) ∧
      ((dbInstanceIdMap env options db).lookup (getInstanceId env options host.vars) = none →
        getInstanceId env options host.vars ≠ "" →
        ((instanceIdMaps env options mem db).2.lookup
          (getInstanceId env options host.vars)).isSome) := by
  rw [instanceIdMaps]
  revert hhost
  generalize mem.hosts = hosts
  intro hhost
  induction hosts using List.reverseRecOn with
  | nil => exact absurd hhost List.not_mem_nil
  | append_singleton hosts last ih =>
    rw [List.foldl_append, List.foldl_cons, List.foldl_nil]
    rcases List.mem_append.mp hhost with hearlier | hlast
    · obtain ⟨hfirst, hsecond⟩ := ih hearlier
      dsimp only
      split
      · exact ⟨fun pk hpk => isSome_lookup_insert (.inl (hfirst pk hpk)), hsecond⟩
      · split
        · exact ⟨hfirst, hsecond⟩
        · exact ⟨hfirst, fun hnone hid => isSome_lookup_insert (.inl (hsecond hnone hid))⟩
    · obtain rfl := List.mem_singleton.mp hlast
      dsimp only
      split
      · next key hkey =>
        refine ⟨fun pk hpk => ?_, fun hnone => absurd (hkey.symm.trans hnone) (by simp)⟩
        exact isSome_lookup_insert (.inr (Option.some.inj (hpk.symm.trans hkey)))
      · next hnone =>
        refine ⟨fun pk hpk => absurd (hpk.symm.trans hnone) (by simp), fun _ hid => ?_⟩
        rw [if_neg hid]
        exact isSome_lookup_insert (.inr rfl)

theorem of_lookup_idCandidates (hkeys : (db.hosts.map Host.pk).Nodup) {row : Host}
    (hrow : row ∈ db.hosts) (hlookup : (idCandidates env options mem db).lookup row.pk = some name) :
    ∃ host ∈ mem.hosts, host.name = name ∧
      Carries env options row (getInstanceId env options host.vars) ∧
      Known env options db (getInstanceId env options host.vars) := by
  rw [lookup_idCandidates hkeys hrow, Option.or_eq_some_iff] at hlookup
  rcases hlookup with hlookup | ⟨-, hlookup⟩
  · obtain ⟨host, hhost, hname, hid⟩ := host_of_instanceIdMaps.1 _ _ hlookup
    obtain ⟨-, other, hother, hpk, hstored, hvars⟩ := fromVariables_dbInstanceIdMap _ _ hid
    obtain rfl := List.inj_on_of_nodup_map hkeys hother hrow hpk
    exact ⟨host, hhost, hname, .inr ⟨hstored, hvars⟩,
      .inl (hid ▸ Option.some_ne_none _)⟩
  · obtain ⟨-, -, host, hhost, hname, hid⟩ := host_of_instanceIdMaps.2 _ _ hlookup
    exact ⟨host, hhost, hname, .inl hid.symm, .inr ⟨row, hrow, hid.symm⟩⟩

theorem lookup_idCandidates_of_known (hwellFormed : db.WellFormed)
    (hids : DistinctIds env options mem) {host : MemHost} (hhost : host ∈ mem.hosts)
    (hid : getInstanceId env options host.vars ≠ "")
    (hknown : Known env options db (getInstanceId env options host.vars)) :
    ∃ row ∈ db.hosts, (idCandidates env options mem db).lookup row.pk = some host.name := by
  have hkeys := hwellFormed.hostKeys
  -- the host that an entry was made for is the one with the same id
  have hsame (other : MemHost) (hother : other ∈ mem.hosts)
      (heq : getInstanceId env options other.vars = getInstanceId env options host.vars) :
      other = host := (hids host hhost other hother hid heq.symm).symm
  cases hvars : (dbInstanceIdMap env options db).lookup (getInstanceId env options host.vars) with
  | some pk =>
    obtain ⟨-, row, hrow, rfl, -, hrowId⟩ := fromVariables_dbInstanceIdMap _ _ hvars
    refine ⟨row, hrow, ?_⟩
    obtain ⟨name, hname⟩ := Option.isSome_iff_exists.mp
      ((isSome_instanceIdMaps hhost).1 row.pk hvars)
    obtain ⟨other, hother, rfl, hotherId⟩ := host_of_instanceIdMaps.1 _ _ hname
    obtain ⟨-, row', hrow', hpk, -, hrowId'⟩ := fromVariables_dbInstanceIdMap _ _ hotherId
    obtain rfl := List.inj_on_of_nodup_map hkeys hrow' hrow hpk
    rw [lookup_idCandidates hkeys hrow, hname, Option.some_or,
      hsame other hother (hrowId'.symm.trans hrowId)]
  | none =>
    obtain ⟨row, hrow, hstored⟩ := hknown.resolve_left (not_not_intro hvars)
    refine ⟨row, hrow, ?_⟩
    have hfirst : (instanceIdMaps env options mem db).1.lookup row.pk = none := by
      by_contra hsome
      obtain ⟨name, hname⟩ := Option.ne_none_iff_exists'.mp hsome
      obtain ⟨other, -, -, hotherId⟩ := host_of_instanceIdMaps.1 _ _ hname
      obtain ⟨-, row', hrow', hpk, hempty, -⟩ := fromVariables_dbInstanceIdMap _ _ hotherId
      obtain rfl := List.inj_on_of_nodup_map hkeys hrow' hrow hpk
      exact hid (hstored.symm.trans hempty)
    obtain ⟨name, hname⟩ := Option.isSome_iff_exists.mp
      ((isSome_instanceIdMaps hhost).2 hvars hid)
    obtain ⟨-, -, other, hother, rfl, hotherId⟩ := host_of_instanceIdMaps.2 _ _ hname
    rw [lookup_idCandidates hkeys hrow, hfirst, Option.none_or, hstored, hname,
      hsame other hother hotherId]

theorem mem_matchedById (hkeys : (db.hosts.map Host.pk).Nodup) {row : Host}
    (hrow : row ∈ db.hosts) :
    row.pk ∈ (matchedById env options mem db).2 ↔ FoundById env options mem db row := by
  rw [matchedById, (found_foldl _).seen, ← not_iff_not, ← lookup_eq_none_iff,
    lookup_idCandidates hkeys hrow, Option.or_eq_none_iff]
  constructor
  · rintro ⟨hfirst, hsecond⟩ ⟨host, hhost, hid | ⟨hnone, hid, hstored⟩⟩
    · exact Option.isSome_iff_ne_none.mp ((isSome_instanceIdMaps hhost).1 _ hid) hfirst
    · rw [hstored] at hsecond
      exact Option.isSome_iff_ne_none.mp ((isSome_instanceIdMaps hhost).2 hnone hid) hsecond
  · intro hnot
    constructor
    · by_contra hsome
      obtain ⟨name, hname⟩ := Option.ne_none_iff_exists'.mp hsome
      obtain ⟨host, hhost, -, hid⟩ := host_of_instanceIdMaps.1 _ _ hname
      exact hnot ⟨host, hhost, .inl hid⟩
    · by_contra hsome
      obtain ⟨name, hname⟩ := Option.ne_none_iff_exists'.mp hsome
      obtain ⟨hne, hnone, host, hhost, -, hid⟩ := host_of_instanceIdMaps.2 _ _ hname
      rw [← hid] at hnone hne
      exact hnot ⟨host, hhost, .inr ⟨hnone, hne, hid.symm⟩⟩

/-! ## The search by name -/

theorem mem_namedRows {row : Host} : row ∈ namedRows env mem db ↔
    row ∈ db.hosts ∧ row.name ∈ mem.hosts.map MemHost.name := by
  rw [namedRows, mem_select (perm_hostsInOrder env), mem_sortedNames]

theorem mem_pkMemHostMap_iff : (pk, name) ∈ pkMemHostMap env options mem db ↔
    (((namedRows env mem db).map fun host => (host.pk, host.name)).foldl takeCandidate
      (matchedById env options mem db)).1.lookup name = some pk := by
  rw [mem_pkMemHostMap, candidates_eq, List.foldl_append]
  rfl

theorem mem_pkMemHostMap_of_name (hwellFormed : db.WellFormed) {host : MemHost}
    (hhost : host ∈ mem.hosts) {row : Host} (hrow : row ∈ db.hosts)
    (hname : row.name = host.name) (hnew : ¬ FoundById env options mem db row) :
    (row.pk, host.name) ∈ pkMemHostMap env options mem db := by
  have hkeys := hwellFormed.hostKeys
  have hnamed : row ∈ namedRows env mem db :=
    mem_namedRows.mpr ⟨hrow, hname ▸ List.mem_map_of_mem hhost⟩
  have hnodup : (namedRows env mem db).Nodup :=
    nodup_select (perm_hostsInOrder env) (nodup_sortedNames.mpr mem.hostNames)
      hwellFormed.hostKeys.of_map
  rw [mem_pkMemHostMap_iff]
  apply lookup_foldl_of_new
  · rw [List.map_map]
    refine (List.nodup_map_iff_inj_on hnodup).mpr fun left hleft right hright hpk => ?_
    exact List.inj_on_of_nodup_map hkeys (mem_namedRows.mp hleft).1 (mem_namedRows.mp hright).1 hpk
  · exact List.mem_map.mpr ⟨row, hnamed, by rw [hname]⟩
  · exact fun hseen => hnew ((mem_matchedById hkeys hrow).mp hseen)
  · intro entry hentry hsame
    obtain ⟨other, hother, rfl⟩ := List.mem_map.mp hentry
    rw [List.inj_on_of_nodup_map hwellFormed.hostNames (mem_namedRows.mp hother).1 hrow
      (hsame.trans hname.symm)]

theorem mem_pkMemHostMap_of_id (hwellFormed : db.WellFormed)
    (htaken : ∀ row ∈ db.hosts, row.name = name → FoundById env options mem db row) :
    (pk, name) ∈ pkMemHostMap env options mem db ↔
      (matchedById env options mem db).1.lookup name = some pk := by
  rw [mem_pkMemHostMap_iff, lookup_foldl_of_seen]
  intro entry hentry hname
  obtain ⟨row, hrow, rfl⟩ := List.mem_map.mp hentry
  have hmem := (mem_namedRows.mp hrow).1
  exact (mem_matchedById hwellFormed.hostKeys hmem).mpr (htaken row hmem hname)

theorem of_lookup_matchedById (hwellFormed : db.WellFormed) {host : MemHost}
    (hhost : host ∈ mem.hosts)
    (hlookup : (matchedById env options mem db).1.lookup host.name = some pk) :
    Known env options db (getInstanceId env options host.vars) ∧ ∃ row ∈ db.hosts, row.pk = pk ∧
      Carries env options row (getInstanceId env options host.vars) := by
  have hcandidate := (found_foldl _).sound _ _ hlookup
  have hmem : (pk, host.name) ∈ candidates env options mem db := by
    rw [candidates_eq]
    exact List.mem_append_left _ (mem_of_lookup hcandidate)
  obtain ⟨row, hrow, rfl⟩ := List.mem_map.mp (mem_candidates hmem).1
  obtain ⟨other, hother, hname, hcarries, hknown⟩ :=
    of_lookup_idCandidates hwellFormed.hostKeys hrow hcandidate
  obtain rfl := List.inj_on_of_nodup_map mem.hostNames hother hhost hname
  exact ⟨hknown, row, hrow, rfl, hcarries⟩

theorem isSome_matchedById (hwellFormed : db.WellFormed) (hids : DistinctIds env options mem)
    {host : MemHost} (hhost : host ∈ mem.hosts) (hid : getInstanceId env options host.vars ≠ "")
    (hknown : Known env options db (getInstanceId env options host.vars)) :
    ((matchedById env options mem db).1.lookup host.name).isSome := by
  obtain ⟨row, -, hlookup⟩ := lookup_idCandidates_of_known hwellFormed hids hhost hid hknown
  exact isSome_foldl_of_lookup hlookup List.not_mem_nil

/-- The hosts are matched as their ids say if and only if names give way to ids. -/
theorem hostsMatched_iff (hwellFormed : db.WellFormed) (hids : DistinctIds env options mem) :
    HostsMatched env options mem db ↔ NamesGiveWay env options mem db := by
  have hmatching : Matching mem db (pkMemHostMap env options mem db) := matching_pkMemHostMap
  constructor
  · intro hmatched host hhost hid hcarried
    obtain ⟨row, hrow, hcarries, hmap⟩ := hmatched.byId host hhost hid hcarried
    constructor
    · intro named hnamed hname hnew
      have hown := mem_pkMemHostMap_of_name hwellFormed hhost hnamed hname hnew
      have hpk : row.pk = named.pk :=
        congrArg Prod.fst (List.inj_on_of_nodup_map hmatching.names hmap hown rfl)
      obtain rfl := List.inj_on_of_nodup_map hwellFormed.hostKeys hrow hnamed hpk
      exact hcarries
    · by_contra hnone
      rw [not_or] at hnone
      have htaken : ∀ row ∈ db.hosts, row.name = host.name → FoundById env options mem db row :=
        fun row hrow hname => not_not.mp fun hnew => hnone.1 ⟨row, hrow, hname, hnew⟩
      rw [mem_pkMemHostMap_of_id hwellFormed htaken] at hmap
      exact hnone.2 (of_lookup_matchedById hwellFormed hhost hmap).1
  · intro hgive
    have hbyId : ∀ host ∈ mem.hosts, getInstanceId env options host.vars ≠ "" →
        (∃ row ∈ db.hosts, Carries env options row (getInstanceId env options host.vars)) →
        ∃ row ∈ db.hosts, Carries env options row (getInstanceId env options host.vars) ∧
          (row.pk, host.name) ∈ pkMemHostMap env options mem db := by
      intro host hhost hid hcarried
      obtain ⟨hnamed, hknown⟩ := hgive host hhost hid hcarried
      by_cases hnew : ∃ row ∈ db.hosts, row.name = host.name ∧ ¬ FoundById env options mem db row
      · obtain ⟨row, hrow, hname, hnew⟩ := hnew
        exact ⟨row, hrow, hnamed row hrow hname hnew,
          mem_pkMemHostMap_of_name hwellFormed hhost hrow hname hnew⟩
      · have htaken : ∀ row ∈ db.hosts, row.name = host.name → FoundById env options mem db row :=
          fun row hrow hname => not_not.mp fun hnot => hnew ⟨row, hrow, hname, hnot⟩
        obtain ⟨pk, hpk⟩ := Option.isSome_iff_exists.mp
          (isSome_matchedById hwellFormed hids hhost hid (hknown.resolve_left hnew))
        obtain ⟨-, row, hrow, rfl, hcarries⟩ := of_lookup_matchedById hwellFormed hhost hpk
        exact ⟨row, hrow, hcarries, (mem_pkMemHostMap_of_id hwellFormed htaken).mpr hpk⟩
    refine ⟨hmatching, hbyId, fun host hhost hid row hrow hcarries halone => ?_⟩
    obtain ⟨other, hother, hotherCarries, hmap⟩ := hbyId host hhost hid ⟨row, hrow, hcarries⟩
    obtain rfl := halone other hother hotherCarries
    refine List.mem_filter.mpr ⟨hrow, ?_⟩
    rw [Bool.or_eq_true]
    exact .inr (decide_eq_true (List.mem_map_of_mem hmap))

/-! ### A renamed host -/

def comparedSurroundings : Surroundings where
  texts := ⟨fun _ => "", fun _ => ""⟩
  lowered := fun _ => ""
  mentions := fun vars key => (vars.lookup key).isSome
  collation := fun left right => left ≤ right

def overwriteById : Options where
  overwrite := true
  overwriteVars := false
  instanceIdVar := [⟨"id", []⟩]
  enabledVar := none
  enabledValue := none
  constructed := false

theorem noChildrenRead : ∀ group ∈ ([] : List MemGroup), ∀ child ∈ group.children,
    child ∈ ([] : List MemGroup).map MemGroup.name :=
  fun _ hmem => absurd hmem List.not_mem_nil

def renamedHost : MemInventory where
  hosts := [⟨"web", AList.singleton "id" (.str "i-1")⟩]
  groups := []
  hostNames := List.nodup_singleton _
  groupNames := List.nodup_nil
  childrenRead := noChildrenRead
  hostsRead := fun _ hmem => absurd hmem List.not_mem_nil

theorem distinctIds_renamedHost :
    DistinctIds comparedSurroundings overwriteById renamedHost := by
  intro host hhost host' hhost' _ _
  rw [List.mem_singleton.mp hhost, List.mem_singleton.mp hhost']

def sourceRows (hosts : List Host) : Inventory where
  hosts := hosts
  groups := []
  children := ∅
  members := ∅
  sourceHosts := (hosts.map Host.pk).toFinset
  sourceGroups := ∅
  nextHost := hosts.length
  nextGroup := 0

theorem wellFormed_sourceRows {hosts : List Host} (hkeys : (hosts.map Host.pk).Nodup)
    (hnames : (hosts.map Host.name).Nodup) (hfresh : ∀ host ∈ hosts, host.pk < hosts.length) :
    (sourceRows hosts).WellFormed where
  hostKeys := hkeys
  hostNames := hnames
  groupKeys := List.nodup_nil
  groupNames := List.nodup_nil
  freshHosts := hfresh
  freshGroups := fun _ hmem => absurd hmem List.not_mem_nil
  children := fun _ hmem => absurd hmem (Finset.notMem_empty _)
  members := fun _ hmem => absurd hmem (Finset.notMem_empty _)
  sourceHosts := fun _ hmem => List.mem_toFinset.mp hmem
  sourceGroups := fun _ hmem => absurd hmem (Finset.notMem_empty _)

def oldRow : Host := ⟨0, "db", "", "i-1", true, ∅⟩

theorem renamedHost_matched :
    HostsMatched comparedSurroundings overwriteById renamedHost (sourceRows [oldRow]) := by
  refine (hostsMatched_iff (wellFormed_sourceRows (by decide) (by decide) (by decide))
    distinctIds_renamedHost).mpr fun host hhost _ _ => ⟨fun row hrow hname => ?_, .inr (.inr ?_)⟩
  · rw [List.mem_singleton.mp hrow, List.mem_singleton.mp hhost] at hname
    exact absurd hname (by decide)
  · rw [List.mem_singleton.mp hhost]
    exact ⟨oldRow, List.mem_singleton_self _, rfl⟩

def nameRow : Host := ⟨1, "web", "", "", true, ∅⟩

theorem renamedHost_mismatched : ¬ ∀ env options mem db, db.WellFormed →
    DistinctIds env options mem → HostsMatched env options mem db := by
  intro hclaim
  have hmatched := hclaim comparedSurroundings overwriteById renamedHost
    (sourceRows [oldRow, nameRow])
    (wellFormed_sourceRows (by decide) (by decide) (by decide)) distinctIds_renamedHost
  have hkept := hmatched.kept _ List.mem_cons_self (by decide) oldRow List.mem_cons_self
    (.inl (by decide)) fun other hother hcarries => ?_
  · have hgone : 0 ∉ ((deleteHosts (sourceRows [oldRow, nameRow]) (pkMemHostMap
        comparedSurroundings overwriteById renamedHost (sourceRows [oldRow, nameRow]))).hosts.map
        Host.pk) := by
      decide
    exact hgone (List.mem_map_of_mem hkept)
  · rcases List.mem_cons.mp hother with rfl | hother
    · rfl
    · obtain rfl := List.mem_singleton.mp hother
      exact absurd hcarries (by rw [Carries]; decide)

end Forail.InventoryImport

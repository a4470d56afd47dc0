import Forail.Inventory.InventoryImport

/-!
# The rows of the imported hosts

Rows are found for imported hosts in several ways.  In the end each is found for one host
at most, and each host has one row at most.
-/

namespace Forail.InventoryImport

open Forail.Json Forail.Batches

variable {env : Surroundings} {options : Options} {mem : MemInventory} {db : Inventory}
  {pk pk' : ℕ} {name : String}

theorem perm_hostsInOrder (env : Surroundings) (hosts : List Host) :
    (hostsInOrder env hosts).Perm hosts :=
  List.perm_insertionSort _ hosts

theorem perm_groupsInOrder (env : Surroundings) (groups : List Group) :
    (groupsInOrder env groups).Perm groups :=
  List.perm_insertionSort _ groups

theorem mem_sortedNames {names : List String} : name ∈ sortedNames names ↔ name ∈ names :=
  List.mem_insertionSort _

theorem mem_sortedKeys {keys : List ℕ} : pk ∈ sortedKeys keys ↔ pk ∈ keys :=
  List.mem_insertionSort _

theorem nodup_sortedNames {names : List String} : (sortedNames names).Nodup ↔ names.Nodup :=
  (List.perm_insertionSort _ names).nodup_iff

theorem nodup_sortedKeys {keys : List ℕ} : (sortedKeys keys).Nodup ↔ keys.Nodup :=
  (List.perm_insertionSort _ keys).nodup_iff

theorem nodup_map_filterMap {Thing : Type} {names : List String} {thingName : Thing → String}
    {find : String → Option Thing} (hfind : ∀ name thing, find name = some thing →
      thingName thing = name) (hnames : names.Nodup) :
    ((names.filterMap find).map thingName).Nodup := by
  induction names with
  | nil => exact List.nodup_nil
  | cons name names ih =>
    obtain ⟨hnew, hrest⟩ := List.nodup_cons.mp hnames
    rw [List.filterMap_cons]
    cases hfound : find name with
    | none => exact ih hrest
    | some thing =>
      refine List.nodup_cons.mpr ⟨fun hmem => hnew ?_, ih hrest⟩
      obtain ⟨other, hother, hsame⟩ := List.mem_map.mp hmem
      obtain ⟨name', hname', hfound'⟩ := List.mem_filterMap.mp hother
      have hname : name' = name := by
        rw [← hfind name' other hfound', hsame, hfind name thing hfound]
      exact hname ▸ hname'

/-! ## The hosts in memory -/

theorem MemInventory.host_of_mem {host : MemHost} (hmem : host ∈ mem.hosts) :
    mem.host host.name = some host :=
  UniqueRows.find?_of_mem mem.hostNames hmem

theorem MemInventory.mem_of_host {host : MemHost} (hhost : mem.host name = some host) :
    host ∈ mem.hosts ∧ host.name = name :=
  ⟨List.mem_of_find?_eq_some hhost, by simpa using List.find?_some hhost⟩

theorem MemInventory.exists_host (hname : name ∈ mem.hosts.map MemHost.name) :
    ∃ host, mem.host name = some host := by
  obtain ⟨host, hmem, rfl⟩ := List.mem_map.mp hname
  exact ⟨host, MemInventory.host_of_mem hmem⟩

theorem MemInventory.group_of_mem {group : MemGroup} (hmem : group ∈ mem.groups) :
    mem.group group.name = some group :=
  UniqueRows.find?_of_mem mem.groupNames hmem

theorem MemInventory.mem_of_group {group : MemGroup} (hgroup : mem.group name = some group) :
    group ∈ mem.groups ∧ group.name = name :=
  ⟨List.mem_of_find?_eq_some hgroup, by simpa using List.find?_some hgroup⟩

theorem MemInventory.exists_group (hname : name ∈ mem.groups.map MemGroup.name) :
    ∃ group, mem.group name = some group := by
  obtain ⟨group, hmem, rfl⟩ := List.mem_map.mp hname
  exact ⟨group, MemInventory.group_of_mem hmem⟩

/-! ## Found rows -/

theorem name_of_lookup_insert {Key : Type} [DecidableEq Key] {map : AList fun _ : Key => String}
    {names : List String} {key other : Key} {last : String} (hlast : last ∈ names)
    (hmap : map.lookup key = some name → name ∈ names)
    (hlookup : (map.insert other last).lookup key = some name) : name ∈ names := by
  by_cases hkey : key = other
  · subst hkey
    rw [← Option.some.inj ((AList.lookup_insert _).symm.trans hlookup)]
    exact hlast
  · exact hmap ((AList.lookup_insert_ne hkey).symm.trans hlookup)

theorem lookup_eq_some_iff {found : List (ℕ × String)} (hkeys : (found.map Prod.fst).Nodup) :
    found.lookup pk = some name ↔ (pk, name) ∈ found := by
  induction found with
  | nil => exact ⟨fun hnone => absurd hnone.symm (Option.some_ne_none _),
      fun hmem => absurd hmem List.not_mem_nil⟩
  | cons entry found ih =>
    obtain ⟨key, value⟩ := entry
    obtain ⟨hnew, hrest⟩ := List.nodup_cons.mp hkeys
    rw [List.lookup_cons, List.mem_cons, Prod.mk.injEq]
    by_cases hkey : pk = key
    · subst hkey
      rw [beq_self_eq_true]
      constructor
      · exact fun hsame => .inl ⟨rfl, (Option.some.inj hsame).symm⟩
      · rintro (⟨-, rfl⟩ | hmem)
        · rfl
        · exact absurd (List.mem_map_of_mem hmem) hnew
    · rw [beq_false_of_ne hkey, ← ih hrest]
      exact ⟨.inr, fun hmem => hmem.resolve_left fun hsame => hkey hsame.1⟩

/-- The rows that are found for imported hosts, each for one host and no two for the same. -/
structure Matching (mem : MemInventory) (db : Inventory) (found : List (ℕ × String)) : Prop where
  keys : (found.map Prod.fst).Nodup
  names : (found.map Prod.snd).Nodup
  rows : ∀ entry ∈ found, entry.1 ∈ db.hosts.map Host.pk
  imported : ∀ entry ∈ found, entry.2 ∈ mem.hosts.map MemHost.name

theorem mem_of_instanceIdMaps :
    (∀ pk name, (instanceIdMaps env options mem db).1.lookup pk = some name →
      name ∈ mem.hosts.map MemHost.name) ∧
    ∀ instanceId name, (instanceIdMaps env options mem db).2.lookup instanceId = some name →
      name ∈ mem.hosts.map MemHost.name := by
  rw [instanceIdMaps]
  induction mem.hosts using List.reverseRecOn with
  | nil => exact ⟨fun _ _ hnone => absurd hnone.symm (Option.some_ne_none _),
      fun _ _ hnone => absurd hnone.symm (Option.some_ne_none _)⟩
  | append_singleton hosts host ih =>
    have hlast : host.name ∈ (hosts ++ [host]).map MemHost.name :=
      List.mem_map_of_mem (List.mem_append_right _ List.mem_cons_self)
    have hother : ∀ name ∈ hosts.map MemHost.name,
        name ∈ (hosts ++ [host]).map MemHost.name := by
      intro name hname
      rw [List.map_append]
      exact List.mem_append_left _ hname
    have hfirst := fun pk name hlookup => hother name (ih.1 pk name hlookup)
    have hsecond := fun instanceId name hlookup => hother name (ih.2 instanceId name hlookup)
    rw [List.foldl_append, List.foldl_cons, List.foldl_nil]
    dsimp only
    split
    · refine ⟨fun pk name hlookup => ?_, hsecond⟩
      exact name_of_lookup_insert hlast (hfirst pk name) hlookup
    · split
      · exact ⟨hfirst, hsecond⟩
      · refine ⟨hfirst, fun instanceId name hlookup => ?_⟩
        exact name_of_lookup_insert hlast (hsecond instanceId name) hlookup

theorem mem_candidates (hmem : (pk, name) ∈ candidates env options mem db) :
    pk ∈ db.hosts.map Host.pk ∧ name ∈ mem.hosts.map MemHost.name := by
  rw [candidates, List.mem_append, List.mem_append] at hmem
  rcases hmem with (hmem | hmem) | hmem
  · obtain ⟨host, hhost, hentry⟩ := List.mem_map.mp hmem
    obtain ⟨rfl, rfl⟩ := Prod.mk.inj hentry
    obtain ⟨hrow, hkey⟩ := (mem_select (perm_hostsInOrder env)).mp hhost
    obtain ⟨name, hname⟩ := Option.isSome_iff_exists.mp
      (AList.lookup_isSome.mpr (mem_sortedKeys.mp hkey))
    rw [hname]
    exact ⟨List.mem_map_of_mem hrow, mem_of_instanceIdMaps.1 _ _ hname⟩
  · obtain ⟨host, hhost, hentry⟩ := List.mem_map.mp hmem
    obtain ⟨rfl, rfl⟩ := Prod.mk.inj hentry
    obtain ⟨hrow, hkey⟩ := (mem_select (perm_hostsInOrder env)).mp hhost
    obtain ⟨name, hname⟩ := Option.isSome_iff_exists.mp
      (AList.lookup_isSome.mpr (mem_sortedNames.mp hkey))
    rw [hname]
    exact ⟨List.mem_map_of_mem hrow, mem_of_instanceIdMaps.2 _ _ hname⟩
  · obtain ⟨host, hhost, hentry⟩ := List.mem_map.mp hmem
    obtain ⟨rfl, rfl⟩ := Prod.mk.inj hentry
    obtain ⟨hrow, hkey⟩ := (mem_select (perm_hostsInOrder env)).mp hhost
    exact ⟨List.mem_map_of_mem hrow, mem_sortedNames.mp hkey⟩

theorem lookup_append (first second : List (ℕ × String)) (pk : ℕ) :
    (first ++ second).lookup pk = (first.lookup pk).or (second.lookup pk) := by
  induction first with
  | nil => rfl
  | cons entry first ih =>
    obtain ⟨key, value⟩ := entry
    rw [List.cons_append, List.lookup_cons, List.lookup_cons, ih]
    split <;> rfl

theorem lookup_eq_none_iff {entries : List (ℕ × String)} :
    entries.lookup pk = none ↔ pk ∉ entries.map Prod.fst := by
  rw [List.lookup_eq_none_iff, List.mem_map]
  constructor
  · rintro hall ⟨entry, hentry, rfl⟩
    exact absurd (hall entry hentry) (by simp)
  · intro hnone entry hentry
    exact bne_iff_ne.mpr fun hsame => hnone ⟨entry, hentry, hsame.symm⟩

theorem mem_of_lookup {entries : List (ℕ × String)} (hlookup : entries.lookup pk = some name) :
    (pk, name) ∈ entries := by
  obtain ⟨before, after, rfl, -⟩ := List.lookup_eq_some_iff.mp hlookup
  exact List.mem_append_right _ List.mem_cons_self

theorem lookup_append_self {entries : List (ℕ × String)} (hnone : entries.lookup pk = none) :
    (entries ++ [(pk, name)]).lookup pk = some name := by
  rw [lookup_append, hnone, Option.none_or, List.lookup_cons_self]

theorem lookup_append_of_ne {entries : List (ℕ × String)} (hne : pk' ≠ pk) :
    (entries ++ [(pk, name)]).lookup pk' = entries.lookup pk' := by
  rw [lookup_append, List.lookup_cons, beq_false_of_ne hne]
  exact Option.or_none

/-- What has been found after some candidates.  Only the first host counts for which a row
is a candidate, and a host without a second candidate has its row. -/
structure Found (entries : List (ℕ × String))
    (found : (AList fun _ : String => ℕ) × List ℕ) : Prop where
  seen : ∀ pk, pk ∈ found.2 ↔ pk ∈ entries.map Prod.fst
  sound : ∀ name pk, found.1.lookup name = some pk → entries.lookup pk = some name
  complete : ∀ pk name, entries.lookup pk = some name →
    (∀ pk', entries.lookup pk' = some name → pk' = pk) → found.1.lookup name = some pk

theorem found_nil : Found [] (∅, []) where
  seen := fun _ => Iff.rfl
  sound := fun _ _ hnone => absurd hnone.symm (Option.some_ne_none _)
  complete := fun _ _ hnone => absurd hnone.symm (Option.some_ne_none _)

theorem Found.skip {entries : List (ℕ × String)}
    {found : (AList fun _ : String => ℕ) × List ℕ} (hfound : Found entries found)
    (hseen : pk ∈ found.2) : Found (entries ++ [(pk, name)]) found := by
  have hlookup : ∀ other, (entries ++ [(pk, name)]).lookup other = entries.lookup other := by
    intro other
    by_cases hother : other = pk
    · subst hother
      rw [lookup_append]
      apply Option.or_of_isSome
      rw [← Option.ne_none_iff_isSome]
      exact fun hnone => lookup_eq_none_iff.mp hnone ((hfound.seen other).mp hseen)
    · exact lookup_append_of_ne hother
  refine ⟨fun other => ?_, fun other key => ?_, fun key other => ?_⟩
  · rw [hfound.seen, List.map_append, List.mem_append]
    refine (or_iff_left_of_imp fun hlast => ?_).symm
    obtain rfl := List.mem_singleton.mp hlast
    exact (hfound.seen _).mp hseen
  · rw [hlookup]
    exact hfound.sound other key
  · simp only [hlookup]
    exact hfound.complete key other

theorem Found.take {entries : List (ℕ × String)}
    {found : (AList fun _ : String => ℕ) × List ℕ} (hfound : Found entries found)
    (hnew : pk ∉ found.2) :
    Found (entries ++ [(pk, name)]) (found.1.insert name pk, pk :: found.2) := by
  have hnone : entries.lookup pk = none :=
    lookup_eq_none_iff.mpr fun hmem => hnew ((hfound.seen pk).mpr hmem)
  refine ⟨fun other => ?_, fun other key hkey => ?_, fun key other hother hunique => ?_⟩
  · rw [List.mem_cons, hfound.seen, List.map_append, List.mem_append, or_comm]
    exact or_congr_right List.mem_singleton.symm
  · by_cases hname : other = name
    · subst hname
      obtain rfl := Option.some.inj ((AList.lookup_insert _).symm.trans hkey)
      exact lookup_append_self hnone
    · have hold := hfound.sound other key ((AList.lookup_insert_ne hname).symm.trans hkey)
      have hne : key ≠ pk := by
        rintro rfl
        exact Option.some_ne_none _ (hold.symm.trans hnone)
      rw [lookup_append_of_ne hne]
      exact hold
  · by_cases hname : other = name
    · subst hname
      rw [← hunique pk (lookup_append_self hnone)]
      exact AList.lookup_insert _
    · have hne : key ≠ pk := by
        rintro rfl
        exact hname (Option.some.inj (hother.symm.trans (lookup_append_self hnone)))
      rw [lookup_append_of_ne hne] at hother
      rw [AList.lookup_insert_ne hname]
      apply hfound.complete key other hother
      intro key' hkey'
      have hne' : key' ≠ pk := by
        rintro rfl
        exact Option.some_ne_none _ (hkey'.symm.trans hnone)
      exact hunique key' ((lookup_append_of_ne hne').trans hkey')

theorem found_foldl (entries : List (ℕ × String)) :
    Found entries (entries.foldl takeCandidate (∅, [])) := by
  induction entries using List.reverseRecOn with
  | nil => exact found_nil
  | append_singleton entries entry ih =>
    rw [List.foldl_append, List.foldl_cons, List.foldl_nil, takeCandidate]
    split
    · next hseen => exact ih.skip hseen
    · next hnew => exact ih.take hnew

theorem mem_pkMemHostMap {entry : ℕ × String} :
    entry ∈ pkMemHostMap env options mem db ↔
      ((candidates env options mem db).foldl takeCandidate (∅, [])).1.lookup entry.2 =
        some entry.1 := by
  rw [pkMemHostMap, List.mem_map]
  constructor
  · rintro ⟨⟨name, pk⟩, hsource, rfl⟩
    exact AList.mem_lookup_iff.mpr hsource
  · intro hlookup
    exact ⟨⟨entry.2, entry.1⟩, AList.mem_lookup_iff.mp hlookup, rfl⟩

def candidateOf (env : Surroundings) (options : Options) (mem : MemInventory) (db : Inventory)
    (pk : ℕ) : Option String :=
  (candidates env options mem db).lookup pk

theorem candidateOf_of_mem (hmem : (pk, name) ∈ pkMemHostMap env options mem db) :
    candidateOf env options mem db pk = some name :=
  (found_foldl _).sound name pk (mem_pkMemHostMap.mp hmem)

theorem matching_pkMemHostMap : Matching mem db (pkMemHostMap env options mem db) := by
  have hentries : ∀ entry ∈ pkMemHostMap env options mem db,
      entry.1 ∈ db.hosts.map Host.pk ∧ entry.2 ∈ mem.hosts.map MemHost.name :=
    fun _ hentry => mem_candidates (mem_of_lookup (candidateOf_of_mem hentry))
  have hnames : ((pkMemHostMap env options mem db).map Prod.snd).Nodup := by
    rw [pkMemHostMap, List.map_map]
    exact AList.nodupKeys _
  refine ⟨?_, hnames, fun entry hentry => (hentries entry hentry).1,
    fun entry hentry => (hentries entry hentry).2⟩
  apply (List.nodup_map_iff_inj_on hnames.of_map).mpr
  intro entry hentry entry' hentry' hsame
  apply Prod.ext hsame
  have hlookup := candidateOf_of_mem hentry
  rw [hsame, candidateOf_of_mem hentry'] at hlookup
  exact (Option.some.inj hlookup).symm

theorem mem_pkMemHostMap_of_unique (hlookup : candidateOf env options mem db pk = some name)
    (hunique : ∀ pk', candidateOf env options mem db pk' = some name → pk' = pk) :
    (pk, name) ∈ pkMemHostMap env options mem db :=
  mem_pkMemHostMap.mpr ((found_foldl _).complete pk name hlookup hunique)

/-! ## Candidates -/

theorem lookup_map_rows (hkeys : (db.hosts.map Host.pk).Nodup) {host : Host}
    (hhost : host ∈ db.hosts) {rows : List Host} (hrows : ∀ row ∈ rows, row ∈ db.hosts)
    (value : Host → String) :
    (host ∈ rows → (rows.map fun row => (row.pk, value row)).lookup host.pk = some (value host)) ∧
      (host ∉ rows → (rows.map fun row => (row.pk, value row)).lookup host.pk = none) := by
  induction rows with
  | nil => exact ⟨fun hmem => absurd hmem List.not_mem_nil, fun _ => rfl⟩
  | cons row rows ih =>
    obtain ⟨hin, hout⟩ := ih fun other hother => hrows other (List.mem_cons_of_mem _ hother)
    rw [List.map_cons]
    by_cases hpk : host.pk = row.pk
    · obtain rfl : host = row :=
        List.inj_on_of_nodup_map hkeys hhost (hrows row List.mem_cons_self) hpk
      exact ⟨fun _ => List.lookup_cons_self, fun hnot => absurd List.mem_cons_self hnot⟩
    · rw [List.lookup_cons, beq_false_of_ne hpk]
      constructor
      · intro hmem
        exact hin ((List.mem_cons.mp hmem).resolve_left fun hsame => hpk (congrArg _ hsame))
      · exact fun hnot => hout fun hmem => hnot (List.mem_cons_of_mem _ hmem)

variable {Key : Type} [DecidableEq Key] {keys : List Key}

theorem lookup_select (hkeys : (db.hosts.map Host.pk).Nodup) {host : Host}
    (hhost : host ∈ db.hosts) (key : Host → Key) (value : Host → String) :
    ((select (hostsInOrder env) key keys db.hosts).map
        fun row => (row.pk, value row)).lookup host.pk =
      if key host ∈ keys then some (value host) else none := by
  have hrows : ∀ row ∈ select (hostsInOrder env) key keys db.hosts, row ∈ db.hosts :=
    fun row hrow => ((mem_select (perm_hostsInOrder env)).mp hrow).1
  obtain ⟨hin, hout⟩ := lookup_map_rows hkeys hhost hrows value
  split
  · next hkey => exact hin ((mem_select (perm_hostsInOrder env)).mpr ⟨hhost, hkey⟩)
  · next hkey => exact hout fun hrow => hkey ((mem_select (perm_hostsInOrder env)).mp hrow).2

theorem lookup_select_map (hkeys : (db.hosts.map Host.pk).Nodup) {host : Host}
    (hhost : host ∈ db.hosts) (key : Host → Key) (map : AList fun _ : Key => String)
    (hmap : ∀ key, key ∈ keys ↔ key ∈ map) :
    ((select (hostsInOrder env) key keys db.hosts).map
        fun row => (row.pk, (map.lookup (key row)).getD "")).lookup host.pk =
      map.lookup (key host) := by
  rw [lookup_select hkeys hhost]
  split
  · next hkey =>
    obtain ⟨value, hvalue⟩ :=
      Option.isSome_iff_exists.mp (AList.lookup_isSome.mpr ((hmap _).mp hkey))
    rw [hvalue, Option.getD_some]
  · next hkey => rw [AList.lookup_eq_none.mpr fun hmem => hkey ((hmap _).mpr hmem)]

/-- What a row is a candidate for: a host with the instance id of its variables, else a host
with its instance id, else the host with its name. -/
theorem candidateOf_eq (hkeys : (db.hosts.map Host.pk).Nodup) {host : Host}
    (hhost : host ∈ db.hosts) :
    candidateOf env options mem db host.pk =
      (((instanceIdMaps env options mem db).1.lookup host.pk).or
        ((instanceIdMaps env options mem db).2.lookup host.instanceId)).or
        (if host.name ∈ mem.hosts.map MemHost.name then some host.name else none) := by
  rw [candidateOf, candidates, lookup_append, lookup_append,
    lookup_select_map hkeys hhost Host.pk _ fun _ => mem_sortedKeys,
    lookup_select_map hkeys hhost Host.instanceId _ fun _ => mem_sortedNames,
    lookup_select hkeys hhost]
  simp only [mem_sortedNames]

end Forail.InventoryImport

import Forail.Core.Runs
import Forail.Inventory.HostMatching

/-!
# The hosts of an import

The rows that were found get the names and variables of their hosts, and then the hosts
without a row are created.  A row that lost its host to another one is taken over by name.
-/

namespace Forail.InventoryImport

open Forail.Json Forail.Batches

variable {env : Surroundings} {options : Options} {mem : MemInventory} {db db' : Inventory}
  {found : List (ℕ × String)} {pk : ℕ} {name : String}

section

variable (env : Surroundings) (options : Options) (mem : MemInventory) (db : Inventory)
  (found : List (ℕ × String))

/-- The rows that were found, in the order in which they are saved. -/
def foundRows : List Host :=
  select (hostsInOrder env) Host.pk (sortedKeys (found.map Prod.fst)) db.hosts

def importedHost (host : Host) : Host :=
  (((found.lookup host.pk).bind mem.host).map (updateHost env options host)).getD host

/-- No row gets the name of another row that has not been updated yet. -/
def Renamable : Prop :=
  ∀ earlier row later, foundRows env db found = earlier ++ row :: later → ∀ other ∈ db.hosts,
    other.pk ≠ row.pk → other.pk ∉ earlier.map Host.pk →
      found.lookup row.pk ≠ some other.name

end

/-! ## Updates -/

theorem pk_importedHost (host : Host) :
    (importedHost env options mem found host).pk = host.pk := by
  rw [importedHost]
  cases (found.lookup host.pk).bind mem.host <;> rfl

theorem mem_foundRows {host : Host} : host ∈ foundRows env db found ↔
    host ∈ db.hosts ∧ host.pk ∈ found.map Prod.fst := by
  rw [foundRows, mem_select (perm_hostsInOrder env), mem_sortedKeys]

theorem nodup_foundRows (hkeyed : db.Keyed) (hkeys : (found.map Prod.fst).Nodup) :
    ((foundRows env db found).map Host.pk).Nodup := by
  apply List.Nodup.map_on
  · intro host hhost other hother hsame
    exact List.inj_on_of_nodup_map hkeyed.hostKeys (mem_foundRows.mp hhost).1
      (mem_foundRows.mp hother).1 hsame
  · exact nodup_select (perm_hostsInOrder env) (nodup_sortedKeys.mpr hkeys)
      hkeyed.hostKeys.of_map

theorem Matching.exists_host (hmatching : Matching mem db found)
    (hpk : pk ∈ found.map Prod.fst) :
    ∃ host, found.lookup pk = some host.name ∧ mem.host host.name = some host := by
  obtain ⟨⟨key, name⟩, hentry, rfl⟩ := List.mem_map.mp hpk
  obtain ⟨host, hhost⟩ := MemInventory.exists_host (hmatching.imported _ hentry)
  obtain ⟨-, rfl⟩ := MemInventory.mem_of_host hhost
  exact ⟨host, (lookup_eq_some_iff hmatching.keys).mpr hentry, hhost⟩

theorem Matching.exists_row (hmatching : Matching mem db found)
    (hpk : pk ∈ found.map Prod.fst) : ∃ row ∈ db.hosts, row.pk = pk := by
  obtain ⟨entry, hentry, rfl⟩ := List.mem_map.mp hpk
  exact List.mem_map.mp (hmatching.rows entry hentry)

theorem mem_pks_foundRows (hmatching : Matching mem db found) :
    pk ∈ (foundRows env db found).map Host.pk ↔ pk ∈ found.map Prod.fst := by
  constructor
  · intro hpk
    obtain ⟨row, hrow, rfl⟩ := List.mem_map.mp hpk
    exact (mem_foundRows.mp hrow).2
  · intro hpk
    obtain ⟨row, hrow, rfl⟩ := hmatching.exists_row hpk
    exact List.mem_map_of_mem (mem_foundRows.mpr ⟨hrow, hpk⟩)

theorem importedHost_of_found {host : Host} {memHost : MemHost}
    (hfound : found.lookup host.pk = some memHost.name)
    (hmem : mem.host memHost.name = some memHost) :
    importedHost env options mem found host = updateHost env options host memHost := by
  rw [importedHost, hfound, Option.bind_some, hmem, Option.map_some, Option.getD_some]

theorem importedHost_of_not_found {host : Host} (hnone : found.lookup host.pk = none) :
    importedHost env options mem found host = host := by
  rw [importedHost, hnone]
  rfl

theorem name_importedHost (hmatching : Matching mem db found) (host : Host) :
    (importedHost env options mem found host).name = (found.lookup host.pk).getD host.name := by
  by_cases hpk : host.pk ∈ found.map Prod.fst
  · obtain ⟨memHost, hfound, hmem⟩ := hmatching.exists_host hpk
    rw [importedHost_of_found hfound hmem, hfound]
    rfl
  · have hnone := lookup_eq_none_iff.mpr hpk
    rw [importedHost_of_not_found hnone, hnone]
    rfl

theorem hostUpdates_eq (hmatching : Matching mem db found) :
    hostUpdates env options mem db found =
      (foundRows env db found).map (importedHost env options mem found) := by
  rw [hostUpdates, ← foundRows, ← List.filterMap_eq_map]
  apply List.filterMap_congr
  intro host hhost
  obtain ⟨memHost, hfound, hmem⟩ := hmatching.exists_host (mem_foundRows.mp hhost).2
  rw [Function.comp_apply, importedHost_of_found hfound hmem, hfound, Option.bind_some, hmem]
  rfl

theorem map_pk_hostUpdates (hmatching : Matching mem db found) :
    (hostUpdates env options mem db found).map Host.pk =
      (foundRows env db found).map Host.pk := by
  rw [hostUpdates_eq hmatching, List.map_map]
  exact List.map_congr_left fun host _ => pk_importedHost host

theorem mem_names_hostUpdates (hmatching : Matching mem db found) :
    name ∈ (hostUpdates env options mem db found).map Host.name ↔
      name ∈ found.map Prod.snd := by
  rw [hostUpdates_eq hmatching, List.map_map]
  constructor
  · intro hname
    obtain ⟨host, hhost, rfl⟩ := List.mem_map.mp hname
    obtain ⟨memHost, hfound, -⟩ := hmatching.exists_host (mem_foundRows.mp hhost).2
    rw [Function.comp_apply, name_importedHost hmatching, hfound]
    exact List.mem_map_of_mem ((lookup_eq_some_iff hmatching.keys).mp hfound)
  · intro hname
    obtain ⟨⟨pk, name⟩, hentry, rfl⟩ := List.mem_map.mp hname
    obtain ⟨host, hhost, hpk⟩ := List.mem_map.mp (hmatching.rows _ hentry)
    have hpk : host.pk = pk := hpk
    refine List.mem_map.mpr ⟨host, mem_foundRows.mpr ⟨hhost, ?_⟩, ?_⟩
    · rw [hpk]
      exact List.mem_map_of_mem hentry
    · rw [Function.comp_apply, name_importedHost hmatching, hpk,
        (lookup_eq_some_iff hmatching.keys).mpr hentry]
      rfl

theorem nodup_names_hostUpdates (hkeyed : db.Keyed) (hmatching : Matching mem db found) :
    ((hostUpdates env options mem db found).map Host.name).Nodup := by
  rw [hostUpdates_eq hmatching, List.map_map]
  apply List.Nodup.map_on _ (nodup_foundRows hkeyed hmatching.keys).of_map
  intro host hhost other hother hsame
  obtain ⟨hrow, hpk⟩ := mem_foundRows.mp hhost
  obtain ⟨hrow', hpk'⟩ := mem_foundRows.mp hother
  obtain ⟨memHost, hfound, -⟩ := hmatching.exists_host hpk
  obtain ⟨memHost', hfound', -⟩ := hmatching.exists_host hpk'
  rw [Function.comp_apply, Function.comp_apply, name_importedHost hmatching,
    name_importedHost hmatching, hfound, hfound'] at hsame
  have hentry := (lookup_eq_some_iff hmatching.keys).mp hfound
  have hentry' := (lookup_eq_some_iff hmatching.keys).mp hfound'
  have heq := List.inj_on_of_nodup_map hmatching.names hentry hentry' hsame
  exact List.inj_on_of_nodup_map hkeyed.hostKeys hrow hrow' (congrArg Prod.fst heq)

theorem updated_hostUpdates (hkeyed : db.Keyed) (hmatching : Matching mem db found) {host : Host}
    (hhost : host ∈ db.hosts) :
    UniqueRows.updated Host.pk (hostUpdates env options mem db found) host =
      importedHost env options mem found host := by
  have hkeys : (hostUpdates env options mem db found).map Host.pk =
      (foundRows env db found).map Host.pk := map_pk_hostUpdates hmatching
  by_cases hpk : host.pk ∈ found.map Prod.fst
  · apply UniqueRows.updated_of_mem
    · rw [hkeys]
      exact nodup_foundRows hkeyed hmatching.keys
    · rw [hostUpdates_eq hmatching]
      exact List.mem_map_of_mem (mem_foundRows.mpr ⟨hhost, hpk⟩)
    · exact pk_importedHost host
  · rw [UniqueRows.updated_of_not_mem, importedHost_of_not_found (lookup_eq_none_iff.mpr hpk)]
    rw [hkeys, mem_pks_foundRows hmatching]
    exact hpk

theorem savable_hostUpdates_iff (hkeyed : db.Keyed) (hmatching : Matching mem db found) :
    UniqueRows.Savable Host.pk Host.name db.hosts (hostUpdates env options mem db found) ↔
      Renamable env db found := by
  have hnew : ∀ row ∈ foundRows env db found, ∀ other : Host,
      other.name = (importedHost env options mem found row).name ↔
        found.lookup row.pk = some other.name := by
    intro row hrow other
    obtain ⟨memHost, hfound, -⟩ := hmatching.exists_host (mem_foundRows.mp hrow).2
    rw [name_importedHost hmatching, hfound, Option.getD_some, Option.some_inj, eq_comm]
  have hpks : ∀ rows : List Host,
      (rows.map (importedHost env options mem found)).map Host.pk = rows.map Host.pk := by
    intro rows
    rw [List.map_map]
    exact List.map_congr_left fun host _ => pk_importedHost host
  constructor
  · intro hsavable earlier row later hsplit other hother hne hearlier hfound
    have hrow : row ∈ foundRows env db found := by
      rw [hsplit]
      exact List.mem_append_right _ List.mem_cons_self
    refine hsavable.free (earlier.map (importedHost env options mem found))
      (importedHost env options mem found row) (later.map (importedHost env options mem found))
      ?_ other hother ?_ ?_ ((hnew row hrow other).mpr hfound)
    · rw [hostUpdates_eq hmatching, hsplit, List.map_append, List.map_cons]
    · rw [pk_importedHost]
      exact hne
    · rw [hpks]
      exact hearlier
  · intro hrenamable
    refine ⟨?_, nodup_names_hostUpdates hkeyed hmatching, ?_⟩
    · rw [map_pk_hostUpdates hmatching]
      exact nodup_foundRows hkeyed hmatching.keys
    · intro before update after hsplit other hother hne hbefore hname
      rw [hostUpdates_eq hmatching] at hsplit
      obtain ⟨earlier, rest, hrows, rfl, hrest⟩ := List.map_eq_append_iff.mp hsplit
      obtain ⟨row, later, rfl, rfl, rfl⟩ := List.map_eq_cons_iff.mp hrest
      have hrow : row ∈ foundRows env db found := by
        rw [hrows]
        exact List.mem_append_right _ List.mem_cons_self
      rw [pk_importedHost] at hne
      rw [hpks] at hbefore
      exact hrenamable earlier row later hrows other hother hne hbefore
        ((hnew row hrow other).mp hname)

/-! ## New hosts -/

structure HostsCreated (env : Surroundings) (options : Options) (db : Inventory)
    (created : List MemHost) (db' : Inventory) : Prop where
  frame : db' = { db with
    hosts := db'.hosts
    sourceHosts := db'.sourceHosts
    nextHost := db'.nextHost }
  keyed : db'.Keyed
  later : db.nextHost ≤ db'.nextHost
  kept : ∀ row ∈ db.hosts, ∃ row' ∈ db'.hosts, row'.pk = row.pk ∧ row'.name = row.name
  origin : ∀ row ∈ db'.hosts, row ∈ db.hosts ∧ row.name ∉ created.map MemHost.name ∨
    ∃ host ∈ created, ∃ description, describe env host.vars = some description ∧
      ((∃ old ∈ db.hosts, old.name = host.name ∧
          row = recreatedHost env options old host description) ∨
        host.name ∉ db.hosts.map Host.name ∧ db.nextHost ≤ row.pk ∧
          row = createdHost env options row.pk host description)
  all : ∀ host ∈ created, host.name ∈ db'.hosts.map Host.name
  source : ∀ row ∈ db'.hosts, row.pk ∈ db'.sourceHosts ↔
    row.pk ∈ db.sourceHosts ∨ row.name ∈ created.map MemHost.name

theorem hostsCreated_nil (hkeyed : db.Keyed) : HostsCreated env options db [] db where
  frame := rfl
  keyed := hkeyed
  later := le_rfl
  kept := fun row hrow => ⟨row, hrow, rfl, rfl⟩
  origin := fun _ hrow => .inl ⟨hrow, List.not_mem_nil⟩
  all := fun _ hhost => absurd hhost List.not_mem_nil
  source := fun _ _ => (or_iff_left List.not_mem_nil).symm

theorem Inventory.Keyed.addHost (hkeyed : db.Keyed) {row : Host} (hpk : row.pk = db.nextHost)
    (hname : row.name ∉ db.hosts.map Host.name) (sourceHosts : Finset ℕ) :
    ({ db with
        hosts := db.hosts ++ [row]
        sourceHosts := sourceHosts
        nextHost := db.nextHost + 1 } : Inventory).Keyed := by
  have hkey : row.pk ∉ db.hosts.map Host.pk := by
    intro hmem
    obtain ⟨other, hother, hsame⟩ := List.mem_map.mp hmem
    exact absurd (hkeyed.freshHosts other hother) (by omega)
  refine { hkeyed with hostKeys := ?_, hostNames := ?_, freshHosts := ?_ }
  · rw [List.map_append]
    exact hkeyed.hostKeys.append (List.nodup_singleton _) (List.disjoint_singleton.mpr hkey)
  · rw [List.map_append]
    exact hkeyed.hostNames.append (List.nodup_singleton _) (List.disjoint_singleton.mpr hname)
  · intro other hother
    change other.pk < db.nextHost + 1
    rcases List.mem_append.mp hother with hold | hlast
    · exact Nat.lt_succ_of_lt (hkeyed.freshHosts other hold)
    · rw [List.mem_singleton.mp hlast, hpk]
      exact Nat.lt_succ_self _

theorem map_replace {Key : Type} (key : Host → Key) {hosts : List Host} {row : Host}
    (hkey : ∀ other ∈ hosts, other.pk = row.pk → key other = key row) :
    (UniqueRows.replace Host.pk hosts row).map key = hosts.map key := by
  rw [UniqueRows.replace, List.map_map]
  apply List.map_congr_left
  intro other hother
  rw [Function.comp_apply]
  split
  · next hsame => exact (hkey other hother hsame).symm
  · rfl

theorem Inventory.Keyed.replaceHost (hkeyed : db.Keyed) {row : Host}
    (hname : ∀ other ∈ db.hosts, other.pk = row.pk → other.name = row.name)
    (sourceHosts : Finset ℕ) :
    ({ db with
        hosts := UniqueRows.replace Host.pk db.hosts row
        sourceHosts := sourceHosts } : Inventory).Keyed := by
  have hkeys : (UniqueRows.replace Host.pk db.hosts row).map Host.pk = db.hosts.map Host.pk :=
    map_replace Host.pk fun _ _ hsame => hsame
  refine { hkeyed with hostKeys := ?_, hostNames := ?_, freshHosts := ?_ }
  · rw [hkeys]
    exact hkeyed.hostKeys
  · rw [map_replace Host.name hname]
    exact hkeyed.hostNames
  · intro other hother
    have hmem : other.pk ∈ db.hosts.map Host.pk := hkeys ▸ List.mem_map_of_mem hother
    obtain ⟨source, hsource, hpk⟩ := List.mem_map.mp hmem
    rw [← hpk]
    exact hkeyed.freshHosts source hsource

theorem HostsCreated.mem_of_name {created : List MemHost} {middle : Inventory}
    (hcreated : HostsCreated env options db created middle) {row : Host}
    (hrow : row ∈ middle.hosts) (hname : row.name ∉ created.map MemHost.name) :
    row ∈ db.hosts := by
  rcases hcreated.origin row hrow with ⟨hold, -⟩ | ⟨host, hhost, description, -, hnew⟩
  · exact hold
  · have hsame : row.name = host.name := by
      rcases hnew with ⟨old, -, -, rfl⟩ | ⟨-, -, heq⟩
      · rfl
      · rw [heq]
        rfl
    exact absurd (hsame ▸ List.mem_map_of_mem hhost) hname

theorem HostsCreated.recreate {created : List MemHost} {middle : Inventory}
    (hcreated : HostsCreated env options db created middle) {host : MemHost} {old : Host}
    {description : String} (hnew : host.name ∉ created.map MemHost.name)
    (hold : old ∈ middle.hosts) (hname : old.name = host.name)
    (hdescribe : describe env host.vars = some description) :
    HostsCreated env options db (created ++ [host])
      { middle with
        hosts := UniqueRows.replace Host.pk middle.hosts
          (recreatedHost env options old host description)
        sourceHosts := insert old.pk middle.sourceHosts } := by
  have hsame : ∀ row ∈ middle.hosts, row.pk = old.pk → row = old := fun row hrow hpk =>
    List.inj_on_of_nodup_map hcreated.keyed.hostKeys hrow hold hpk
  have hrows : ∀ row ∈ UniqueRows.replace Host.pk middle.hosts
      (recreatedHost env options old host description),
      row = recreatedHost env options old host description ∨
        row ∈ middle.hosts ∧ row.pk ≠ old.pk := by
    intro row hrow
    obtain ⟨source, hsource, heq⟩ := List.mem_map.mp hrow
    by_cases hpk : source.pk = old.pk
    · exact .inl (heq.symm.trans (if_pos hpk))
    · obtain rfl := heq.symm.trans (if_neg hpk)
      exact .inr ⟨hsource, hpk⟩
  have hothers : ∀ row ∈ middle.hosts, row.pk ≠ old.pk → row.name ≠ host.name := by
    intro row hrow hpk hsame
    have heq := List.inj_on_of_nodup_map hcreated.keyed.hostNames hrow hold
      (hsame.trans hname.symm)
    exact hpk (congrArg Host.pk heq)
  refine ⟨?_, ?_, hcreated.later, ?_, ?_, ?_, ?_⟩
  · rw [hcreated.frame]
  · apply hcreated.keyed.replaceHost
    intro row hrow hpk
    rw [hsame row hrow hpk]
    exact hname
  · intro row hrow
    obtain ⟨row', hrow', hpk, hrowName⟩ := hcreated.kept row hrow
    by_cases hreplaced : row'.pk = old.pk
    · refine ⟨recreatedHost env options old host description,
        List.mem_map.mpr ⟨row', hrow', if_pos hreplaced⟩, hreplaced.symm.trans hpk, ?_⟩
      rw [← hrowName, hsame row' hrow' hreplaced]
      exact hname.symm
    · exact ⟨row', List.mem_map.mpr ⟨row', hrow', if_neg hreplaced⟩, hpk, hrowName⟩
  · intro row hrow
    rcases hrows row hrow with rfl | ⟨hrow, hpk⟩
    · refine .inr ⟨host, List.mem_append_right _ List.mem_cons_self, description, hdescribe,
        .inl ⟨old, hcreated.mem_of_name hold (hname ▸ hnew), hname, rfl⟩⟩
    · rcases hcreated.origin row hrow with ⟨hmem, hrowName⟩ | ⟨other, hother, hrest⟩
      · refine .inl ⟨hmem, ?_⟩
        rw [List.map_append, List.mem_append, not_or]
        exact ⟨hrowName, fun hlast => hothers row hrow hpk (List.mem_singleton.mp hlast)⟩
      · exact .inr ⟨other, List.mem_append_left _ hother, hrest⟩
  · intro other hother
    rw [map_replace Host.name fun row hrow hpk => (hsame row hrow hpk).symm ▸ hname]
    rcases List.mem_append.mp hother with hother | hlast
    · exact hcreated.all other hother
    · obtain rfl := List.mem_singleton.mp hlast
      exact hname ▸ List.mem_map_of_mem hold
  · intro row hrow
    rw [List.map_append, List.mem_append, ← or_assoc]
    rcases hrows row hrow with rfl | ⟨hrow, hpk⟩
    · exact ⟨fun _ => .inr List.mem_cons_self, fun _ => Finset.mem_insert_self _ _⟩
    · rw [← hcreated.source row hrow]
      exact (Finset.mem_insert.trans (or_iff_right hpk)).trans
        (or_iff_left fun hlast => hothers row hrow hpk (List.mem_singleton.mp hlast)).symm

theorem HostsCreated.create {created : List MemHost} {middle : Inventory}
    (hcreated : HostsCreated env options db created middle) {host : MemHost}
    {description : String} (hfree : host.name ∉ middle.hosts.map Host.name)
    (hdescribe : describe env host.vars = some description) :
    HostsCreated env options db (created ++ [host])
      { middle with
        hosts := middle.hosts ++ [createdHost env options middle.nextHost host description]
        sourceHosts := insert middle.nextHost middle.sourceHosts
        nextHost := middle.nextHost + 1 } := by
  have hnew : host.name ∉ db.hosts.map Host.name := by
    intro hmem
    obtain ⟨row, hrow, hname⟩ := List.mem_map.mp hmem
    obtain ⟨row', hrow', -, hsame⟩ := hcreated.kept row hrow
    exact hfree (List.mem_map.mpr ⟨row', hrow', hsame.trans hname⟩)
  have hothers : ∀ row ∈ middle.hosts, row.name ≠ host.name :=
    fun row hrow hname => hfree (List.mem_map.mpr ⟨row, hrow, hname⟩)
  refine ⟨?_, ?_, ?_, ?_, ?_, ?_, ?_⟩
  · rw [hcreated.frame]
  · exact hcreated.keyed.addHost rfl hfree _
  · exact Nat.le_succ_of_le hcreated.later
  · intro row hrow
    obtain ⟨row', hrow', hsame⟩ := hcreated.kept row hrow
    exact ⟨row', List.mem_append_left _ hrow', hsame⟩
  · intro row hrow
    rcases List.mem_append.mp hrow with hrow | hlast
    · rcases hcreated.origin row hrow with ⟨hmem, hname⟩ | ⟨other, hother, hrest⟩
      · refine .inl ⟨hmem, ?_⟩
        rw [List.map_append, List.mem_append, not_or]
        exact ⟨hname, fun hlast => hothers row hrow (List.mem_singleton.mp hlast)⟩
      · exact .inr ⟨other, List.mem_append_left _ hother, hrest⟩
    · obtain rfl := List.mem_singleton.mp hlast
      exact .inr ⟨host, List.mem_append_right _ List.mem_cons_self, description, hdescribe,
        .inr ⟨hnew, hcreated.later, rfl⟩⟩
  · intro other hother
    rw [List.map_append]
    rcases List.mem_append.mp hother with hother | hlast
    · exact List.mem_append_left _ (hcreated.all other hother)
    · obtain rfl := List.mem_singleton.mp hlast
      exact List.mem_append_right _ List.mem_cons_self
  · intro row hrow
    rw [List.map_append, List.mem_append, ← or_assoc]
    rcases List.mem_append.mp hrow with hrow | hlast
    · have hpk : row.pk ≠ middle.nextHost := (hcreated.keyed.freshHosts row hrow).ne
      rw [← hcreated.source row hrow]
      exact (Finset.mem_insert.trans (or_iff_right hpk)).trans
        (or_iff_left fun hlast => hothers row hrow (List.mem_singleton.mp hlast)).symm
    · obtain rfl := List.mem_singleton.mp hlast
      exact ⟨fun _ => .inr List.mem_cons_self, fun _ => Finset.mem_insert_self _ _⟩

theorem HostsCreated.createHost {created : List MemHost} {middle : Inventory}
    (hcreated : HostsCreated env options db created middle) {host : MemHost}
    (hnew : host.name ∉ created.map MemHost.name)
    (hstep : createHost env options middle host = some db') :
    HostsCreated env options db (created ++ [host]) db' := by
  obtain ⟨-, hstep⟩ := Option.ite_none_left_eq_some.mp hstep
  obtain ⟨description, hdescribe, rfl⟩ := Option.map_eq_some_iff.mp hstep
  cases hold : middle.hosts.find? fun other => other.name = host.name with
  | some old =>
    have hname : old.name = host.name := by simpa using List.find?_some hold
    exact hcreated.recreate hnew (List.mem_of_find?_eq_some hold) hname hdescribe
  | none =>
    apply hcreated.create _ hdescribe
    intro hmem
    obtain ⟨row, hrow, hname⟩ := List.mem_map.mp hmem
    exact List.find?_eq_none.mp hold row hrow (decide_eq_true hname)

theorem mem_hostsToCreate (hmatching : Matching mem db found) {host : MemHost} :
    host ∈ hostsToCreate env options mem db found ↔
      host ∈ mem.hosts ∧ host.name ∉ found.map Prod.snd := by
  rw [hostsToCreate, List.mem_filterMap]
  constructor
  · rintro ⟨name, -, hhost⟩
    obtain ⟨hnew, hhost⟩ := Option.ite_none_left_eq_some.mp hhost
    obtain ⟨hmem, rfl⟩ := MemInventory.mem_of_host hhost
    exact ⟨hmem, fun hname => hnew ((mem_names_hostUpdates hmatching).mpr hname)⟩
  · rintro ⟨hmem, hnew⟩
    refine ⟨host.name, mem_sortedNames.mpr (List.mem_map_of_mem hmem), ?_⟩
    rw [if_neg fun hname => hnew ((mem_names_hostUpdates hmatching).mp hname),
      MemInventory.host_of_mem hmem]

theorem nodup_hostsToCreate :
    ((hostsToCreate env options mem db found).map MemHost.name).Nodup := by
  apply nodup_map_filterMap
  · intro name host hhost
    exact (MemInventory.mem_of_host (Option.ite_none_left_eq_some.mp hhost).2).2
  · exact nodup_sortedNames.mpr mem.hostNames

theorem hostsCreated_of_foldlM {hosts : List MemHost} (hhosts : (hosts.map MemHost.name).Nodup)
    (hkeyed : db.Keyed) (hrun : hosts.foldlM (createHost env options) db = some db') :
    HostsCreated env options db hosts db' := by
  apply Runs.foldlM_invariant (HostsCreated env options db) (hostsCreated_nil hkeyed) _ hrun
  intro before host after hsplit middle middle' hcreated hstep
  apply hcreated.createHost _ hstep
  rw [hsplit, List.map_append] at hhosts
  exact fun hmem => (List.nodup_append.mp hhosts).2.2 _ hmem _ List.mem_cons_self rfl

/-! ## All hosts -/

inductive HostOrigin (env : Surroundings) (options : Options) (mem : MemInventory)
    (db : Inventory) (found : List (ℕ × String)) : Host → Prop where
  | updated {row : Host} {host : MemHost} (hrow : row ∈ db.hosts)
      (hfound : found.lookup row.pk = some host.name) (hhost : host ∈ mem.hosts) :
      HostOrigin env options mem db found (updateHost env options row host)
  | kept {row : Host} (hrow : row ∈ db.hosts) (hfound : found.lookup row.pk = none)
      (hname : row.name ∉ mem.hosts.map MemHost.name) :
      HostOrigin env options mem db found row
  | recreated {row : Host} {host : MemHost} {description : String} (hrow : row ∈ db.hosts)
      (hfound : found.lookup row.pk = none) (hname : row.name = host.name)
      (hhost : host ∈ mem.hosts) (hnew : host.name ∉ found.map Prod.snd)
      (hdescribe : describe env host.vars = some description) :
      HostOrigin env options mem db found (recreatedHost env options row host description)
  | created {pk : ℕ} {host : MemHost} {description : String} (hpk : db.nextHost ≤ pk)
      (hhost : host ∈ mem.hosts) (hnew : host.name ∉ found.map Prod.snd)
      (hfree : ∀ row ∈ db.hosts, row.name = host.name → found.lookup row.pk ≠ none)
      (hdescribe : describe env host.vars = some description) :
      HostOrigin env options mem db found (createdHost env options pk host description)

theorem HostOrigin.becomes {row : Host} (horigin : HostOrigin env options mem db found row) :
    (∃ source ∈ db.hosts, source.pk = row.pk ∧
      (found.lookup row.pk).getD source.name = row.name) ∨ db.nextHost ≤ row.pk := by
  cases horigin with
  | updated hsource hfound _ =>
    refine .inl ⟨_, hsource, rfl, ?_⟩
    rw [pk_updateHost, hfound]
    rfl
  | kept hsource hfound _ =>
    refine .inl ⟨row, hsource, rfl, ?_⟩
    rw [hfound]
    rfl
  | recreated hsource hfound hname _ _ _ =>
    refine .inl ⟨_, hsource, rfl, ?_⟩
    rw [pk_recreatedHost, hfound]
    exact hname
  | created hpk _ _ _ _ => exact .inr hpk

structure HostsImported (env : Surroundings) (options : Options) (mem : MemInventory)
    (found : List (ℕ × String)) (db db' : Inventory) : Prop where
  frame : db' = { db with
    hosts := db'.hosts
    sourceHosts := db'.sourceHosts
    nextHost := db'.nextHost }
  keyed : db'.Keyed
  later : db.nextHost ≤ db'.nextHost
  origin : ∀ row ∈ db'.hosts, HostOrigin env options mem db found row
  kept : ∀ row ∈ db.hosts, ∃ row' ∈ db'.hosts, row'.pk = row.pk
  all : ∀ host ∈ mem.hosts, host.name ∈ db'.hosts.map Host.name
  source : ∀ row ∈ db'.hosts, row.pk ∈ db'.sourceHosts ↔
    row.pk ∈ db.sourceHosts ∨ row.name ∈ mem.hosts.map MemHost.name

section

variable (env : Surroundings) (options : Options) (mem : MemInventory) (db : Inventory)
  (found : List (ℕ × String))

def hostsUpdated : Inventory :=
  { db with
    hosts := db.hosts.map (importedHost env options mem found)
    sourceHosts := db.sourceHosts ∪
      ((hostUpdates env options mem db found).map Host.pk).toFinset }

end

theorem createUpdateHosts_eq (hkeyed : db.Keyed) (hmatching : Matching mem db found)
    (hrenamable : Renamable env db found) :
    createUpdateHosts env options mem db found =
      (hostsToCreate env options mem db found).foldlM (createHost env options)
        (hostsUpdated env options mem db found) := by
  have hsavable : UniqueRows.Savable Host.pk Host.name db.hosts
      (hostUpdates env options mem db found) :=
    (savable_hostUpdates_iff hkeyed hmatching).mpr hrenamable
  have hhosts : db.hosts.map (UniqueRows.updated Host.pk (hostUpdates env options mem db found)) =
      db.hosts.map (importedHost env options mem found) :=
    List.map_congr_left fun host hhost => updated_hostUpdates hkeyed hmatching hhost
  dsimp only [createUpdateHosts]
  rw [UniqueRows.foldlM_save hsavable, hhosts]
  rfl

theorem keyed_hostsUpdated (hkeyed : db.Keyed) (hmatching : Matching mem db found)
    (hrenamable : Renamable env db found) : (hostsUpdated env options mem db found).Keyed := by
  have hsavable : UniqueRows.Savable Host.pk Host.name db.hosts
      (hostUpdates env options mem db found) :=
    (savable_hostUpdates_iff hkeyed hmatching).mpr hrenamable
  have hpks : (hostsUpdated env options mem db found).hosts.map Host.pk =
      db.hosts.map Host.pk := by
    rw [hostsUpdated, List.map_map]
    exact List.map_congr_left fun host _ => pk_importedHost host
  have hhosts : (hostsUpdated env options mem db found).hosts =
      db.hosts.map (UniqueRows.updated Host.pk (hostUpdates env options mem db found)) :=
    List.map_congr_left fun host hhost => (updated_hostUpdates hkeyed hmatching hhost).symm
  refine { hkeyed with hostKeys := ?_, hostNames := ?_, freshHosts := ?_ }
  · rw [hpks]
    exact hkeyed.hostKeys
  · rw [hhosts]
    exact hsavable.nodup_names hkeyed.hostKeys hkeyed.hostNames
  · intro row hrow
    have hmem : row.pk ∈ db.hosts.map Host.pk := hpks ▸ List.mem_map_of_mem hrow
    obtain ⟨source, hsource, hpk⟩ := List.mem_map.mp hmem
    rw [← hpk]
    exact hkeyed.freshHosts source hsource

theorem mem_hostsUpdated {row : Host}
    (hrow : row ∈ (hostsUpdated env options mem db found).hosts) :
    ∃ source ∈ db.hosts, importedHost env options mem found source = row :=
  List.mem_map.mp hrow

theorem hostOrigin_of_hostsCreated (hmatching : Matching mem db found)
    (hupdated : (hostsUpdated env options mem db found).Keyed)
    (hcreated : HostsCreated env options (hostsUpdated env options mem db found)
      (hostsToCreate env options mem db found) db') {row : Host} (hrow : row ∈ db'.hosts) :
    HostOrigin env options mem db found row := by
  rcases hcreated.origin row hrow with
    ⟨hold, hname⟩ | ⟨host, hhost, description, hdescribe, ⟨old, hold, hname, rfl⟩ | ⟨hnew, hpk, heq⟩⟩
  · obtain ⟨source, hsource, rfl⟩ := mem_hostsUpdated hold
    by_cases hpk : source.pk ∈ found.map Prod.fst
    · obtain ⟨host, hfound, hhost⟩ := hmatching.exists_host hpk
      rw [importedHost_of_found hfound hhost]
      exact .updated hsource hfound (MemInventory.mem_of_host hhost).1
    · have hnone := lookup_eq_none_iff.mpr hpk
      rw [importedHost_of_not_found hnone] at hold hname ⊢
      apply HostOrigin.kept hsource hnone
      intro himported
      obtain ⟨host, hhost, hsame⟩ := List.mem_map.mp himported
      by_cases hfound : host.name ∈ found.map Prod.snd
      · -- another row has the name by now
        have hupdate : host.name ∈ (hostUpdates env options mem db found).map Host.name :=
          (mem_names_hostUpdates hmatching).mpr hfound
        rw [hostUpdates_eq hmatching, List.map_map] at hupdate
        obtain ⟨other, hother, hotherName⟩ := List.mem_map.mp hupdate
        obtain ⟨hotherRow, hotherPk⟩ := mem_foundRows.mp hother
        have heq := List.inj_on_of_nodup_map hupdated.hostNames
          (List.mem_map_of_mem hotherRow) hold (hotherName.trans hsame)
        have hpks : other.pk = source.pk :=
          (pk_importedHost other).symm.trans (congrArg Host.pk heq)
        exact hpk (hpks ▸ hotherPk)
      · apply hname
        rw [← hsame]
        exact List.mem_map_of_mem ((mem_hostsToCreate hmatching).mpr ⟨hhost, hfound⟩)
  · obtain ⟨hmem, hnew⟩ := (mem_hostsToCreate hmatching).mp hhost
    obtain ⟨source, hsource, rfl⟩ := mem_hostsUpdated hold
    have hnone : found.lookup source.pk = none := by
      rw [lookup_eq_none_iff]
      intro hpk
      obtain ⟨other, hfound, -⟩ := hmatching.exists_host hpk
      rw [name_importedHost hmatching, hfound] at hname
      exact hnew (hname ▸ List.mem_map_of_mem ((lookup_eq_some_iff hmatching.keys).mp hfound))
    rw [importedHost_of_not_found hnone] at hname ⊢
    exact .recreated hsource hnone hname hmem hnew hdescribe
  · obtain ⟨hmem, hfound⟩ := (mem_hostsToCreate hmatching).mp hhost
    have hpk : db.nextHost ≤ row.pk := hpk
    rw [heq]
    apply HostOrigin.created hpk hmem hfound _ hdescribe
    intro source hsource hname hnone
    apply hnew
    refine List.mem_map.mpr ⟨_, List.mem_map_of_mem hsource, ?_⟩
    rw [importedHost_of_not_found hnone]
    exact hname

theorem HostOrigin.source_iff (hkeyed : db.Keyed) (hmatching : Matching mem db found)
    {row : Host} (horigin : HostOrigin env options mem db found row) :
    row.pk ∈ found.map Prod.fst ∨
        row.name ∈ (hostsToCreate env options mem db found).map MemHost.name ↔
      row.name ∈ mem.hosts.map MemHost.name := by
  constructor
  · rintro (hpk | hname)
    · cases horigin with
      | updated _ _ hhost => exact List.mem_map_of_mem hhost
      | kept _ hnone _ => exact absurd hpk (lookup_eq_none_iff.mp hnone)
      | recreated _ hnone _ _ _ _ => exact absurd hpk (lookup_eq_none_iff.mp hnone)
      | created hnew _ _ _ _ =>
        obtain ⟨source, hsource, hsame⟩ := hmatching.exists_row hpk
        have hfresh := hkeyed.freshHosts source hsource
        rw [hsame] at hfresh
        exact absurd hnew (Nat.not_le_of_lt hfresh)
    · obtain ⟨host, hhost, hsame⟩ := List.mem_map.mp hname
      exact hsame ▸ List.mem_map_of_mem ((mem_hostsToCreate hmatching).mp hhost).1
  · intro hname
    cases horigin with
    | updated _ hfound _ =>
      exact .inl (List.mem_map_of_mem ((lookup_eq_some_iff hmatching.keys).mp hfound))
    | kept _ _ hnot => exact absurd hname hnot
    | recreated _ _ _ hhost hnew _ =>
      exact .inr (List.mem_map_of_mem ((mem_hostsToCreate hmatching).mpr ⟨hhost, hnew⟩))
    | created _ hhost hnew _ _ =>
      exact .inr (List.mem_map_of_mem ((mem_hostsToCreate hmatching).mpr ⟨hhost, hnew⟩))

theorem hostsImported_of_foldlM (hkeyed : db.Keyed) (hmatching : Matching mem db found)
    (hrenamable : Renamable env db found)
    (hrun : (hostsToCreate env options mem db found).foldlM (createHost env options)
      (hostsUpdated env options mem db found) = some db') :
    HostsImported env options mem found db db' := by
  have hupdated : (hostsUpdated env options mem db found).Keyed :=
    keyed_hostsUpdated hkeyed hmatching hrenamable
  have hcreated := hostsCreated_of_foldlM nodup_hostsToCreate hupdated hrun
  have horigin : ∀ row ∈ db'.hosts, HostOrigin env options mem db found row :=
    fun row hrow => hostOrigin_of_hostsCreated hmatching hupdated hcreated hrow
  have hkept : ∀ row ∈ db.hosts, ∃ row' ∈ db'.hosts, row'.pk = row.pk ∧
      row'.name = (importedHost env options mem found row).name := by
    intro row hrow
    obtain ⟨row', hrow', hpk, hname⟩ := hcreated.kept _ (List.mem_map_of_mem hrow)
    exact ⟨row', hrow', hpk.trans (pk_importedHost row), hname⟩
  refine ⟨?_, hcreated.keyed, hcreated.later, horigin, ?_, ?_, ?_⟩
  · rw [hcreated.frame]
    rfl
  · intro row hrow
    obtain ⟨row', hrow', hpk, -⟩ := hkept row hrow
    exact ⟨row', hrow', hpk⟩
  · intro host hhost
    by_cases hfound : host.name ∈ found.map Prod.snd
    · obtain ⟨⟨pk, name⟩, hentry, hsame⟩ := List.mem_map.mp hfound
      obtain ⟨row, hrow, hpk⟩ := List.mem_map.mp (hmatching.rows _ hentry)
      obtain ⟨row', hrow', -, hname⟩ := hkept row hrow
      refine List.mem_map.mpr ⟨row', hrow', ?_⟩
      rw [hname, name_importedHost hmatching, hpk,
        (lookup_eq_some_iff hmatching.keys).mpr hentry]
      exact hsame
    · exact hcreated.all host ((mem_hostsToCreate hmatching).mpr ⟨hhost, hfound⟩)
  · intro row hrow
    rw [hcreated.source row hrow, ← (horigin row hrow).source_iff hkeyed hmatching, ← or_assoc]
    refine or_congr_left (Finset.mem_union.trans (or_congr_right ?_))
    rw [List.mem_toFinset, map_pk_hostUpdates hmatching, mem_pks_foundRows hmatching]

def Creatable (env : Surroundings) (mem : MemInventory) (found : List (ℕ × String)) : Prop :=
  ∀ host ∈ mem.hosts, host.name ∉ found.map Prod.snd →
    hasJinja host.name = false ∧ describe env host.vars ≠ none

theorem isSome_createHost {host : MemHost} : (createHost env options db host).isSome = true ↔
    hasJinja host.name = false ∧ describe env host.vars ≠ none := by
  rw [createHost]
  by_cases hjinja : hasJinja host.name = true
  · rw [if_pos hjinja, hjinja]
    exact ⟨fun hsome => absurd hsome Bool.false_ne_true, fun hfalse => absurd hfalse.1.symm
      Bool.false_ne_true⟩
  · rw [if_neg hjinja, Option.isSome_map, Option.isSome_iff_ne_none,
      and_iff_right (Bool.eq_false_of_not_eq_true hjinja)]

theorem isSome_createHosts (hmatching : Matching mem db found) :
    ((hostsToCreate env options mem db found).foldlM (createHost env options) db').isSome = true ↔
      Creatable env mem found := by
  have hstep : ∀ middle, ∀ host ∈ hostsToCreate env options mem db found,
      (createHost env options middle host).isSome = true ↔
        hasJinja host.name = false ∧ describe env host.vars ≠ none :=
    fun _ _ _ => isSome_createHost
  rw [Runs.isSome_foldlM hstep]
  constructor
  · exact fun hall host hhost hnew => hall host ((mem_hostsToCreate hmatching).mpr ⟨hhost, hnew⟩)
  · intro hall host hhost
    obtain ⟨hmem, hnew⟩ := (mem_hostsToCreate hmatching).mp hhost
    exact hall host hmem hnew

theorem isSome_createUpdateHosts (hkeyed : db.Keyed) (hmatching : Matching mem db found) :
    (createUpdateHosts env options mem db found).isSome = true ↔
      Renamable env db found ∧ Creatable env mem found := by
  constructor
  · intro hsome
    obtain ⟨db', hdb'⟩ := Option.isSome_iff_exists.mp hsome
    obtain ⟨middle, hmiddle, -⟩ := Option.bind_eq_some_iff.mp hdb'
    obtain ⟨hosts, hhosts, -⟩ := Option.map_eq_some_iff.mp hmiddle
    have hpks : ((hostUpdates env options mem db found).map Host.pk).Nodup := by
      rw [map_pk_hostUpdates hmatching]
      exact nodup_foundRows hkeyed hmatching.keys
    have hrenamable := (savable_hostUpdates_iff hkeyed hmatching).mp
      (UniqueRows.savable_of_foldlM hpks (nodup_names_hostUpdates hkeyed hmatching) hhosts)
    rw [createUpdateHosts_eq hkeyed hmatching hrenamable, isSome_createHosts hmatching] at hsome
    exact ⟨hrenamable, hsome⟩
  · rintro ⟨hrenamable, hcreatable⟩
    rw [createUpdateHosts_eq hkeyed hmatching hrenamable, isSome_createHosts hmatching]
    exact hcreatable

theorem hostsImported_of_createUpdateHosts (hkeyed : db.Keyed) (hmatching : Matching mem db found)
    (hrun : createUpdateHosts env options mem db found = some db') :
    HostsImported env options mem found db db' := by
  have hsome : (createUpdateHosts env options mem db found).isSome = true := by
    rw [hrun]
    rfl
  obtain ⟨hrenamable, -⟩ := (isSome_createUpdateHosts hkeyed hmatching).mp hsome
  rw [createUpdateHosts_eq hkeyed hmatching hrenamable] at hrun
  exact hostsImported_of_foldlM hkeyed hmatching hrenamable hrun

end Forail.InventoryImport

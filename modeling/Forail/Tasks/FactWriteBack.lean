import Forail.Tasks.Facts

/-!
# What is written back to the facts of a host

A file that `start_fact_cache` has written is never newer than the last one, so only
the playbook makes the facts of a host change.  A missing file is another matter: it
clears the facts also of a host for which no file was written at all.
-/

namespace Forail.Facts

open Forail.Json

structure FileOpened (files : FileSystem) (destination : Path) (timeout : ℕ)
    (env : Environment) (index : ℕ) (host : Host) : Prop where
  current : expired timeout (env.now index) host = false
  inside : inDestination files destination (filepath destination host.name) = true
  opened : env.attempt index ≠ .notOpened

def FileWritten (files : FileSystem) (destination : Path) (timeout : ℕ)
    (env : Environment) (hosts : List Host) (path : Path) : Prop :=
  ∃ host index, (host, index) ∈ hosts.zipIdx ∧
    FileOpened files destination timeout env index host ∧
    files.realpath (filepath destination host.name) = files.realpath path

def Job.Written (job : Job) (host : HostId) : Prop :=
  FileWritten job.files.toFileSystem job.destination
    (job.timeout.getD job.settingsTimeout) job.env (job.hosts.map job.table) (job.path host)

/-- The facts are replaced by what the playbook has written to the file of the host,
and cleared when it has removed the file that was written before. -/
structure WrittenBack (job : Job) : Prop where
  updated : ∀ host facts modified, ⟨host, .updated facts, modified⟩ ∈ job.finished.stored →
    ∃ entry, job.after.entry (job.path host) = some entry ∧ entry.content = .json facts ∧
      job.started.1.entry (job.path host) ≠ some entry
  cleared : ∀ host modified, ⟨host, .cleared, modified⟩ ∈ job.finished.stored →
    job.Written host ∧ job.started.1.entry (job.path host) ≠ none ∧
      job.after.entry (job.path host) = none
  unchanged : ∀ host, (∀ update ∈ job.finished.stored, update.host ≠ host) →
    job.finished.table job.table host = job.table host

def MissingWritten (job : Job) : Prop :=
  ∀ host ∈ job.hosts, inDestination job.after job.destination (job.path host) = true →
    job.after.entry (job.path host) = none → job.Written host

/-! ## The files before the job -/

section Start

variable {files : NewFileSystem} {destination : Path} {timeout : ℕ} {env : Environment}
  {done hosts : List Host} {state : StartState} {host : Host} {index : ℕ}

theorem startHost_of_not_opened
    (hopened : ¬ FileOpened state.files destination timeout env index host) :
    startHost destination timeout env state index host = state := by
  rw [startHost]
  split
  · rfl
  · next hcurrent =>
    split
    · rfl
    · next hinside =>
      have hattempt : env.attempt index = .notOpened := by
        by_contra hattempt
        exact hopened ⟨Bool.eq_false_iff.mpr hcurrent, not_not.mp hinside, hattempt⟩
      rw [hattempt]

/-- The text of an opened file is that of the facts, and the file the one written last,
unless the text is cut short. -/
theorem startHost_of_opened (hopened : FileOpened state.files destination timeout env index host) :
    ∃ content last, content ≠ .unreadable ∧
      startHost destination timeout env state index host =
        ⟨state.files.write (filepath destination host.name) ⟨content, env.clock.time index⟩,
          last⟩ ∧
      (last = some (filepath destination host.name) ∨
        content = .notJson ∧ last = state.lastFilepathWritten) := by
  rw [startHost, if_neg (by simp [hopened.current]), if_neg (by simp [hopened.inside])]
  cases hattempt : env.attempt index with
  | notOpened => exact absurd hattempt hopened.opened
  | cutShort => exact ⟨.notJson, _, nofun, rfl, .inr ⟨rfl, rfl⟩⟩
  | written => exact ⟨.json host.ansibleFacts, _, nofun, rfl, .inl rfl⟩

/-- The files after the hosts `done`: no facts are newer than the file written last. -/
structure Started (files : NewFileSystem) (destination : Path) (timeout : ℕ)
    (env : Environment) (done : List Host) (state : StartState) : Prop where
  realpath : state.files.realpath = files.realpath
  present : ∀ path,
    FileWritten files.toFileSystem destination timeout env done path →
      state.files.entry path ≠ none
  earlier : ∀ path entry, state.files.entries path = some entry →
    entry.content ≠ .unreadable → entry.modified ≤ env.clock.time done.length
  newest : ∀ path entry facts, state.files.entries path = some entry →
    entry.content = .json facts → ∃ last, entry.modified ≤ last.modified ∧ 0 < last.modified ∧
      state.lastFilepathWritten.bind state.files.entry = some last

theorem started_nil :
    Started files destination timeout env [] ⟨files.toFileSystem, none⟩ where
  realpath := rfl
  present := by
    rintro path ⟨host, index, hhost, -⟩
    exact absurd hhost List.not_mem_nil
  earlier path entry hentry hreadable := absurd (files.no_files path entry hentry) hreadable
  newest path entry facts hentry hjson := by
    rw [files.no_files path entry hentry] at hjson
    contradiction

theorem fileWritten_concat {path : Path} :
    FileWritten files.toFileSystem destination timeout env (done ++ [host]) path ↔
      FileWritten files.toFileSystem destination timeout env done path ∨
        FileOpened files.toFileSystem destination timeout env done.length host ∧
          files.realpath (filepath destination host.name) = files.realpath path := by
  simp only [FileWritten, List.zipIdx_append, List.mem_append, List.zipIdx_singleton,
    List.mem_singleton, Prod.mk.injEq, Nat.zero_add]
  constructor
  · rintro ⟨other, index, hbefore | ⟨rfl, rfl⟩, hwritten⟩
    · exact .inl ⟨other, index, hbefore, hwritten⟩
    · exact .inr hwritten
  · rintro (⟨other, index, hbefore, hwritten⟩ | hwritten)
    · exact ⟨other, index, .inl hbefore, hwritten⟩
    · exact ⟨host, done.length, .inr ⟨rfl, rfl⟩, hwritten⟩

theorem fileOpened_congr {other : FileSystem} (hrealpath : other.realpath = files.realpath) :
    FileOpened other destination timeout env index host ↔
      FileOpened files.toFileSystem destination timeout env index host := by
  have hinside : inDestination other destination (filepath destination host.name) =
      inDestination files.toFileSystem destination (filepath destination host.name) := by
    rw [inDestination, inDestination, hrealpath]
  constructor
  · rintro ⟨hcurrent, hin, hattempt⟩
    exact ⟨hcurrent, hinside ▸ hin, hattempt⟩
  · rintro ⟨hcurrent, hin, hattempt⟩
    exact ⟨hcurrent, hinside ▸ hin, hattempt⟩

theorem last_write {path : Path} {entry last : Entry} {lastPath : Option Path}
    (hlast : state.lastFilepathWritten.bind state.files.entry = some last)
    (hpath : lastPath = some path ∨ lastPath = state.lastFilepathWritten) :
    ∃ found, (found = entry ∨ found = last) ∧
      lastPath.bind (state.files.write path entry).entry = some found := by
  obtain rfl | rfl := hpath
  · exact ⟨entry, .inl rfl, FileSystem.entry_write rfl⟩
  · obtain ⟨written, hwritten, hentry⟩ := Option.bind_eq_some_iff.mp hlast
    rw [hwritten, Option.bind_some]
    by_cases hsame : state.files.realpath written = state.files.realpath path
    · exact ⟨entry, .inl rfl, FileSystem.entry_write hsame⟩
    · rw [FileSystem.entry_write_of_ne hsame]
      exact ⟨last, .inr rfl, hentry⟩

theorem Started.opened (hstarted : Started files destination timeout env done state)
    (hopened : FileOpened state.files destination timeout env done.length host) :
    Started files destination timeout env (done ++ [host])
      (startHost destination timeout env state done.length host) := by
  obtain ⟨content, last, hreadable, hstart, hlast⟩ := startHost_of_opened hopened
  have hlater : env.clock.time done.length ≤ env.clock.time (done ++ [host]).length := by
    apply env.clock.monotone
    simp
  rw [hstart]
  refine ⟨hstarted.realpath, fun path hwritten => ?_, fun place entry hentry hcontent => ?_,
    fun place entry facts hentry hjson => ?_⟩
  · by_cases hsame : state.files.realpath path =
        state.files.realpath (filepath destination host.name)
    · simp [FileSystem.entry_write hsame]
    · simp only [ne_eq, FileSystem.entry_write_of_ne hsame]
      obtain hbefore | ⟨-, hpath⟩ := fileWritten_concat.mp hwritten
      · exact hstarted.present path hbefore
      · rw [← hstarted.realpath] at hpath
        exact absurd hpath.symm hsame
  · obtain rfl | hbefore := FileSystem.entries_write hentry
    · exact hlater
    · exact (hstarted.earlier place entry hbefore hcontent).trans hlater
  · obtain rfl | hbefore := FileSystem.entries_write hentry
    · obtain rfl | ⟨hnot, -⟩ := hlast
      · exact ⟨_, le_rfl, env.clock.pos _, FileSystem.entry_write rfl⟩
      · rw [hnot] at hjson
        contradiction
    · have hearlier := hstarted.earlier place entry hbefore (by simp [hjson])
      obtain ⟨old, hold, hpos, hfound⟩ := hstarted.newest place entry facts hbefore hjson
      obtain ⟨found, rfl | rfl, hfound⟩ := last_write hfound (hlast.imp_right And.right)
      · exact ⟨_, hearlier, env.clock.pos _, hfound⟩
      · exact ⟨found, hold, hpos, hfound⟩

theorem Started.not_opened (hstarted : Started files destination timeout env done state)
    (hopened : ¬ FileOpened state.files destination timeout env done.length host) :
    Started files destination timeout env (done ++ [host])
      (startHost destination timeout env state done.length host) := by
  have hlater : env.clock.time done.length ≤ env.clock.time (done ++ [host]).length := by
    apply env.clock.monotone
    simp
  rw [startHost_of_not_opened hopened]
  refine ⟨hstarted.realpath, fun path hwritten => ?_, fun path entry hentry hcontent =>
    (hstarted.earlier path entry hentry hcontent).trans hlater, hstarted.newest⟩
  obtain hbefore | ⟨hnow, -⟩ := fileWritten_concat.mp hwritten
  · exact hstarted.present path hbefore
  · exact absurd ((fileOpened_congr hstarted.realpath).mpr hnow) hopened

theorem started_hosts (hstarted : Started files destination timeout env done state) :
    Started files destination timeout env (done ++ hosts)
      (startHosts destination timeout env state done.length hosts) := by
  induction hosts generalizing done state with
  | nil =>
    rw [List.append_nil]
    exact hstarted
  | cons host hosts ih =>
    have hstep : Started files destination timeout env (done ++ [host])
        (startHost destination timeout env state done.length host) := by
      by_cases hopened : FileOpened state.files destination timeout env done.length host
      · exact hstarted.opened hopened
      · exact hstarted.not_opened hopened
    have hrest := ih hstep
    rw [List.append_assoc, List.length_append] at hrest
    exact hrest

end Start

/-! ## The files after the job -/

section Finish

variable {table : HostId → Host} {files : FileSystem} {destination : Path}
  {factsWriteTime : Option Time} {database : Database} {done hosts : List HostId}
  {state : FinishState} {host : HostId} {index : ℕ} {name : String}

theorem writeBack_updated {facts : Value}
    (hupdated : writeBack files destination factsWriteTime name = .change (.updated facts)) :
    ∃ entry, files.entry (filepath destination name) = some entry ∧
      entry.content = .json facts ∧
      (factsWriteTime.getD 0 = 0 ∨ factsWriteTime.getD 0 < entry.modified) := by
  rw [writeBack] at hupdated
  split at hupdated
  · contradiction
  · split at hupdated
    · simp at hupdated
    · next entry hentry =>
      split at hupdated
      · next hnewer =>
        split at hupdated
        · next hjson =>
          simp only [Decision.change.injEq, Change.updated.injEq] at hupdated
          exact ⟨entry, hentry, hupdated ▸ hjson, hnewer⟩
        · contradiction
        · contradiction
      · contradiction

theorem writeBack_cleared_iff :
    writeBack files destination factsWriteTime name = .change .cleared ↔
      inDestination files destination (filepath destination name) = true ∧
        files.entry (filepath destination name) = none := by
  rw [writeBack]
  split
  · next houtside => simp [houtside]
  · next hinside =>
    have hinside := not_not.mp hinside
    cases hentry : files.entry (filepath destination name) with
    | none => simp [hinside]
    | some entry =>
      simp only [reduceCtorEq, and_false, iff_false]
      split
      · split <;> simp
      · simp

/-- The changes that are stored or wait for it are those of the hosts `done`. -/
structure Finished (table : HostId → Host) (files : FileSystem) (destination : Path)
    (factsWriteTime : Option Time) (done : List HostId) (state : FinishState) : Prop where
  sound : ∀ update ∈ state.stored ++ state.hostsToUpdate, update.host ∈ done ∧
    writeBack files destination factsWriteTime (table update.host).name = .change update.change
  complete : state.raised = false → ∀ host ∈ done, ∀ change,
    writeBack files destination factsWriteTime (table host).name = .change change →
      ∃ modified, ⟨host, change, modified⟩ ∈ state.stored ++ state.hostsToUpdate

theorem updateHosts_cases (maxTries : ℕ) (answers : ℕ → Bool) (state : FinishState) :
    (state.updateHosts maxTries answers).stored ++
        (state.updateHosts maxTries answers).hostsToUpdate =
      state.stored ++ state.hostsToUpdate ∧
    ((state.updateHosts maxTries answers).raised = false →
      state.raised = false ∧ (state.updateHosts maxTries answers).hostsToUpdate = []) := by
  rw [FinishState.updateHosts]
  split
  · next hempty => exact ⟨rfl, fun hraised => ⟨hraised, List.isEmpty_iff.mp hempty⟩⟩
  · split
    · exact ⟨List.append_nil _, fun hraised => ⟨hraised, rfl⟩⟩
    · exact ⟨rfl, nofun⟩

section

variable (hfinished : Finished table files destination factsWriteTime done state)
include hfinished

theorem Finished.updateHosts {maxTries : ℕ} {answers : ℕ → Bool} :
    Finished table files destination factsWriteTime done
      (state.updateHosts maxTries answers) := by
  obtain ⟨hsame, hraised⟩ := updateHosts_cases maxTries answers state
  exact ⟨hsame.symm ▸ hfinished.sound,
    fun hreturns => hsame.symm ▸ hfinished.complete (hraised hreturns).1⟩

theorem Finished.updateBatch {answers : ℕ → Bool} :
    Finished table files destination factsWriteTime done (state.updateBatch answers) := by
  rw [FinishState.updateBatch]
  split
  · exact hfinished.updateHosts
  · exact hfinished

theorem Finished.concat (hnone : state.raised = false → ∀ change,
      writeBack files destination factsWriteTime (table host).name ≠ .change change) :
    Finished table files destination factsWriteTime (done ++ [host]) state where
  sound update hmem := by
    obtain ⟨hdone, hchange⟩ := hfinished.sound update hmem
    exact ⟨List.mem_append_left _ hdone, hchange⟩
  complete hreturns other hother change hchange := by
    obtain hbefore | hlast := List.mem_append.mp hother
    · exact hfinished.complete hreturns other hbefore change hchange
    · rw [List.mem_singleton.mp hlast] at hchange
      exact absurd hchange (hnone hreturns change)

theorem Finished.push {change : Change} {modified : Time}
    (hchange : writeBack files destination factsWriteTime (table host).name = .change change) :
    Finished table files destination factsWriteTime (done ++ [host])
      { state with hostsToUpdate := state.hostsToUpdate ++ [⟨host, change, modified⟩] } where
  sound update hmem := by
    rw [← List.append_assoc] at hmem
    obtain hbefore | hlast := List.mem_append.mp hmem
    · obtain ⟨hdone, hupdate⟩ := hfinished.sound update hbefore
      exact ⟨List.mem_append_left _ hdone, hupdate⟩
    · rw [List.mem_singleton.mp hlast]
      exact ⟨List.mem_append_right _ List.mem_cons_self, hchange⟩
  complete hreturns other hother found hfound := by
    rw [← List.append_assoc]
    obtain hbefore | hlast := List.mem_append.mp hother
    · obtain ⟨time, hmem⟩ := hfinished.complete hreturns other hbefore found hfound
      exact ⟨time, List.mem_append_left _ hmem⟩
    · obtain rfl := List.mem_singleton.mp hlast
      obtain rfl := Decision.change.inj (hchange.symm.trans hfound)
      exact ⟨modified, List.mem_append_right _ List.mem_cons_self⟩

theorem finished_step :
    Finished table files destination factsWriteTime (done ++ [host])
      (finishHost table files destination factsWriteTime database state index host) := by
  rw [finishHost]
  split
  · next hraised =>
    apply hfinished.concat
    intro hreturns
    rw [hraised] at hreturns
    contradiction
  · cases hdecision : writeBack files destination factsWriteTime (table host).name with
    | skip => exact hfinished.concat fun _ change => by simp [hdecision]
    | unmodified =>
      exact (hfinished.concat fun _ change => by simp [hdecision]).updateBatch
    | change change => exact (hfinished.push hdecision).updateBatch
    | raise =>
      have hunchanged : Finished table files destination factsWriteTime (done ++ [host]) state :=
        hfinished.concat fun _ change => by simp [hdecision]
      exact ⟨hunchanged.sound, nofun⟩

theorem finished_hosts :
    Finished table files destination factsWriteTime (done ++ hosts)
      (finishHosts table files destination factsWriteTime database state index hosts) := by
  induction hosts generalizing done state index with
  | nil =>
    rw [List.append_nil, finishHosts]
    split
    · exact hfinished
    · exact hfinished.updateHosts
  | cons host hosts ih =>
    rw [finishHosts, ← List.singleton_append, ← List.append_assoc]
    exact ih (finished_step hfinished)

end

theorem hostsToUpdate_nil
    (hreturns : (finishHosts table files destination factsWriteTime database state index
      hosts).raised = false) :
    (finishHosts table files destination factsWriteTime database state index
      hosts).hostsToUpdate = [] := by
  induction hosts generalizing state index with
  | nil =>
    rw [finishHosts] at hreturns ⊢
    split at hreturns
    · next hraised =>
      rw [hraised] at hreturns
      contradiction
    · next hraised =>
      rw [if_neg hraised]
      exact ((updateHosts_cases _ _ _).2 hreturns).2
  | cons host hosts ih =>
    rw [finishHosts] at hreturns ⊢
    exact ih hreturns

theorem foldl_apply_of_not_mem {updates : List Update}
    (hmem : ∀ update ∈ updates, update.host ≠ host) :
    updates.foldl Update.apply table host = table host := by
  induction updates generalizing table with
  | nil => rfl
  | cons update updates ih =>
    rw [List.foldl_cons, ih fun other hother => hmem other (List.mem_cons_of_mem _ hother),
      Update.apply]
    exact Function.update_of_ne (hmem update List.mem_cons_self).symm _ _

end Finish

/-! ## The whole job -/

section Job

variable {job : Job} {host : HostId}

theorem started_job (job : Job) :
    ∃ state, Started job.files job.destination (job.timeout.getD job.settingsTimeout) job.env
      (job.hosts.map job.table) state ∧ job.started.1 = state.files ∧
        job.started.2 = (state.lastFilepathWritten.bind state.files.entry).map Entry.modified :=
  ⟨_, started_hosts started_nil, rfl, rfl⟩

theorem not_newer {path : Path} {entry : Entry} {facts : Value}
    (hentry : job.started.1.entry path = some entry) (hjson : entry.content = .json facts) :
    ¬ (job.started.2.getD 0 = 0 ∨ job.started.2.getD 0 < entry.modified) := by
  obtain ⟨state, hstarted, hfiles, htime⟩ := started_job job
  rw [hfiles] at hentry
  obtain ⟨last, hle, hpos, hlast⟩ := hstarted.newest _ entry facts hentry hjson
  rw [htime, hlast, Option.map_some, Option.getD_some]
  rintro (hzero | hnewer)
  · exact absurd hzero hpos.ne'
  · exact absurd hnewer hle.not_gt

theorem finished_job (job : Job) :
    Finished job.table job.after job.destination job.started.2 job.hosts job.finished := by
  have hnil : Finished job.table job.after job.destination job.started.2 []
      ⟨[], [], false⟩ :=
    ⟨fun _ hmem => absurd hmem List.not_mem_nil, fun _ _ hmem => absurd hmem List.not_mem_nil⟩
  exact finished_hosts hnil

theorem writtenBack_of_missingWritten (hmissing : MissingWritten job) : WrittenBack job where
  updated host facts modified hmem := by
    obtain ⟨-, hchange⟩ := (finished_job job).sound _ (List.mem_append_left _ hmem)
    obtain ⟨entry, hentry, hjson, hnewer⟩ := writeBack_updated hchange
    exact ⟨entry, hentry, hjson, fun hbefore => not_newer hbefore hjson hnewer⟩
  cleared host modified hmem := by
    obtain ⟨hhost, hchange⟩ := (finished_job job).sound _ (List.mem_append_left _ hmem)
    obtain ⟨hinside, hnone⟩ := writeBack_cleared_iff.mp hchange
    have hwritten : job.Written host := hmissing host hhost hinside hnone
    obtain ⟨state, hstarted, hfiles, -⟩ := started_job job
    exact ⟨hwritten, hfiles ▸ hstarted.present _ hwritten, hnone⟩
  unchanged host hmem := foldl_apply_of_not_mem hmem

theorem WrittenBack.missingWritten (hback : WrittenBack job)
    (hreturns : job.finished.raised = false) : MissingWritten job := by
  intro host hhost hinside hnone
  have hcleared : writeBack job.after job.destination job.started.2 (job.table host).name =
      .change .cleared := writeBack_cleared_iff.mpr ⟨hinside, hnone⟩
  obtain ⟨modified, hmem⟩ := (finished_job job).complete hreturns host hhost _ hcleared
  have hstored : job.finished.hostsToUpdate = [] := hostsToUpdate_nil hreturns
  rw [hstored, List.append_nil] at hmem
  exact (hback.cleared host modified hmem).1

/-- The facts are written back right whenever every missing file was written before the
job, and when nothing raises only then. -/
theorem written_back_iff (job : Job) :
    (MissingWritten job → WrittenBack job) ∧
      (job.finished.raised = false → (WrittenBack job ↔ MissingWritten job)) :=
  ⟨writtenBack_of_missingWritten, fun hreturns =>
    ⟨fun hback => hback.missingWritten hreturns, writtenBack_of_missingWritten⟩⟩

end Job

def expiredJob : Job where
  destination := "/cache"
  files := ⟨⟨id, fun _ => none⟩, nofun⟩
  settingsTimeout := 1
  timeout := none
  table _ := ⟨"web1", .dict [("os", .str "linux")], some 0⟩
  hosts := [0]
  env := ⟨fun _ => 2000000, ⟨fun _ => 2000000, fun _ _ _ => le_rfl, fun _ => by decide⟩,
    fun _ => .written⟩
  after := ⟨id, fun _ => none⟩
  database := ⟨fun _ => 3000000, fun _ _ => true⟩

theorem expired_facts_cleared : ¬ ∀ job : Job, WrittenBack job := by
  intro hclaim
  have hstored : expiredJob.finished.stored = [⟨0, .cleared, 3000000⟩] := by rfl
  have hmem : ⟨0, .cleared, 3000000⟩ ∈ expiredJob.finished.stored := by
    rw [hstored]
    exact List.mem_cons_self
  exact ((hclaim expiredJob).cleared 0 3000000 hmem).2.1 rfl

end Forail.Facts

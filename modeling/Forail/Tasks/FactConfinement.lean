import Forail.Tasks.Facts
import Mathlib.Data.List.Basic

/-!
# Files outside of the fact cache

The path of a fact file is resolved and must begin with the text of the destination.
A sibling whose name begins with the name of the destination passes this test as well.
-/

namespace Forail.FactConfinement

open Forail.Json Forail.Facts

/-! ## Places below a directory -/

def segments (path : Path) : List (List Char) :=
  (path.toList.splitOn '/').filter fun segment => decide (segment ≠ [])

def Inside (directory place : Path) : Prop :=
  ∃ rest, rest ≠ [] ∧ segments place = segments directory ++ rest

variable (realpath : Path → Path) (destination : Path)

/-- Two trees of files that differ neither inside the destination nor in the entry of
the directory itself. -/
def AgreeInside (first second : Path → Option Entry) : Prop :=
  first (realpath destination) = second (realpath destination) ∧
    ∀ place, Inside (realpath destination) place → first place = second place

def KeepsDirectory (env : Environment) (hosts : List Host) : Prop :=
  ∀ index host, hosts[index]? = some host →
    realpath (filepath destination host.name) = realpath destination →
      env.attempt index = .notOpened

/-- Whatever the files are, writing the facts of the hosts leaves every place outside
of the destination as it is, and reading them does not depend on these places. -/
structure Confined (table : HostId → Host) (hosts : List HostId) : Prop where
  writes : ∀ (timeout : ℕ) (env : Environment) (entries : Path → Option Entry),
    KeepsDirectory realpath destination env (hosts.map table) →
      ∀ place, ¬ Inside (realpath destination) place →
        (startHosts destination timeout env ⟨⟨realpath, entries⟩, none⟩ 0
          (hosts.map table)).files.entries place = entries place
  reads : ∀ (factsWriteTime : Option Time) (database : Database)
    (first second : Path → Option Entry), AgreeInside realpath destination first second →
      finishFactCache table ⟨realpath, first⟩ destination factsWriteTime database hosts =
        finishFactCache table ⟨realpath, second⟩ destination factsWriteTime database hosts

/-- What begins with the text of the destination is the destination or below it. -/
def ResolvesInside (name : String) : Prop :=
  destination.toList.isPrefixOf (realpath (filepath destination name)).toList = true →
    realpath (filepath destination name) = realpath destination ∨
      Inside (realpath destination) (realpath (filepath destination name))

variable {realpath destination}

/-! ## Writing -/

section Writing

variable {timeout : ℕ} {env : Environment} {state : StartState} {index : ℕ} {host : Host}

theorem realpath_startHost :
    (startHost destination timeout env state index host).files.realpath = state.files.realpath := by
  rw [startHost]
  split
  · rfl
  · split
    · rfl
    · split <;> rfl

/-- Only the place of the host's path is written, and only after its test and when the
file could be opened. -/
theorem entries_startHost {place : Path}
    (hwritten : (startHost destination timeout env state index host).files.entries place ≠
      state.files.entries place) :
    place = state.files.realpath (filepath destination host.name) ∧
      inDestination state.files destination (filepath destination host.name) = true ∧
      env.attempt index ≠ .notOpened := by
  have hplace : ∀ entry : Entry,
      (state.files.write (filepath destination host.name) entry).entries place ≠
        state.files.entries place →
      place = state.files.realpath (filepath destination host.name) := by
    intro entry hne
    by_contra hother
    exact hne (Function.update_of_ne hother _ _)
  rw [startHost] at hwritten
  split at hwritten
  · exact absurd rfl hwritten
  · split at hwritten
    · exact absurd rfl hwritten
    · next hinside =>
      refine ⟨?_, not_not.mp hinside, ?_⟩
      · split at hwritten
        · exact absurd rfl hwritten
        · exact hplace _ hwritten
        · exact hplace _ hwritten
      · intro hattempt
        rw [hattempt] at hwritten
        exact hwritten rfl

theorem entries_startHosts (hosts : List Host) {place : Path}
    (hinside : ∀ host ∈ hosts, ResolvesInside state.files.realpath destination host.name)
    (hdirectory : ∀ later host, hosts[later]? = some host →
      state.files.realpath (filepath destination host.name) = state.files.realpath destination →
        env.attempt (index + later) = .notOpened)
    (hplace : ¬ Inside (state.files.realpath destination) place) :
    (startHosts destination timeout env state index hosts).files.entries place =
      state.files.entries place := by
  induction hosts generalizing state index with
  | nil => rfl
  | cons host hosts ih =>
    have hfirst : (startHost destination timeout env state index host).files.entries place =
        state.files.entries place := by
      by_contra hwritten
      obtain ⟨rfl, htest, hopened⟩ := entries_startHost hwritten
      cases hinside host List.mem_cons_self htest with
      | inl hself => exact hopened (hdirectory 0 host rfl hself)
      | inr hbelow => exact hplace hbelow
    rw [startHosts, ← hfirst]
    have hrealpath : (startHost destination timeout env state index host).files.realpath =
        state.files.realpath := realpath_startHost
    refine ih ?_ ?_ ?_
    · rw [hrealpath]
      exact fun other hother => hinside other (List.mem_cons_of_mem host hother)
    · rw [hrealpath]
      intro later other hother hself
      have hattempt := hdirectory (later + 1) other hother hself
      rwa [Nat.add_comm later 1, ← Nat.add_assoc] at hattempt
    · rwa [hrealpath]

end Writing

/-! ## Reading -/

section Reading

variable {table : HostId → Host} {factsWriteTime : Option Time} {database : Database}
  {first second : Path → Option Entry}

theorem writeBack_agree (hagree : AgreeInside realpath destination first second) {name : String}
    (hinside : ResolvesInside realpath destination name) :
    writeBack ⟨realpath, first⟩ destination factsWriteTime name =
      writeBack ⟨realpath, second⟩ destination factsWriteTime name := by
  rw [writeBack, writeBack]
  by_cases htest : destination.toList.isPrefixOf
      (realpath (filepath destination name)).toList = true
  · have hentry : FileSystem.entry ⟨realpath, first⟩ (filepath destination name) =
        FileSystem.entry ⟨realpath, second⟩ (filepath destination name) := by
      cases hinside htest with
      | inl hself =>
        simp only [FileSystem.entry, hself]
        exact hagree.1
      | inr hbelow => exact hagree.2 _ hbelow
    rw [hentry]
    rfl
  · exact (if_pos htest).trans (if_pos htest).symm

theorem finishHosts_congr {files other : FileSystem} (state : FinishState) (index : ℕ)
    {hosts : List HostId}
    (hsame : ∀ host ∈ hosts, writeBack files destination factsWriteTime (table host).name =
      writeBack other destination factsWriteTime (table host).name) :
    finishHosts table files destination factsWriteTime database state index hosts =
      finishHosts table other destination factsWriteTime database state index hosts := by
  induction hosts generalizing state index with
  | nil => rfl
  | cons host hosts ih =>
    have hhost : finishHost table files destination factsWriteTime database state index host =
        finishHost table other destination factsWriteTime database state index host := by
      rw [finishHost, finishHost, hsame host List.mem_cons_self]
    rw [finishHosts, finishHosts, hhost]
    exact ih _ _ fun later hlater => hsame later (List.mem_cons_of_mem host hlater)

theorem finishHosts_of_raised {files : FileSystem} {state : FinishState} {index : ℕ}
    {hosts : List HostId} (hraised : state.raised = true) :
    (finishHosts table files destination factsWriteTime database state index hosts).raised =
      true := by
  induction hosts generalizing index with
  | nil => rwa [finishHosts, if_pos hraised]
  | cons host hosts ih =>
    have hstop : finishHost table files destination factsWriteTime database state index host =
        state := if_pos hraised
    rw [finishHosts, hstop]
    exact ih

theorem finishHosts_of_raising {files : FileSystem} {state : FinishState} {index : ℕ}
    {hosts : List HostId} {host : HostId} (hhost : host ∈ hosts)
    (hraise : writeBack files destination factsWriteTime (table host).name = .raise) :
    (finishHosts table files destination factsWriteTime database state index hosts).raised =
      true := by
  induction hosts generalizing state index with
  | nil => exact absurd hhost List.not_mem_nil
  | cons other hosts ih =>
    cases List.mem_cons.mp hhost with
    | inl hfirst =>
      subst hfirst
      rw [finishHosts]
      refine finishHosts_of_raised ?_
      rw [finishHost]
      split
      · next hraised => exact hraised
      · rw [hraise]
    | inr hlater => exact ih hlater

theorem finishHosts_empty (hosts : List HostId) {state : FinishState} (index : ℕ)
    (hraised : state.raised = false) :
    (finishHosts table ⟨realpath, fun _ => none⟩ destination factsWriteTime
      ⟨fun _ => 0, fun _ _ => true⟩ state index hosts).raised = false := by
  have hupdate : ∀ state : FinishState, state.raised = false →
      (state.updateHosts 5 fun _ => true).raised = false := by
    intro state hraised
    rw [FinishState.updateHosts]
    split
    · exact hraised
    · exact hraised
  have hbatch : ∀ state : FinishState, state.raised = false →
      (state.updateBatch fun _ => true).raised = false := by
    intro state hraised
    rw [FinishState.updateBatch]
    split
    · exact hupdate state hraised
    · exact hraised
  induction hosts generalizing state index with
  | nil =>
    rw [finishHosts, if_neg (Bool.eq_false_iff.mp hraised)]
    exact hupdate state hraised
  | cons host hosts ih =>
    rw [finishHosts]
    refine ih (index + 1) ?_
    rw [finishHost, if_neg (Bool.eq_false_iff.mp hraised), writeBack]
    split
    · next hskip => exact hraised
    · next hskip => exact hbatch _ hraised
    · next hskip => exact hbatch _ hraised
    · next hraise =>
      split at hraise
      · exact Decision.noConfusion hraise
      · exact Decision.noConfusion hraise

end Reading

/-- The hosts of a job stay in the fact cache exactly when none of their paths resolves
to another place whose text begins with the destination. -/
theorem confined_iff (realpath : Path → Path) (destination : Path) (table : HostId → Host)
    (hosts : List HostId) :
    Confined realpath destination table hosts ↔
      ∀ host ∈ hosts, ResolvesInside realpath destination (table host).name := by
  constructor
  · intro hconfined host hhost htest
    by_contra houtside
    obtain ⟨hself, hbelow⟩ := not_or.mp houtside
    obtain ⟨place, hplace⟩ : ∃ place, realpath (filepath destination (table host).name) = place :=
      ⟨_, rfl⟩
    rw [hplace] at hself hbelow
    let unreadable : Path → Option Entry := Function.update (fun _ => none) place
      (some ⟨.unreadable, 0⟩)
    have hagree : AgreeInside realpath destination unreadable fun _ => none := by
      refine ⟨Function.update_of_ne (Ne.symm hself) _ _, fun other hother => ?_⟩
      refine Function.update_of_ne (fun hsame => hbelow ?_) _ _
      rwa [← hsame]
    have hsame := hconfined.reads none ⟨fun _ => 0, fun _ _ => true⟩ _ _ hagree
    have hraise : writeBack ⟨realpath, unreadable⟩ destination none (table host).name =
        .raise := by
      have hentry : FileSystem.entry ⟨realpath, unreadable⟩
          (filepath destination (table host).name) = some ⟨.unreadable, 0⟩ := by
        show unreadable (realpath (filepath destination (table host).name)) = _
        rw [hplace]
        exact Function.update_self _ _ _
      have htest : inDestination ⟨realpath, unreadable⟩ destination
          (filepath destination (table host).name) = true := htest
      rw [writeBack, if_neg (not_not_intro htest), hentry]
      rfl
    have hraised : (finishFactCache table ⟨realpath, unreadable⟩ destination none
        ⟨fun _ => 0, fun _ _ => true⟩ hosts).raised = true := finishHosts_of_raising hhost hraise
    have hreturns : (finishFactCache table ⟨realpath, fun _ => none⟩ destination none
        ⟨fun _ => 0, fun _ _ => true⟩ hosts).raised = false := finishHosts_empty hosts 0 rfl
    rw [hsame, hreturns] at hraised
    exact Bool.false_ne_true hraised
  · intro hinside
    constructor
    · intro timeout env entries hdirectory place hplace
      refine entries_startHosts (hosts.map table) ?_ ?_ hplace
      · intro host hhost
        obtain ⟨id, hid, rfl⟩ := List.mem_map.mp hhost
        exact hinside id hid
      · intro later host hhost hself
        rw [Nat.zero_add]
        exact hdirectory later host hhost hself
    · intro factsWriteTime database first second hagree
      exact finishHosts_congr _ _ fun host hhost => writeBack_agree hagree (hinside host hhost)

/-! ## A resolved destination -/

section Resolved

end Resolved

/-! ## A sibling of the destination -/

def resolveDots (done : List (List Char)) : List (List Char) → List (List Char)
  | [] => done.reverse
  | segment :: rest =>
      if segment = ['.'] then resolveDots done rest
      else if segment = ['.', '.'] then resolveDots done.tail rest
      else resolveDots (segment :: done) rest

def linkless (path : Path) : Path :=
  match resolveDots [] (segments path) with
  | [] => "/"
  | resolved => String.ofList (resolved.flatMap fun segment => '/' :: segment)

def siblingHost : HostId → Host := fun _ => ⟨"../fact_cache_evil/x", .dict [], none⟩

def siblingPlace : Path := "/run/1/fact_cache_evil/x"

def planted (place : Path) : Option Entry :=
  if place = siblingPlace then some ⟨.json .null, 1⟩ else none

theorem planted_sibling : planted siblingPlace = some ⟨.json .null, 1⟩ := if_pos rfl

theorem linkless_sibling :
    linkless (filepath "/run/1/fact_cache" "../fact_cache_evil/x") = siblingPlace := by
  decide +kernel

theorem sibling_read :
    ¬ ∀ (realpath : Path → Path) (destination : Path) (table : HostId → Host)
      (hosts : List HostId), Confined realpath destination table hosts := by
  intro hclaim
  have hsegments : segments siblingPlace =
      ["run".toList, "1".toList, "fact_cache_evil".toList, "x".toList] := by decide +kernel
  have hdirectory : segments (linkless "/run/1/fact_cache") =
      ["run".toList, "1".toList, "fact_cache".toList] := by decide +kernel
  have hagree : AgreeInside linkless "/run/1/fact_cache" planted fun _ => none := by
    constructor
    · exact if_neg (by decide +kernel)
    · intro place hinside
      refine if_neg fun hplace => ?_
      obtain ⟨rest, -, hrest⟩ := hinside
      rw [hplace, hsegments, hdirectory] at hrest
      have hthird : some "fact_cache_evil".toList = some "fact_cache".toList :=
        congrArg (fun segments => segments[2]?) hrest
      exact absurd hthird (by decide)
  have hsame := (hclaim linkless "/run/1/fact_cache" siblingHost [0]).reads none
    ⟨fun _ => 2, fun _ _ => true⟩ planted (fun _ => none) hagree
  have htest : ∀ entries, inDestination ⟨linkless, entries⟩ "/run/1/fact_cache"
      (filepath "/run/1/fact_cache" "../fact_cache_evil/x") = true := by
    intro entries
    rw [inDestination]
    dsimp only
    rw [linkless_sibling]
    decide +kernel
  have hplanted : writeBack ⟨linkless, planted⟩ "/run/1/fact_cache" none "../fact_cache_evil/x" =
      .change (.updated .null) := by
    have hentry : FileSystem.entry ⟨linkless, planted⟩
        (filepath "/run/1/fact_cache" "../fact_cache_evil/x") = some ⟨.json .null, 1⟩ :=
      (congrArg planted linkless_sibling).trans planted_sibling
    rw [writeBack, if_neg (not_not_intro (htest planted)), hentry]
    rfl
  have hmissing : writeBack ⟨linkless, fun _ => none⟩ "/run/1/fact_cache" none
      "../fact_cache_evil/x" = .change .cleared := by
    rw [writeBack, if_neg (not_not_intro (htest _))]
    rfl
  have hstored := congrArg FinishState.stored hsame
  simp only [finishFactCache, finishHosts, finishHost, siblingHost, hplanted, hmissing] at hstored
  have hchange : Change.updated .null = Change.cleared :=
    congrArg Update.change (List.cons.inj hstored).1
  exact Change.noConfusion hchange

end Forail.FactConfinement

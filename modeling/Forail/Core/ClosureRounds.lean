import Mathlib.Data.Finset.Card
import Mathlib.Data.Finset.SDiff
import Mathlib.Logic.Relation

/-!
# Closures in rounds

A set of vertices is to be checked.  Each round lists it in some order and checks every
vertex of the list: what the vertex holds is collected, and its successors that were not
checked are left for a later round.  The rounds end, whatever the orders are, and exactly the
vertices that are reached were checked.
-/

namespace Forail.ClosureRounds

open Relation

variable {V W : Type*}

/-- The order in which each round lists the set that it finds. -/
structure Orders (V : Type*) where
  list : ℕ → Finset V → List V
  nodup : ∀ round set, (list round set).Nodup
  mem_list : ∀ round set vertex, vertex ∈ list round set ↔ vertex ∈ set

structure Search (V W : Type*) where
  toCheck : Finset V
  checked : Finset V
  found : Finset W

variable (next : V → Finset V) (collect : V → Finset W)

def Reached (start : Finset V) (vertex : V) : Prop :=
  ∃ first ∈ start, ReflTransGen (fun source target => target ∈ next source) first vertex

/-- The checked vertices and those that are left are reached, and the successors of the
checked ones are among them. -/
structure Progress (start : Finset V) (before : Finset W) (search : Search V W) : Prop where
  covered : ∀ vertex ∈ start, vertex ∈ search.checked ∨ vertex ∈ search.toCheck
  closed : ∀ vertex ∈ search.checked, ∀ target ∈ next vertex,
    target ∈ search.checked ∨ target ∈ search.toCheck
  reached : ∀ vertex, vertex ∈ search.checked ∨ vertex ∈ search.toCheck → Reached next start vertex
  fresh : ∀ vertex ∈ search.toCheck, vertex ∉ search.checked
  mem_found : ∀ item, item ∈ search.found ↔
    item ∈ before ∨ ∃ vertex ∈ search.checked, item ∈ collect vertex

variable {next : V → Finset V} {collect : V → Finset W} {start support : Finset V}
  {before : Finset W} {search : Search V W}

theorem Progress.initial : Progress next collect start before ⟨start, ∅, before⟩ where
  covered := fun _ hvertex => .inr hvertex
  closed := fun _ hvertex => absurd hvertex (Finset.notMem_empty _)
  reached := fun vertex hvertex =>
    ⟨vertex, hvertex.resolve_left (Finset.notMem_empty _), .refl⟩
  fresh := fun _ _ => Finset.notMem_empty _
  mem_found := by simp

theorem Reached.mem_support {vertex : V} (hreached : Reached next start vertex)
    (hstart : start ⊆ support) (hnext : ∀ vertex ∈ support, next vertex ⊆ support) :
    vertex ∈ support := by
  obtain ⟨first, hfirst, hpath⟩ := hreached
  induction hpath with
  | refl => exact hstart hfirst
  | tail _ hstep ih => exact hnext _ ih hstep

theorem Progress.mem_checked_iff (hprogress : Progress next collect start before search)
    (hdone : search.toCheck = ∅) {vertex : V} :
    vertex ∈ search.checked ↔ Reached next start vertex := by
  have hchecked : ∀ {other}, other ∈ search.checked ∨ other ∈ search.toCheck →
      other ∈ search.checked := fun hother =>
    hother.resolve_right (hdone ▸ Finset.notMem_empty _)
  refine ⟨fun hvertex => hprogress.reached vertex (.inl hvertex), fun hreached => ?_⟩
  obtain ⟨first, hfirst, hpath⟩ := hreached
  induction hpath with
  | refl => exact hchecked (hprogress.covered first hfirst)
  | tail _ hstep ih => exact hchecked (hprogress.closed _ ih _ hstep)

variable [DecidableEq V] [DecidableEq W]

section

variable (next collect)

def check (search : Search V W) (vertex : V) : Option (Search V W) :=
  if vertex ∈ search.toCheck then
    let checked := insert vertex search.checked
    some ⟨search.toCheck.erase vertex ∪ next vertex \ checked, checked,
      search.found ∪ collect vertex⟩
  else none

def close (orders : Orders V) : ℕ → Search V W → Option (Finset W)
  | 0, _ => none
  | fuel + 1, search =>
      if search.toCheck = ∅ then some search.found
      else ((orders.list fuel search.toCheck).foldlM (check next collect) search).bind
        (close orders fuel)

end

theorem Progress.check (hprogress : Progress next collect start before search) {vertex : V}
    (hvertex : vertex ∈ search.toCheck) :
    ∃ search', check next collect search vertex = some search' ∧
      Progress next collect start before search' ∧
      search'.checked = insert vertex search.checked ∧
      ∀ other ∈ search.toCheck, other ≠ vertex → other ∈ search'.toCheck := by
  refine ⟨_, if_pos hvertex, ?_, rfl, fun other hother hne =>
    Finset.mem_union_left _ (Finset.mem_erase.mpr ⟨hne, hother⟩)⟩
  have hreached := hprogress.reached vertex (.inr hvertex)
  have hmem : ∀ other, (other ∈ insert vertex search.checked ∨
      other ∈ search.toCheck.erase vertex ∪ next vertex \ insert vertex search.checked) ↔
      (other ∈ search.checked ∨ other ∈ search.toCheck) ∨ other ∈ next vertex := by
    intro other
    by_cases hsame : other = vertex
    · subst hsame
      simp [hvertex]
    · simp only [Finset.mem_insert, Finset.mem_union, Finset.mem_erase, Finset.mem_sdiff]
      tauto
  constructor
  · exact fun other hother => (hmem other).mpr (.inl (hprogress.covered other hother))
  · intro source hsource target htarget
    refine (hmem target).mpr ?_
    cases Finset.mem_insert.mp hsource with
    | inl hsame => exact .inr (hsame ▸ htarget)
    | inr hbefore => exact .inl (hprogress.closed source hbefore target htarget)
  · intro other hother
    cases (hmem other).mp hother with
    | inl hbefore => exact hprogress.reached other hbefore
    | inr hnext =>
      obtain ⟨first, hfirst, hpath⟩ := hreached
      exact ⟨first, hfirst, hpath.tail hnext⟩
  · intro other hother
    cases Finset.mem_union.mp hother with
    | inl hleft =>
      obtain ⟨hne, hleft⟩ := Finset.mem_erase.mp hleft
      exact fun hchecked => (Finset.mem_insert.mp hchecked).elim hne (hprogress.fresh other hleft)
    | inr hnew => exact (Finset.mem_sdiff.mp hnew).2
  · intro item
    rw [Finset.mem_union, hprogress.mem_found, or_assoc, Finset.exists_mem_insert]
    exact or_congr_right or_comm

theorem Progress.round (hprogress : Progress next collect start before search) {listed : List V}
    (hnodup : listed.Nodup) (hlisted : ∀ vertex ∈ listed, vertex ∈ search.toCheck) :
    ∃ search', listed.foldlM (ClosureRounds.check next collect) search = some search' ∧
      Progress next collect start before search' ∧
      search'.checked = listed.toFinset ∪ search.checked := by
  induction listed generalizing search with
  | nil => exact ⟨search, rfl, hprogress, (Finset.empty_union _).symm⟩
  | cons vertex listed ih =>
    obtain ⟨hnew, hnodup⟩ := List.nodup_cons.mp hnodup
    obtain ⟨hvertex, hlisted⟩ := List.forall_mem_cons.mp hlisted
    obtain ⟨middle, hmiddle, hprogress', hchecked, hleft⟩ := hprogress.check hvertex
    obtain ⟨search', hround, hprogress'', hchecked'⟩ := ih hprogress' hnodup
      fun other hother => hleft other (hlisted other hother) fun hsame => hnew (hsame ▸ hother)
    refine ⟨search', ?_, hprogress'', ?_⟩
    · rw [List.foldlM_cons, hmiddle]
      exact hround
    · rw [hchecked', hchecked, List.toFinset_cons, Finset.insert_union, Finset.union_insert]

theorem Progress.close (hprogress : Progress next collect start before search)
    (hstart : start ⊆ support) (hnext : ∀ vertex ∈ support, next vertex ⊆ support)
    (orders : Orders V) {fuel : ℕ} (hfuel : (support \ search.checked).card < fuel) :
    ∃ found, ClosureRounds.close next collect orders fuel search = some found ∧
      ∀ item, item ∈ found ↔ item ∈ before ∨ ∃ vertex, Reached next start vertex ∧
        item ∈ collect vertex := by
  induction fuel generalizing search with
  | zero => exact absurd hfuel (Nat.not_lt_zero _)
  | succ fuel ih =>
    rw [ClosureRounds.close]
    by_cases hdone : search.toCheck = ∅
    · refine ⟨search.found, if_pos hdone, fun item => ?_⟩
      rw [hprogress.mem_found]
      exact or_congr_right (exists_congr fun vertex =>
        and_congr_left fun _ => hprogress.mem_checked_iff hdone)
    · obtain ⟨search', hround, hprogress', hchecked⟩ := hprogress.round
        (orders.nodup fuel search.toCheck) fun vertex => (orders.mem_list _ _ vertex).mp
      obtain ⟨vertex, hvertex⟩ := Finset.nonempty_iff_ne_empty.mpr hdone
      have hfewer : (support \ search'.checked).card < (support \ search.checked).card := by
        refine Finset.card_lt_card (Finset.ssubset_iff_of_subset ?_ |>.mpr ⟨vertex, ?_, ?_⟩)
        · exact Finset.sdiff_subset_sdiff subset_rfl (hchecked ▸ Finset.subset_union_right)
        · exact Finset.mem_sdiff.mpr ⟨(hprogress.reached vertex (.inr hvertex)).mem_support
            hstart hnext, hprogress.fresh vertex hvertex⟩
        · refine fun hleft => (Finset.mem_sdiff.mp hleft).2 (hchecked ▸ Finset.mem_union_left _ ?_)
          exact List.mem_toFinset.mpr ((orders.mem_list _ _ vertex).mpr hvertex)
      obtain ⟨found, hclose, hfound⟩ := ih hprogress' (hfewer.trans_le (Nat.lt_succ_iff.mp hfuel))
      refine ⟨found, ?_, hfound⟩
      rw [if_neg hdone, hround]
      exact hclose

end Forail.ClosureRounds

import Forail.Core.Grouping
import Mathlib.Data.Finset.Card

/-!
# Cutting links until nothing more is released

The rows of a relation are kept in two dictionaries, of what is below and of what is above.
A walk starts with the links below a root.  It cuts one link after the other, releases what
has nothing above it any more, and goes on with the links below what it has released.
-/

namespace Forail.CascadingRelease

open Forail.Grouping

variable {A B V Rest : Type*} [DecidableEq A] [DecidableEq B] [DecidableEq V]

/-- `dict[key].remove(value)`, which fails for a value that is not listed. -/
def removeValue (dict : Dict A (List B)) (key : A) (value : B) : Option (Dict A (List B)) :=
  match dict.lookup key with
  | some values =>
      if value ∈ values then some (dict.insert key (values.erase value)) else none
  | none => none

structure Links (A B : Type*) [DecidableEq A] [DecidableEq B] where
  down : Dict A (List B)
  up : Dict B (List A)

namespace Links

def ofRows (rows : List (A × B)) : Links A B :=
  ⟨collect rows, collect (rows.map Prod.swap)⟩

def below (links : Links A B) (upper : A) : List B := (links.down.lookup upper).getD []

def above (links : Links A B) (lower : B) : List A := (links.up.lookup lower).getD []

def cut (links : Links A B) (upper : A) (lower : B) : Option (Links A B) := do
  let up ← removeValue links.up lower upper
  let down ← removeValue links.down upper lower
  some ⟨down, up⟩

structure Represents (links : Links A B) (rows : Finset (A × B)) : Prop where
  nodup_below : ∀ upper, (links.below upper).Nodup
  nodup_above : ∀ lower, (links.above lower).Nodup
  mem_below : ∀ upper lower, lower ∈ links.below upper ↔ (upper, lower) ∈ rows
  mem_above : ∀ upper lower, upper ∈ links.above lower ↔ (upper, lower) ∈ rows

end Links

variable {upper : A} {lower : B} {links links' : Links A B}

theorem removeValue_of_mem {dict : Dict A (List B)}
    (hmem : lower ∈ (dict.lookup upper).getD []) : removeValue dict upper lower =
      some (dict.insert upper (((dict.lookup upper).getD []).erase lower)) := by
  rw [removeValue]
  cases hlookup : dict.lookup upper with
  | none =>
    rw [hlookup] at hmem
    exact absurd hmem List.not_mem_nil
  | some values =>
    rw [hlookup, Option.getD_some] at hmem
    exact if_pos hmem

theorem mem_of_removeValue {dict dict' : Dict A (List B)}
    (hremove : removeValue dict upper lower = some dict') :
    lower ∈ (dict.lookup upper).getD [] := by
  rw [removeValue] at hremove
  cases hlookup : dict.lookup upper with
  | none =>
    rw [hlookup] at hremove
    cases hremove
  | some values =>
    rw [hlookup] at hremove
    exact (Option.ite_none_right_eq_some.mp hremove).1

omit [DecidableEq B] in
theorem getD_lookup_insert (dict : Dict A (List B)) (values : List B) (key other : A) :
    ((dict.insert key values).lookup other).getD [] =
      if other = key then values else (dict.lookup other).getD [] := by
  by_cases hkey : other = key
  · rw [hkey, AList.lookup_insert, Option.getD_some, if_pos rfl]
  · rw [AList.lookup_insert_ne hkey, if_neg hkey]

namespace Links

theorem below_ofRows (rows : List (A × B)) (upper : A) :
    (ofRows rows).below upper = (rows.filter fun row => row.1 = upper).map Prod.snd :=
  lookup_foldl_collect rows ∅ upper

theorem above_ofRows (rows : List (A × B)) (lower : B) :
    (ofRows rows).above lower =
      ((rows.map Prod.swap).filter fun row => row.1 = lower).map Prod.snd :=
  lookup_foldl_collect (rows.map Prod.swap) ∅ lower

omit [DecidableEq B] in
theorem nodup_values {rows : List (A × B)} (hrows : rows.Nodup) (key : A) :
    ((rows.filter fun row => row.1 = key).map Prod.snd).Nodup := by
  apply (hrows.filter _).map_on
  intro row hrow other hother hsame
  have hkey : row.1 = key := of_decide_eq_true (List.mem_filter.mp hrow).2
  have hkey' : other.1 = key := of_decide_eq_true (List.mem_filter.mp hother).2
  exact Prod.ext (hkey.trans hkey'.symm) hsame

theorem represents_ofRows {rows : List (A × B)} (hrows : rows.Nodup) :
    (ofRows rows).Represents rows.toFinset where
  nodup_below := by
    intro upper
    rw [below_ofRows]
    exact nodup_values hrows upper
  nodup_above := by
    intro lower
    rw [above_ofRows]
    exact nodup_values (hrows.map Prod.swap_injective) lower
  mem_below := by
    intro upper lower
    rw [List.mem_toFinset]
    exact mem_lookup_collect
  mem_above := by
    intro upper lower
    rw [List.mem_toFinset]
    refine mem_lookup_collect.trans (List.mem_map.trans ?_)
    constructor
    · intro hswap
      obtain ⟨row, hrow, hsame⟩ := hswap
      rwa [show row = (upper, lower) from Prod.swap_injective hsame] at hrow
    · exact fun hrow => ⟨(upper, lower), hrow, rfl⟩

variable {rows : Finset (A × B)}

theorem Represents.mem_of_cut (hlinks : links.Represents rows)
    (hcut : links.cut upper lower = some links') : (upper, lower) ∈ rows := by
  obtain ⟨up, hup, -⟩ := Option.bind_eq_some_iff.mp hcut
  exact (hlinks.mem_above upper lower).mp (mem_of_removeValue hup)

theorem Represents.cut (hlinks : links.Represents rows) (hrow : (upper, lower) ∈ rows) :
    ∃ links', links.cut upper lower = some links' ∧
      links'.Represents (rows.erase (upper, lower)) := by
  have hbelow : lower ∈ links.below upper := (hlinks.mem_below upper lower).mpr hrow
  have habove : upper ∈ links.above lower := (hlinks.mem_above upper lower).mpr hrow
  let down := links.down.insert upper ((links.below upper).erase lower)
  let up := links.up.insert lower ((links.above lower).erase upper)
  have hdown : ∀ other, (⟨down, up⟩ : Links A B).below other =
      if other = upper then (links.below upper).erase lower else links.below other :=
    fun other => getD_lookup_insert links.down _ upper other
  have hup : ∀ other, (⟨down, up⟩ : Links A B).above other =
      if other = lower then (links.above lower).erase upper else links.above other :=
    fun other => getD_lookup_insert links.up _ lower other
  refine ⟨⟨down, up⟩, ?_, ?_, ?_, ?_, ?_⟩
  · rw [Links.cut, removeValue_of_mem habove, removeValue_of_mem hbelow]
    rfl
  · intro other
    rw [hdown]
    split
    · exact (hlinks.nodup_below upper).erase lower
    · exact hlinks.nodup_below other
  · intro other
    rw [hup]
    split
    · exact (hlinks.nodup_above lower).erase upper
    · exact hlinks.nodup_above other
  · intro other value
    rw [hdown, Finset.mem_erase]
    split
    · next hother =>
      rw [hother, (hlinks.nodup_below upper).mem_erase_iff, hlinks.mem_below]
      exact and_congr_left' (not_congr Prod.mk_right_inj).symm
    · next hother =>
      rw [hlinks.mem_below]
      exact (and_iff_right fun hsame => hother (Prod.ext_iff.mp hsame).1).symm
  · intro value other
    rw [hup, Finset.mem_erase]
    split
    · next hother =>
      rw [hother, (hlinks.nodup_above lower).mem_erase_iff, hlinks.mem_above]
      exact and_congr_left' (not_congr Prod.mk_left_inj).symm
    · next hother =>
      rw [hlinks.mem_above]
      exact (and_iff_right fun hsame => hother (Prod.ext_iff.mp hsame).2).symm

theorem Represents.above_eq_nil_iff (hlinks : links.Represents rows) :
    ¬ 0 < (links.above lower).length ↔ ∀ upper, (upper, lower) ∉ rows := by
  rw [Nat.not_lt, Nat.le_zero, List.length_eq_zero_iff, List.eq_nil_iff_forall_not_mem]
  exact forall_congr' fun upper => not_congr (hlinks.mem_above upper lower)

end Links

/-! ## The walk -/

/-- The least set with the root and with everything that has something above it, but nothing
outside of the set. -/
inductive Released (rows : Finset (V × V)) (root : V) : V → Prop where
  | root : Released rows root root
  | follow {upper lower : V} (hrow : (upper, lower) ∈ rows)
      (habove : ∀ other, (other, lower) ∈ rows → Released rows root other) :
      Released rows root lower

structure Walk (V Rest : Type*) [DecidableEq V] where
  links : Links V V
  released : List V
  rest : Rest

inductive Stop
  | outOfFuel
  | missing
  deriving DecidableEq

section

variable (release : Rest → V → Option Rest)

/-- One link is cut.  What has nothing above it any more is released, and the links below it
are to be cut. -/
def visit (walk : Walk V Rest) (row : V × V) : Option (Walk V Rest × List (V × V)) :=
  (walk.links.cut row.1 row.2).bind fun links =>
    if 0 < (links.above row.2).length then
      some ({ walk with links := links }, [])
    else
      (release walk.rest row.2).map fun rest =>
        (⟨links, walk.released ++ [row.2], rest⟩,
          (links.below row.2).map fun lower => (row.2, lower))

def run : ℕ → Walk V Rest → List (V × V) → Except Stop (Walk V Rest)
  | _, walk, [] => .ok walk
  | 0, _, _ :: _ => .error .outOfFuel
  | fuel + 1, walk, row :: queue =>
      match visit release walk row with
      | some (walk, rows) => run fuel walk (queue ++ rows)
      | none => .error .missing

end

/-- The root has nothing above it but itself, so cutting that link releases it a second time
while other links below it wait. -/
def Reentrant (rows : Finset (V × V)) (root : V) : Prop :=
  ((root, root) ∈ rows ∧ ∀ upper, (upper, root) ∈ rows → upper = root) ∧
    ∃ lower, lower ≠ root ∧ (root, lower) ∈ rows

/-- Where a walk over `rows` stands that has yet to cut `uncut`. -/
structure Progress (kept : List V → Rest → Prop) (rows : Finset (V × V)) (root : V)
    (uncut : Finset (V × V)) (walk : Walk V Rest) (queue : List (V × V)) : Prop where
  represents : walk.links.Represents uncut
  subset : uncut ⊆ rows
  root_released : root ∈ walk.released
  nodup : queue.Nodup
  mem_queue : ∀ row, row ∈ queue ↔ row ∈ uncut ∧ row.1 ∈ walk.released
  root_first : queue.Pairwise fun row later => later.1 = root → row.1 = root
  cut_released : ∀ row ∈ rows, row ∉ uncut → row.1 ∈ walk.released
  root_cut_first : ∀ row ∈ rows, row ∉ uncut → row.1 ≠ root → ∀ lower, (root, lower) ∉ uncut
  mem_released : ∀ lower, lower ≠ root → (lower ∈ walk.released ↔
    (∃ upper, (upper, lower) ∈ rows) ∧ ∀ upper, (upper, lower) ∉ uncut)
  sound : ∀ vertex ∈ walk.released, Released rows root vertex
  kept_rest : kept walk.released walk.rest

variable {release : Rest → V → Option Rest} {kept : List V → Rest → Prop}
  {rows uncut : Finset (V × V)} {root : V} {walk walk' : Walk V Rest} {row : V × V}
  {queue new : List (V × V)} {fuel : ℕ}

theorem visit_of_mem (hlinks : walk.links.Represents uncut) (hrow : row ∈ uncut)
    {rest : Rest} (hrelease : release walk.rest row.2 = some rest) :
    ∃ links : Links V V, links.Represents (uncut.erase row) ∧ visit release walk row =
      if 0 < (links.above row.2).length then some ({ walk with links := links }, [])
      else some (⟨links, walk.released ++ [row.2], rest⟩,
        (links.below row.2).map fun lower => (row.2, lower)) := by
  obtain ⟨links, hcut, hrest⟩ := hlinks.cut hrow
  refine ⟨links, hrest, ?_⟩
  rw [visit, hcut, hrelease]
  rfl

theorem Progress.start {links : Links V V} {rest : Rest} (hlinks : links.Represents rows)
    (hkept : kept [root] rest) : Progress kept rows root rows ⟨links, [root], rest⟩
      ((links.below root).map fun lower => (root, lower)) where
  represents := hlinks
  subset := subset_rfl
  root_released := List.mem_singleton_self root
  nodup := (hlinks.nodup_below root).map (Prod.mk_right_injective root)
  mem_queue := by
    intro row
    rw [List.mem_map, List.mem_singleton]
    constructor
    · intro hrow
      obtain ⟨lower, hlower, rfl⟩ := hrow
      exact ⟨(hlinks.mem_below root lower).mp hlower, rfl⟩
    · intro hrow
      obtain ⟨hrow, hroot⟩ := hrow
      refine ⟨row.2, (hlinks.mem_below root row.2).mpr ?_, Prod.ext hroot.symm rfl⟩
      rwa [← hroot]
  root_first := by
    rw [List.pairwise_map]
    exact List.pairwise_of_forall fun _ _ _ => rfl
  cut_released := fun row hrow huncut => absurd hrow huncut
  root_cut_first := fun row hrow huncut => absurd hrow huncut
  mem_released := by
    intro lower hlower
    rw [List.mem_singleton]
    refine iff_of_false hlower fun habove => ?_
    obtain ⟨⟨upper, hrow⟩, hnone⟩ := habove
    exact hnone upper hrow
  sound := by
    intro vertex hvertex
    rw [List.mem_singleton.mp hvertex]
    exact .root
  kept_rest := hkept

theorem Progress.fst_eq_root (hprogress : Progress kept rows root uncut walk (row :: queue))
    {lower : V} (hlower : (root, lower) ∈ uncut.erase row) : row.1 = root := by
  obtain ⟨hne, huncut⟩ := Finset.mem_erase.mp hlower
  have hqueue : (root, lower) ∈ queue := by
    refine (List.mem_cons.mp ?_).resolve_left hne
    exact (hprogress.mem_queue _).mpr ⟨huncut, hprogress.root_released⟩
  exact (List.pairwise_cons.mp hprogress.root_first).1 _ hqueue rfl

/-- The root is only released again when no link below it waits, or when it is its own and
only upper end. -/
theorem Progress.reentrant (hprogress : Progress kept rows root uncut walk (row :: queue))
    (hroot : row.2 = root) (hfree : ∀ upper, (upper, root) ∉ uncut.erase row) {lower : V}
    (hlower : (root, lower) ∈ uncut.erase row) : Reentrant rows root := by
  have hfirst : row.1 = root := hprogress.fst_eq_root hlower
  have hself : row = (root, root) := Prod.ext hfirst hroot
  have huncut : row ∈ uncut := ((hprogress.mem_queue row).mp List.mem_cons_self).1
  refine ⟨⟨hself ▸ hprogress.subset huncut, fun upper hupper => ?_⟩, lower, ?_, ?_⟩
  · by_contra hne
    have hother : (upper, root) ≠ row := fun hsame =>
      hne ((congrArg Prod.fst hsame).trans hfirst)
    have hcut : (upper, root) ∉ uncut :=
      fun hmem => hfree upper (Finset.mem_erase.mpr ⟨hother, hmem⟩)
    exact hprogress.root_cut_first _ hupper hcut hne lower (Finset.mem_of_mem_erase hlower)
  · intro hsame
    exact Finset.ne_of_mem_erase hlower (hsame ▸ hself.symm)
  · exact hprogress.subset (Finset.mem_of_mem_erase hlower)

theorem Progress.advance (hprogress : Progress kept rows root uncut walk (row :: queue))
    (hlinks : walk'.links.Represents (uncut.erase row))
    (hreleased : ∀ vertex, vertex ∈ walk'.released ↔ vertex ∈ walk.released ∨
      vertex = row.2 ∧ ∀ upper, (upper, row.2) ∉ uncut.erase row)
    (hnodup : new.Nodup)
    (hnew : ∀ other, other ∈ new ↔ other ∈ uncut.erase row ∧ other.1 = row.2 ∧
      ∀ upper, (upper, row.2) ∉ uncut.erase row)
    (hroot : ∀ other ∈ new, other.1 ≠ root) (hkept : kept walk'.released walk'.rest) :
    Progress kept rows root (uncut.erase row) walk' (queue ++ new) := by
  obtain ⟨huncut, hfirst⟩ := (hprogress.mem_queue row).mp List.mem_cons_self
  obtain ⟨hfresh, htail⟩ := List.nodup_cons.mp hprogress.nodup
  have hlower : row.2 ≠ root → row.2 ∉ walk.released := fun hne hmem =>
    ((hprogress.mem_released row.2 hne).mp hmem).2 row.1 huncut
  have hcut : ∀ other ∈ rows, other ∉ uncut.erase row → other.1 ∈ walk.released := by
    intro other hother hgone
    by_cases hsame : other = row
    · rwa [hsame]
    · exact hprogress.cut_released other hother
        fun hmem => hgone (Finset.mem_erase.mpr ⟨hsame, hmem⟩)
  constructor
  case represents => exact hlinks
  case subset => exact (Finset.erase_subset row uncut).trans hprogress.subset
  case root_released => exact (hreleased root).mpr (.inl hprogress.root_released)
  case nodup =>
    refine htail.append hnodup fun other hqueue hmem => ?_
    have hother := (hprogress.mem_queue other).mp (List.mem_cons_of_mem row hqueue)
    obtain ⟨-, hsame, -⟩ := (hnew other).mp hmem
    rw [hsame] at hother
    exact hlower (hsame ▸ hroot other hmem) hother.2
  case mem_queue =>
    intro other
    rw [List.mem_append, hnew, hreleased, Finset.mem_erase]
    constructor
    · intro hmem
      cases hmem with
      | inl hqueue =>
        obtain ⟨hother, hreleased⟩ :=
          (hprogress.mem_queue other).mp (List.mem_cons_of_mem row hqueue)
        exact ⟨⟨fun hsame => hfresh (hsame ▸ hqueue), hother⟩, .inl hreleased⟩
      | inr hnew => exact ⟨hnew.1, .inr hnew.2⟩
    · intro hmem
      obtain ⟨⟨hne, hother⟩, hreleased⟩ := hmem
      cases hreleased with
      | inl hreleased =>
        have hqueue := (hprogress.mem_queue other).mpr ⟨hother, hreleased⟩
        exact .inl ((List.mem_cons.mp hqueue).resolve_left hne)
      | inr hreleased => exact .inr ⟨⟨hne, hother⟩, hreleased⟩
  case root_first =>
    refine List.pairwise_append.mpr ⟨(List.pairwise_cons.mp hprogress.root_first).2, ?_, ?_⟩
    · exact List.Pairwise.imp_of_mem (fun _ hlater _ hsame => absurd hsame (hroot _ hlater)) hnodup
    · exact fun _ _ later hlater hsame => absurd hsame (hroot later hlater)
  case cut_released =>
    exact fun other hother hgone => (hreleased _).mpr (.inl (hcut other hother hgone))
  case root_cut_first =>
    intro other hother hgone hne lower hlower
    by_cases hsame : other = row
    · exact hne (hsame ▸ hprogress.fst_eq_root hlower)
    · have hgone' : other ∉ uncut := fun hmem => hgone (Finset.mem_erase.mpr ⟨hsame, hmem⟩)
      exact hprogress.root_cut_first other hother hgone' hne lower (Finset.mem_of_mem_erase hlower)
  case mem_released =>
    intro lower hne
    rw [hreleased]
    by_cases hsame : lower = row.2
    · subst hsame
      rw [or_iff_right (hlower hne), eq_self, true_and]
      exact (and_iff_right ⟨row.1, hprogress.subset huncut⟩).symm
    · rw [or_iff_left fun hmem => hsame hmem.1, hprogress.mem_released lower hne]
      refine and_congr_right fun _ => forall_congr' fun upper => not_congr ?_
      rw [Finset.mem_erase]
      exact (and_iff_right fun heq => hsame (congrArg Prod.snd heq)).symm
  case sound =>
    intro vertex hvertex
    cases (hreleased vertex).mp hvertex with
    | inl hold => exact hprogress.sound vertex hold
    | inr hfree =>
      obtain ⟨rfl, hfree⟩ := hfree
      refine .follow (hprogress.subset huncut) fun other hother => ?_
      exact hprogress.sound other (hcut (other, row.2) hother (hfree other))
  case kept_rest => exact hkept

theorem Progress.mem_released_iff (hprogress : Progress kept rows root uncut walk [])
    (vertex : V) : vertex ∈ walk.released ↔ Released rows root vertex := by
  refine ⟨hprogress.sound vertex, fun hreleased => ?_⟩
  induction hreleased with
  | root => exact hprogress.root_released
  | @follow upper lower hrow _ ih =>
    by_cases hroot : lower = root
    · exact hroot ▸ hprogress.root_released
    · refine (hprogress.mem_released lower hroot).mpr ⟨⟨upper, hrow⟩, fun other hother => ?_⟩
      have hwaits := (hprogress.mem_queue (other, lower)).mpr
        ⟨hother, ih other (hprogress.subset hother)⟩
      exact List.not_mem_nil hwaits

section

variable (hrelease : ∀ released rest vertex, kept released rest →
  ∃ rest', release rest vertex = some rest' ∧ kept (released ++ [vertex]) rest')
include hrelease

theorem Progress.visit (hprogress : Progress kept rows root uncut walk (row :: queue))
    (hroot : ¬ Reentrant rows root) : ∃ walk' new, visit release walk row = some (walk', new) ∧
      Progress kept rows root (uncut.erase row) walk' (queue ++ new) := by
  obtain ⟨huncut, -⟩ := (hprogress.mem_queue row).mp List.mem_cons_self
  obtain ⟨rest, hrest, hkept⟩ := hrelease _ _ row.2 hprogress.kept_rest
  obtain ⟨links, hlinks, hvisit⟩ := visit_of_mem hprogress.represents huncut hrest
  have habove : ¬ 0 < (links.above row.2).length ↔
      ∀ upper, (upper, row.2) ∉ uncut.erase row := hlinks.above_eq_nil_iff
  split at hvisit
  · next hsome =>
    have hfree : ¬ ∀ upper, (upper, row.2) ∉ uncut.erase row := fun hnone => habove.mpr hnone hsome
    refine ⟨_, _, hvisit, hprogress.advance hlinks ?_ List.nodup_nil ?_ nofun hprogress.kept_rest⟩
    · exact fun vertex => (or_iff_left fun hvertex => hfree hvertex.2).symm
    · exact fun other => iff_of_false List.not_mem_nil fun hother => hfree hother.2.2
  · next hnone =>
    have hfree := habove.mp hnone
    have hnew : ∀ other : V × V, other ∈ (links.below row.2).map (fun lower => (row.2, lower)) ↔
        other ∈ uncut.erase row ∧ other.1 = row.2 := by
      intro other
      rw [List.mem_map]
      constructor
      · intro hother
        obtain ⟨lower, hlower, rfl⟩ := hother
        exact ⟨(hlinks.mem_below row.2 lower).mp hlower, rfl⟩
      · intro hother
        obtain ⟨hother, hfirst⟩ := hother
        refine ⟨other.2, (hlinks.mem_below row.2 other.2).mpr ?_, Prod.ext hfirst.symm rfl⟩
        rwa [← hfirst]
    refine ⟨_, _, hvisit, hprogress.advance hlinks ?_ ?_ ?_ ?_ hkept⟩
    · intro vertex
      rw [List.mem_append, List.mem_singleton]
      exact or_congr_right (and_iff_left hfree).symm
    · exact (hlinks.nodup_below row.2).map (Prod.mk_right_injective row.2)
    · intro other
      rw [hnew]
      exact and_congr_right fun _ => (and_iff_left hfree).symm
    · intro other hother hsame
      obtain ⟨hother, hfirst⟩ := (hnew other).mp hother
      have hself : row.2 = root := hfirst.symm.trans hsame
      rw [hself] at hfree
      have hlower : (root, other.2) ∈ uncut.erase row := by rwa [← hsame]
      exact hroot (hprogress.reentrant hself hfree hlower)

theorem Progress.run (hroot : ¬ Reentrant rows root)
    (hprogress : Progress kept rows root uncut walk queue) (hfuel : uncut.card ≤ fuel) :
    ∃ walk', run release fuel walk queue = .ok walk' ∧
      (∀ vertex, vertex ∈ walk'.released ↔ Released rows root vertex) ∧
      kept walk'.released walk'.rest := by
  induction fuel generalizing uncut walk queue with
  | zero =>
    have hnone : uncut = ∅ := Finset.card_eq_zero.mp (Nat.le_zero.mp hfuel)
    have hqueue : queue = [] := by
      refine List.eq_nil_iff_forall_not_mem.mpr fun row hrow => ?_
      exact Finset.notMem_empty row (hnone ▸ ((hprogress.mem_queue row).mp hrow).1)
    subst hqueue
    exact ⟨walk, rfl, hprogress.mem_released_iff, hprogress.kept_rest⟩
  | succ fuel ih =>
    cases queue with
    | nil => exact ⟨walk, rfl, hprogress.mem_released_iff, hprogress.kept_rest⟩
    | cons row queue =>
      obtain ⟨walk', new, hvisit, hnext⟩ := hprogress.visit hrelease hroot
      have huncut : row ∈ uncut := ((hprogress.mem_queue row).mp List.mem_cons_self).1
      have hcard : (uncut.erase row).card ≤ fuel := by
        rw [Finset.card_erase_of_mem huncut]
        omega
      rw [CascadingRelease.run, hvisit]
      exact ih hnext hcard

end

/-! ## Walks that fail -/

theorem cut_of_visit (hlinks : walk.links.Represents uncut)
    (hvisit : visit release walk row = some (walk', new)) :
    row ∈ uncut ∧ walk'.links.Represents (uncut.erase row) ∧
      ((∀ upper, (upper, row.2) ∉ uncut.erase row) →
        ∀ lower, (row.2, lower) ∈ uncut.erase row → (row.2, lower) ∈ new) := by
  obtain ⟨links, hcut, hrest⟩ := Option.bind_eq_some_iff.mp hvisit
  have hrow : row ∈ uncut := hlinks.mem_of_cut hcut
  obtain ⟨links', hcut', hlinks'⟩ := hlinks.cut hrow
  obtain rfl : links = links' := Option.some.inj (hcut.symm.trans hcut')
  refine ⟨hrow, ?_⟩
  split at hrest
  · next hsome =>
    obtain ⟨rfl, -⟩ := Prod.mk.inj (Option.some.inj hrest)
    exact ⟨hlinks', fun hnone => absurd hsome (hlinks'.above_eq_nil_iff.mpr hnone)⟩
  · obtain ⟨rest, -, hwalk⟩ := Option.map_eq_some_iff.mp hrest
    obtain ⟨rfl, rfl⟩ := Prod.mk.inj hwalk
    exact ⟨hlinks', fun _ lower hlower => List.mem_map_of_mem
      ((hlinks'.mem_below row.2 lower).mpr hlower)⟩

theorem nodup_of_run (hlinks : walk.links.Represents uncut)
    (hrun : run release fuel walk queue = .ok walk') :
    queue.Nodup ∧ ∀ row ∈ queue, row ∈ uncut := by
  induction fuel generalizing uncut walk queue with
  | zero =>
    cases queue with
    | nil => exact ⟨List.nodup_nil, fun _ hrow => absurd hrow List.not_mem_nil⟩
    | cons row queue => cases hrun
  | succ fuel ih =>
    cases queue with
    | nil => exact ⟨List.nodup_nil, fun _ hrow => absurd hrow List.not_mem_nil⟩
    | cons row queue =>
      rw [run] at hrun
      split at hrun
      · next walk new hvisit =>
        obtain ⟨hrow, hnext, -⟩ := cut_of_visit hlinks hvisit
        obtain ⟨hnodup, hqueue⟩ := ih hnext hrun
        have htail : ∀ other ∈ queue, other ∈ uncut.erase row :=
          fun other hother => hqueue other (List.mem_append_left new hother)
        refine ⟨List.nodup_cons.mpr ⟨?_, hnodup.of_append_left⟩, ?_⟩
        · exact fun hmem => Finset.notMem_erase row uncut (htail row hmem)
        · exact List.forall_mem_cons.mpr
            ⟨hrow, fun other hother => Finset.mem_of_mem_erase (htail other hother)⟩
      · cases hrun

theorem run_ne_outOfFuel (hlinks : walk.links.Represents uncut) (hfuel : uncut.card < fuel) :
    run release fuel walk queue ≠ .error .outOfFuel := by
  induction fuel generalizing uncut walk queue with
  | zero => exact absurd hfuel (Nat.not_lt_zero _)
  | succ fuel ih =>
    cases queue with
    | nil => exact nofun
    | cons row queue =>
      rw [run]
      split
      · next walk' new hvisit =>
        obtain ⟨hrow, hnext, -⟩ := cut_of_visit hlinks hvisit
        apply ih hnext
        rw [Finset.card_erase_of_mem hrow]
        have := Finset.card_pos.mpr ⟨row, hrow⟩
        omega
      · exact nofun

theorem run_ne_ok_of_reentrant (hlinks : walk.links.Represents rows)
    (hself : ∀ upper, (upper, root) ∈ rows → upper = root) {lower : V} (hlower : lower ≠ root)
    (hwaits : (root, lower) ∈ queue) (walk' : Walk V Rest) :
    run release fuel walk ((root, root) :: queue) ≠ .ok walk' := by
  intro hrun
  obtain ⟨-, hrows⟩ := nodup_of_run hlinks hrun
  cases fuel with
  | zero => cases hrun
  | succ fuel =>
    rw [run] at hrun
    split at hrun
    · next middle new hvisit =>
      obtain ⟨-, hnext, hnew⟩ := cut_of_visit hlinks hvisit
      have hagain : (root, lower) ∈ new := by
        refine hnew (fun upper hupper => ?_) lower (Finset.mem_erase.mpr ⟨?_, ?_⟩)
        · obtain ⟨hne, hmem⟩ := Finset.mem_erase.mp hupper
          exact hne (congrArg (·, root) (hself upper hmem))
        · exact fun hsame => hlower (congrArg Prod.snd hsame)
        · exact hrows _ (List.mem_cons_of_mem _ hwaits)
      have hnodup := (nodup_of_run hnext hrun).1
      exact (List.nodup_append.mp hnodup).2.2 _ hwaits _ hagain rfl
    · cases hrun

end Forail.CascadingRelease

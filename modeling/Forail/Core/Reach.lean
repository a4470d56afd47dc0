import Mathlib.Data.Finset.Card
import Mathlib.Data.Finset.Filter
import Mathlib.Data.Set.Function
import Mathlib.Logic.Relation
import Mathlib.Order.WellFounded

/-!
# Acyclic relations of finite support

A directed graph is a relation all of whose sources lie in a finite set.  When
such a relation has no cycle it is well founded in both directions, so facts
about a graph may be proved by induction from its roots to its leaves or from
its leaves to its roots.
-/

namespace Forail.Reach

open Relation

variable {V : Type*} {edge : V → V → Prop}

def Acyclic (edge : V → V → Prop) : Prop :=
  ∀ vertex, ¬ TransGen edge vertex vertex

theorem Acyclic.swap (hacyclic : Acyclic edge) :
    Acyclic (Function.swap edge) := fun vertex hpath =>
  hacyclic vertex (transGen_swap.mp hpath)

theorem Acyclic.mono {edge' : V → V → Prop} (hacyclic : Acyclic edge')
    (hle : ∀ x y, edge x y → edge' x y) : Acyclic edge := fun vertex hpath =>
  hacyclic vertex (TransGen.mono hle _ _ hpath)

/-- Vertices of a finite set that reach `vertex` by a nonempty path. -/
noncomputable def ancestors (edge : V → V → Prop) (support : Finset V)
    (vertex : V) : Finset V := by
  classical
  exact support.filter fun other => TransGen edge other vertex

theorem mem_ancestors {support : Finset V} {vertex other : V} :
    other ∈ ancestors edge support vertex ↔
      other ∈ support ∧ TransGen edge other vertex := by
  classical
  simp [ancestors]

theorem card_ancestors_lt {support : Finset V} (hacyclic : Acyclic edge)
    {source target : V} (hsource : source ∈ support)
    (hedge : edge source target) :
    (ancestors edge support source).card <
      (ancestors edge support target).card := by
  apply Finset.card_lt_card
  rw [Finset.ssubset_iff_of_subset]
  · refine ⟨source, mem_ancestors.mpr ⟨hsource, .single hedge⟩, ?_⟩
    intro hmem
    exact hacyclic source (mem_ancestors.mp hmem).2
  · intro other hmem
    obtain ⟨hother, hpath⟩ := mem_ancestors.mp hmem
    exact mem_ancestors.mpr ⟨hother, hpath.tail hedge⟩

theorem Acyclic.wellFounded (hacyclic : Acyclic edge) (support : Finset V)
    (hsupport : ∀ x y, edge x y → x ∈ support) : WellFounded edge := by
  refine Subrelation.wf (r := InvImage (· < ·) fun vertex =>
    (ancestors edge support vertex).card) ?_ (InvImage.wf _ Nat.lt_wfRel.wf)
  intro source target hedge
  exact card_ancestors_lt hacyclic (hsupport source target hedge) hedge

theorem acyclic_of_rank {rank : V → ℕ}
    (hrank : ∀ x y, edge x y → rank x < rank y) : Acyclic edge := by
  intro vertex hpath
  have hlt : ∀ x y, TransGen edge x y → rank x < rank y := by
    intro x y hxy
    induction hxy with
    | single hedge => exact hrank _ _ hedge
    | tail _ hedge ih => exact ih.trans (hrank _ _ hedge)
  exact (hlt vertex vertex hpath).false

/-- A cycle through a new edge uses it: removing the edge leaves a path from
its target back to its source. -/
theorem reaches_of_cycle_insert {source target : V} (hacyclic : Acyclic edge)
    {vertex : V}
    (hcycle : TransGen
      (fun x y => edge x y ∨ (x = source ∧ y = target)) vertex vertex) :
    ReflTransGen edge target source := by
  have hsplit : ∀ x y,
      TransGen (fun x y => edge x y ∨ (x = source ∧ y = target)) x y →
        TransGen edge x y ∨
          (ReflTransGen edge x source ∧
            (ReflTransGen edge target y ∨
              ReflTransGen edge target source)) := by
    intro x y hpath
    induction hpath with
    | single hstep =>
        rcases hstep with hedge | ⟨rfl, rfl⟩
        · exact Or.inl (.single hedge)
        · exact Or.inr ⟨.refl, Or.inl .refl⟩
    | tail _ hstep ih =>
        rcases hstep with hedge | ⟨rfl, rfl⟩
        · rcases ih with hpath | ⟨hto, hfrom | hback⟩
          · exact Or.inl (hpath.tail hedge)
          · exact Or.inr ⟨hto, Or.inl (hfrom.tail hedge)⟩
          · exact Or.inr ⟨hto, Or.inr hback⟩
        · rcases ih with hpath | ⟨hto, hfrom | hback⟩
          · exact Or.inr ⟨hpath.to_reflTransGen, Or.inl .refl⟩
          · exact Or.inr ⟨hto, Or.inr hfrom⟩
          · exact Or.inr ⟨hto, Or.inr hback⟩
  rcases hsplit vertex vertex hcycle with hpath | ⟨hto, hfrom | hback⟩
  · exact absurd hpath (hacyclic vertex)
  · exact hfrom.trans hto
  · exact hback

/-- Adding an edge keeps a relation acyclic exactly when the target does not
already reach the source. -/
theorem acyclic_insert_iff {source target : V} (hacyclic : Acyclic edge) :
    Acyclic (fun x y => edge x y ∨ (x = source ∧ y = target)) ↔
      ¬ ReflTransGen edge target source := by
  constructor
  · intro hinsert hback
    apply hinsert source
    have hold : ReflTransGen
        (fun x y => edge x y ∨ (x = source ∧ y = target)) target source :=
      ReflTransGen.mono (fun _ _ hedge => Or.inl hedge) _ _ hback
    exact .head' (Or.inr ⟨rfl, rfl⟩) hold
  · intro hback vertex hcycle
    exact hback (reaches_of_cycle_insert hacyclic hcycle)

/-! ## Unions -/

variable {added : V → V → Prop}

theorem acyclic_union_sinks (hacyclic : Acyclic edge)
    (hsink : ∀ x y z, added x y → ¬ edge y z ∧ ¬ added y z) :
    Acyclic (fun x y => edge x y ∨ added x y) := by
  have hold : ∀ x y z, (edge y z ∨ added y z) → (edge x y ∨ added x y) → edge x y := by
    intro x y z hnext hstep
    cases hstep with
    | inl hedge => exact hedge
    | inr hadded =>
      cases hnext with
      | inl hedge => exact absurd hedge (hsink x y z hadded).1
      | inr hadded' => exact absurd hadded' (hsink x y z hadded).2
  have hpath : ∀ x y z, (edge y z ∨ added y z) →
      TransGen (fun x y => edge x y ∨ added x y) x y → TransGen edge x y := by
    intro x y z hnext hxy
    induction hxy generalizing z with
    | single hstep => exact .single (hold _ _ z hnext hstep)
    | tail _ hstep ih => exact (ih _ hstep).tail (hold _ _ z hnext hstep)
  intro vertex hcycle
  obtain ⟨next, hstep, -⟩ := TransGen.head'_iff.mp hcycle
  exact hacyclic vertex (hpath vertex vertex next hstep hcycle)

/-- New edges close no cycle when old edges do not lead to their sources, and
between their sources they descend in some rank. -/
theorem acyclic_union_of_rank (hacyclic : Acyclic edge) {source : V → Prop} {rank : V → ℕ}
    (hsource : ∀ x y, added x y → source x)
    (hedge : ∀ x y, edge x y → ¬ source y)
    (hrank : ∀ x y, added x y → source y → rank y < rank x) :
    Acyclic (fun x y => edge x y ∨ added x y) := by
  have hdescends : ∀ x y, TransGen (fun x y => edge x y ∨ added x y) x y →
      source y → source x ∧ rank y < rank x := by
    intro x y hxy hy
    induction hxy with
    | single hstep =>
      cases hstep with
      | inl hold => exact absurd hy (hedge _ _ hold)
      | inr hnew => exact ⟨hsource _ _ hnew, hrank _ _ hnew hy⟩
    | tail _ hstep ih =>
      cases hstep with
      | inl hold => exact absurd hy (hedge _ _ hold)
      | inr hnew =>
        obtain ⟨hx, hlt⟩ := ih (hsource _ _ hnew)
        exact ⟨hx, (hrank _ _ hnew hy).trans hlt⟩
  have hkeeps : ∀ x y, TransGen (fun x y => edge x y ∨ added x y) x y →
      ¬ source x → TransGen edge x y ∧ ¬ source y := by
    intro x y hxy hx
    induction hxy with
    | single hstep =>
      cases hstep with
      | inl hold => exact ⟨.single hold, hedge _ _ hold⟩
      | inr hnew => exact absurd (hsource _ _ hnew) hx
    | tail _ hstep ih =>
      cases hstep with
      | inl hold => exact ⟨ih.1.tail hold, hedge _ _ hold⟩
      | inr hnew => exact absurd (hsource _ _ hnew) ih.2
  intro vertex hcycle
  by_cases hvertex : source vertex
  · exact (hdescends vertex vertex hcycle hvertex).2.false
  · exact hacyclic vertex (hkeeps vertex vertex hcycle hvertex).1

/-! ## Images -/

/-- The image of a relation under a function that tells its vertices apart has a cycle exactly
when the relation has one. -/
theorem acyclic_map_iff {W : Type*} {f : V → W} {support : Set V}
    (hsupport : ∀ x y, edge x y → x ∈ support ∧ y ∈ support) (hinj : Set.InjOn f support) :
    Acyclic (Relation.Map edge f f) ↔ Acyclic edge := by
  constructor
  · intro hacyclic vertex hcycle
    have himage : ∀ x y, edge x y → Relation.Map edge f f (f x) (f y) := fun x y hedge =>
      ⟨x, y, hedge, rfl, rfl⟩
    exact hacyclic (f vertex) (TransGen.lift f himage _ _ hcycle)
  · intro hacyclic image hcycle
    have hlift : ∀ first last, TransGen (Relation.Map edge f f) first last →
        ∀ x ∈ support, f x = first → ∃ y ∈ support, f y = last ∧ TransGen edge x y := by
      intro first last hpath
      induction hpath with
      | single hstep =>
        intro x hx hfirst
        obtain ⟨x', y, hedge, hx', rfl⟩ := hstep
        obtain rfl := hinj hx (hsupport _ _ hedge).1 (hfirst.trans hx'.symm)
        exact ⟨y, (hsupport _ _ hedge).2, rfl, .single hedge⟩
      | tail _ hstep ih =>
        intro x hx hfirst
        obtain ⟨middle, hmiddle, himage, hpath⟩ := ih x hx hfirst
        obtain ⟨x', y, hedge, hx', rfl⟩ := hstep
        obtain rfl := hinj hmiddle (hsupport _ _ hedge).1 (himage.trans hx'.symm)
        exact ⟨y, (hsupport _ _ hedge).2, rfl, hpath.tail hedge⟩
    obtain ⟨next, ⟨x, y, hedge, rfl, -⟩, -⟩ := TransGen.head'_iff.mp hcycle
    have hx := (hsupport _ _ hedge).1
    obtain ⟨z, hz, hsame, hpath⟩ := hlift _ _ hcycle x hx rfl
    obtain rfl := hinj hz hx hsame
    exact hacyclic z hpath

end Forail.Reach

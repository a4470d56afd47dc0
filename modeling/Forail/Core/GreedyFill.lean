import Mathlib.Data.List.Nodup

/-!
# Greedy filling

A list is filled up with candidates, in their order and without repetition, until there are
enough members.  Either there are enough in the end or every candidate is a member.
-/

namespace Forail.GreedyFill

variable {α : Type*} [DecidableEq α] {enough : List α → Prop} [DecidablePred enough]

/-- The candidates that are no members yet are appended until there are enough. -/
@[grind =]
def fill (enough : List α → Prop) [DecidablePred enough] : List α → List α → List α
  | [], members => members
  | candidate :: rest, members =>
      if candidate ∈ members then fill enough rest members
      else if enough members then members
      else fill enough rest (members ++ [candidate])

variable {candidates members : List α} {candidate : α}

theorem fill_of_enough (henough : enough members) : fill enough candidates members = members := by
  induction candidates with
  | nil => rfl
  | cons candidate rest ih =>
    by_cases hmem : candidate ∈ members
    · rw [fill, if_pos hmem, ih]
    · rw [fill, if_neg hmem, if_pos henough]

theorem prefix_fill : members <+: fill enough candidates members := by
  induction candidates generalizing members with
  | nil => exact List.prefix_rfl
  | cons candidate rest ih =>
    rw [fill]
    split
    · exact ih
    · split
      · exact List.prefix_rfl
      · exact (List.prefix_append members [candidate]).trans ih

theorem mem_or_mem_of_mem_fill (hmem : candidate ∈ fill enough candidates members) :
    candidate ∈ members ∨ candidate ∈ candidates := by
  induction candidates generalizing members with
  | nil => exact .inl hmem
  | cons head rest ih =>
    rw [fill] at hmem
    split at hmem
    · exact (ih hmem).imp_right (List.mem_cons_of_mem head)
    · split at hmem
      · exact .inl hmem
      · obtain hmem | hmem := ih hmem
        · obtain hmem | hmem := List.mem_append.mp hmem
          · exact .inl hmem
          · exact .inr (List.mem_singleton.mp hmem ▸ List.mem_cons_self)
        · exact .inr (List.mem_cons_of_mem head hmem)

theorem nodup_fill (hmembers : members.Nodup) : (fill enough candidates members).Nodup := by
  induction candidates generalizing members with
  | nil => exact hmembers
  | cons candidate rest ih =>
    rw [fill]
    split
    · exact ih hmembers
    · rename_i hnew
      split
      · exact hmembers
      · exact ih (hmembers.append (List.nodup_singleton candidate)
          (List.disjoint_singleton.mpr hnew))

theorem enough_or_subset_fill :
    enough (fill enough candidates members) ∨ candidates ⊆ fill enough candidates members := by
  induction candidates generalizing members with
  | nil => exact .inr (List.nil_subset _)
  | cons candidate rest ih =>
    by_cases hmem : candidate ∈ members
    · rw [fill, if_pos hmem]
      exact ih.imp_right fun hsubset => List.cons_subset.mpr ⟨prefix_fill.subset hmem, hsubset⟩
    · by_cases henough : enough members
      · rw [fill, if_neg hmem, if_pos henough]
        exact .inl henough
      · rw [fill, if_neg hmem, if_neg henough]
        have hplaced : candidate ∈ fill enough rest (members ++ [candidate]) :=
          prefix_fill.subset (List.mem_append_right members (List.mem_singleton_self candidate))
        exact ih.imp_right fun hsubset => List.cons_subset.mpr ⟨hplaced, hsubset⟩

end Forail.GreedyFill

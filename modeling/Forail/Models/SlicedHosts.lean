import Forail.Core.Stride
import Forail.Models.FactCacheSlices
import Forail.Models.Tasks

/-!
# The slices of an inventory

Each job of a sliced template runs on every `slice_count`-th host.  Its impact is
computed from the number of all hosts, without a look at the slice.
-/

namespace Forail.SlicedHosts

open Forail.Stride Forail.Tasks

variable {α : Type*} {sliceNumber sliceCount : ℕ}

def getSlicedHosts (hosts : List α) (sliceNumber sliceCount : ℕ) : List α :=
  if 1 < sliceCount ∧ 0 < sliceNumber then stride sliceCount (sliceNumber - 1) hosts else hosts

def sliceJob (forks totalHosts sliceNumber sliceCount : ℕ) : JobSize where
  forks := forks
  launchTypeIsCallback := false
  totalHosts := some totalHosts
  jobSliceNumber := sliceNumber
  jobSliceCount := sliceCount

theorem getSlicedHosts_eq_stride (hfirst : 1 ≤ sliceNumber) (hlast : sliceNumber ≤ sliceCount)
    (hosts : List α) :
    getSlicedHosts hosts sliceNumber sliceCount = stride sliceCount (sliceNumber - 1) hosts := by
  rw [getSlicedHosts]
  split
  · rfl
  · have hcount : sliceCount = 1 := by omega
    have hnumber : sliceNumber = 1 := by omega
    rw [hcount, hnumber, Nat.sub_self, stride_one]

theorem getSlicedHosts_sublist (hosts : List α) (sliceNumber sliceCount : ℕ) :
    (getSlicedHosts hosts sliceNumber sliceCount).Sublist hosts := by
  rw [getSlicedHosts]
  split
  · exact stride_sublist ..
  · exact .refl hosts

theorem map_getSlicedHosts {β : Type*} (f : α → β) (hosts : List α)
    (sliceNumber sliceCount : ℕ) :
    (getSlicedHosts hosts sliceNumber sliceCount).map f =
      getSlicedHosts (hosts.map f) sliceNumber sliceCount := by
  rw [getSlicedHosts, getSlicedHosts]
  split
  · exact map_stride ..
  · rfl

theorem flatMap_getSlicedHosts_perm (hcount : 1 ≤ sliceCount) (hosts : List α) :
    ((List.range' 1 sliceCount).flatMap fun sliceNumber =>
      getSlicedHosts hosts sliceNumber sliceCount).Perm hosts := by
  have hslices : ((List.range' 1 sliceCount).flatMap fun sliceNumber =>
      getSlicedHosts hosts sliceNumber sliceCount) =
        (List.range sliceCount).flatMap fun offset => stride sliceCount offset hosts := by
    rw [List.range'_eq_map_range, List.flatMap_map, List.flatMap_def, List.flatMap_def]
    refine congrArg List.flatten (List.map_congr_left fun offset hoffset => ?_)
    have hlt := List.mem_range.mp hoffset
    rw [getSlicedHosts_eq_stride (by omega) (by omega), Nat.add_sub_cancel_left]
  rw [hslices]
  exact flatMap_stride_perm hcount hosts

theorem length_getSlicedHosts (hfirst : 1 ≤ sliceNumber) (hlast : sliceNumber ≤ sliceCount)
    (hosts : List α) :
    (getSlicedHosts hosts sliceNumber sliceCount).length =
      (hosts.length + sliceCount - sliceNumber) / sliceCount := by
  rw [getSlicedHosts_eq_stride hfirst hlast, length_stride (by omega)]
  refine congrArg (· / sliceCount) ?_
  omega

theorem length_getSlicedHosts_bounds (hfirst : 1 ≤ sliceNumber) (hlast : sliceNumber ≤ sliceCount)
    (hosts : List α) :
    hosts.length / sliceCount ≤ (getSlicedHosts hosts sliceNumber sliceCount).length ∧
      (getSlicedHosts hosts sliceNumber sliceCount).length ≤ hosts.length / sliceCount + 1 := by
  have hpos : 0 < sliceCount := by omega
  rw [length_getSlicedHosts hfirst hlast]
  constructor
  · exact Nat.div_le_div_right (by omega)
  · calc (hosts.length + sliceCount - sliceNumber) / sliceCount
        ≤ (hosts.length + sliceCount) / sliceCount := Nat.div_le_div_right (by omega)
      _ = hosts.length / sliceCount + 1 := Nat.add_div_right _ hpos

theorem countHosts_sliceJob (hmany : 1 < sliceCount) (forks totalHosts sliceNumber : ℕ) :
    (sliceJob forks totalHosts sliceNumber sliceCount).countHosts =
      (totalHosts + sliceCount - sliceNumber) / sliceCount := if_pos hmany

/-- No place of the inventory is in two slices, the slices together are the
hosts, their sizes differ by at most one, and each job counts the hosts of its
slice. -/
theorem slices_partition (hosts : List α) (hcount : 1 ≤ sliceCount) :
    (∀ first ∈ List.range' 1 sliceCount, ∀ second ∈ List.range' 1 sliceCount, first ≠ second →
      (getSlicedHosts hosts.zipIdx first sliceCount).Disjoint
        (getSlicedHosts hosts.zipIdx second sliceCount)) ∧
    (∀ number, (getSlicedHosts hosts.zipIdx number sliceCount).map Prod.fst =
      getSlicedHosts hosts number sliceCount) ∧
    ((List.range' 1 sliceCount).flatMap fun number =>
      getSlicedHosts hosts number sliceCount).Perm hosts ∧
    (∀ first ∈ List.range' 1 sliceCount, ∀ second ∈ List.range' 1 sliceCount,
      (getSlicedHosts hosts first sliceCount).length ≤
        (getSlicedHosts hosts second sliceCount).length + 1) ∧
    (1 < sliceCount → ∀ forks, ∀ number ∈ List.range' 1 sliceCount,
      (sliceJob forks hosts.length number sliceCount).countHosts =
        (getSlicedHosts hosts number sliceCount).length) := by
  have hbounds : ∀ number ∈ List.range' 1 sliceCount, 1 ≤ number ∧ number ≤ sliceCount := by
    intro number hnumber
    rw [List.mem_range'_1] at hnumber
    omega
  refine ⟨?_, ?_, flatMap_getSlicedHosts_perm hcount hosts, ?_, ?_⟩
  · intro first hfirst second hsecond hne
    obtain ⟨hfirst, hfirst'⟩ := hbounds first hfirst
    obtain ⟨hsecond, hsecond'⟩ := hbounds second hsecond
    rw [getSlicedHosts_eq_stride hfirst hfirst', getSlicedHosts_eq_stride hsecond hsecond']
    exact disjoint_stride_zipIdx (by omega) (by omega) (by omega) hosts
  · intro number
    rw [map_getSlicedHosts, List.zipIdx_map_fst]
  · intro first hfirst second hsecond
    obtain ⟨hfirst, hfirst'⟩ := hbounds first hfirst
    obtain ⟨hsecond, hsecond'⟩ := hbounds second hsecond
    exact (length_getSlicedHosts_bounds hfirst hfirst' hosts).2.trans
      (Nat.succ_le_succ (length_getSlicedHosts_bounds hsecond hsecond' hosts).1)
  · intro hmany forks number hnumber
    obtain ⟨hfirst, hlast⟩ := hbounds number hnumber
    rw [countHosts_sliceJob hmany, length_getSlicedHosts hfirst hlast]

theorem slices_partition_five :
    ((List.range' 1 2).flatMap fun number => getSlicedHosts [1, 2, 3, 4, 5] number 2).Perm
        [1, 2, 3, 4, 5] ∧
      ∀ forks, ∀ number ∈ List.range' 1 2, (sliceJob forks 5 number 2).countHosts =
        (getSlicedHosts [1, 2, 3, 4, 5] number 2).length := by
  obtain ⟨-, -, hperm, -, hsizes⟩ := @slices_partition _ 2 [1, 2, 3, 4, 5] (by decide)
  exact ⟨hperm, hsizes (by decide)⟩

end Forail.SlicedHosts

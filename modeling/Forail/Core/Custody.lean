import Mathlib.Data.List.Nodup

/-!
# Tokens spread over a list of holders

`held` lists the tokens of one holder.  A change of one holder shows in the
list of all tokens, up to their order.
-/

namespace Forail.Custody

variable {Holder Token : Type*} [DecidableEq Token] (held : Holder → List Token)

theorem count_flatMap_set {holders : List Holder} {index : ℕ} {old new : Holder}
    (hold : holders[index]? = some old) (token : Token) :
    ((holders.set index new).flatMap held).count token + (held old).count token =
      (holders.flatMap held).count token + (held new).count token := by
  induction holders generalizing index with
  | nil => simp at hold
  | cons holder holders ih =>
    cases index with
    | zero =>
      obtain rfl : holder = old := by simpa using hold
      simp only [List.set_cons_zero, List.flatMap_cons, List.count_append]
      omega
    | succ index =>
      have hrest := ih (by simpa using hold)
      simp only [List.set_cons_succ, List.flatMap_cons, List.count_append]
      omega

/-- The tokens that one holder gives up are given up by all, and the tokens it
takes are taken. -/
theorem flatMap_set_perm {holders : List Holder} {index : ℕ} {old new : Holder}
    {given taken : List Token} (hold : holders[index]? = some old)
    (hchange : (held new ++ given).Perm (held old ++ taken)) :
    ((holders.set index new).flatMap held ++ given).Perm (holders.flatMap held ++ taken) := by
  rw [List.perm_iff_count]
  intro token
  have hholder := hchange.count_eq token
  have hall : ((holders.set index new).flatMap held).count token + (held old).count token =
      (holders.flatMap held).count token + (held new).count token :=
    count_flatMap_set held hold token
  simp only [List.count_append] at hholder ⊢
  omega

theorem account_trans {before between after given given' taken taken' : List Token}
    (hfirst : (between ++ given).Perm (before ++ taken))
    (hsecond : (after ++ given').Perm (between ++ taken')) :
    (after ++ (given ++ given')).Perm (before ++ (taken ++ taken')) := by
  rw [List.perm_iff_count]
  intro token
  have hbetween := hfirst.count_eq token
  have hafter := hsecond.count_eq token
  simp only [List.count_append] at hbetween hafter ⊢
  omega

omit [DecidableEq Token] in
theorem mem_set_property {holders : List Holder} {property : Holder → Prop}
    (hall : ∀ holder ∈ holders, property holder) (index : ℕ) {new : Holder}
    (hnew : property new) : ∀ holder ∈ holders.set index new, property holder := by
  intro holder hholder
  rcases List.mem_or_eq_of_mem_set hholder with hkept | rfl
  · exact hall holder hkept
  · exact hnew

theorem foldl_erase_append (removed rest : List Token) :
    removed.foldl List.erase (removed ++ rest) = rest := by
  induction removed with
  | nil => rfl
  | cons token removed ih => simpa using ih

end Forail.Custody

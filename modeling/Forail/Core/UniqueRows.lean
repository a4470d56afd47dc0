import Mathlib.Data.List.Basic
import Mathlib.Data.List.Nodup

/-!
# Tables with unique names

Rows have a primary key and a name that no two rows of the table share.  A save of a row
is refused while another row has its name, so saving several rows works when every row
that has the new name of another one is saved before it.
-/

namespace Forail.UniqueRows

variable {Row Name : Type*} (pk : Row → ℕ) (name : Row → Name)

/-- The table with a row in the place of the row with its key. -/
def replace (table : List Row) (row : Row) : List Row :=
  table.map fun other => if pk other = pk row then row else other

/-- A save of a row, which the unique names can refuse. -/
def save [DecidableEq Name] (table : List Row) (row : Row) : Option (List Row) :=
  if table.any fun other => pk other ≠ pk row && name other = name row then none
  else some (replace pk table row)

def updated (updates : List Row) (row : Row) : Row :=
  (updates.find? fun update => pk update = pk row).getD row

/-- The rows can be saved one after the other: no two of them get the same name, and a row
of the table that has the name of an update is updated before. -/
structure Savable (table updates : List Row) : Prop where
  keys : (updates.map pk).Nodup
  names : (updates.map name).Nodup
  free : ∀ before update after, updates = before ++ update :: after →
    ∀ row ∈ table, pk row ≠ pk update → pk row ∉ before.map pk → name row ≠ name update

variable {pk name} {table updates : List Row} {row update : Row}

theorem find?_of_mem {Key : Type*} [DecidableEq Key] {key : Row → Key}
    (hkeys : (table.map key).Nodup) (hmem : row ∈ table) :
    table.find? (fun other => key other = key row) = some row := by
  cases hfind : table.find? fun other => key other = key row with
  | none => exact absurd (decide_eq_true rfl) (List.find?_eq_none.mp hfind row hmem)
  | some found =>
    have hfound : key found = key row := by simpa using List.find?_some hfind
    exact congrArg some
      (List.inj_on_of_nodup_map hkeys (List.mem_of_find?_eq_some hfind) hmem hfound)

theorem filter_eq_singleton {Key : Type*} [DecidableEq Key] {key : Row → Key}
    (hkeys : (table.map key).Nodup) (hmem : row ∈ table) :
    table.filter (fun other => key other = key row) = [row] := by
  induction table with
  | nil => cases hmem
  | cons head table ih =>
    obtain ⟨hfresh, hrest⟩ := List.nodup_cons.mp hkeys
    rw [List.filter_cons]
    cases List.mem_cons.mp hmem with
    | inl hhead =>
      subst hhead
      rw [if_pos (decide_eq_true rfl), List.filter_eq_nil_iff.mpr]
      intro other hother hsame
      exact hfresh (List.mem_map.mpr ⟨other, hother, of_decide_eq_true hsame⟩)
    | inr htail =>
      have hne : ¬ key head = key row := fun hsame =>
        hfresh (List.mem_map.mpr ⟨row, htail, hsame.symm⟩)
      rw [if_neg (mt of_decide_eq_true hne), ih hrest htail]

theorem save_of_free [DecidableEq Name]
    (hfree : ∀ other ∈ table, pk other ≠ pk row → name other ≠ name row) :
    save pk name table row = some (replace pk table row) := by
  rw [save, if_neg]
  intro htaken
  obtain ⟨other, hother, hsame⟩ := List.any_eq_true.mp htaken
  obtain ⟨hpk, hname⟩ := Bool.and_eq_true_iff.mp hsame
  exact hfree other hother (of_decide_eq_true hpk) (of_decide_eq_true hname)

theorem updated_nil : updated pk [] = (id : Row → Row) := rfl

theorem updated_of_mem (hkeys : (updates.map pk).Nodup) (hmem : update ∈ updates)
    (hrow : pk update = pk row) : updated pk updates row = update := by
  rw [updated, ← hrow, find?_of_mem hkeys hmem, Option.getD_some]

theorem updated_of_not_mem (hrow : pk row ∉ updates.map pk) : updated pk updates row = row := by
  have hnone : updates.find? (fun update => decide (pk update = pk row)) = none := by
    apply List.find?_eq_none.mpr
    intro update hmem hsame
    exact hrow (List.mem_map.mpr ⟨update, hmem, of_decide_eq_true hsame⟩)
  rw [updated, hnone, Option.getD_none]

theorem map_updated_cons (hkeys : ((update :: updates).map pk).Nodup) :
    (replace pk table update).map (updated pk updates) =
      table.map (updated pk (update :: updates)) := by
  obtain ⟨hnot, -⟩ := List.nodup_cons.mp hkeys
  rw [replace, List.map_map]
  apply List.map_congr_left
  intro row _
  rw [Function.comp_apply]
  by_cases hrow : pk row = pk update
  · rw [if_pos hrow, updated_of_not_mem hnot]
    exact (updated_of_mem hkeys List.mem_cons_self hrow.symm).symm
  · rw [if_neg hrow, updated, updated, List.find?_cons_of_neg]
    exact fun hsame => hrow (of_decide_eq_true hsame).symm

theorem Savable.of_cons (hsavable : Savable pk name table (update :: updates)) :
    Savable pk name (replace pk table update) updates where
  keys := (List.nodup_cons.mp hsavable.keys).2
  names := (List.nodup_cons.mp hsavable.names).2
  free := by
    intro before other after hsplit row hrow hpk hbefore
    obtain ⟨source, hsource, rfl⟩ := List.mem_map.mp hrow
    by_cases hother : pk source = pk update
    · rw [if_pos hother] at hpk hbefore ⊢
      intro hname
      refine (List.nodup_cons.mp hsavable.names).1 (List.mem_map.mpr ⟨other, ?_, hname.symm⟩)
      rw [hsplit]
      exact List.mem_append_right _ List.mem_cons_self
    · rw [if_neg hother] at hpk hbefore ⊢
      apply hsavable.free (update :: before) other after (by rw [hsplit]; rfl) source hsource hpk
      intro hmem
      rcases List.mem_cons.mp hmem with hfirst | hrest
      · exact hother hfirst
      · exact hbefore hrest

theorem foldlM_save [DecidableEq Name] (hsavable : Savable pk name table updates) :
    updates.foldlM (save pk name) table = some (table.map (updated pk updates)) := by
  induction updates generalizing table with
  | nil =>
    rw [updated_nil, List.map_id]
    rfl
  | cons update updates ih =>
    have hfirst : save pk name table update = some (replace pk table update) := by
      apply save_of_free
      intro other hother hpk
      exact hsavable.free [] update updates rfl other hother hpk List.not_mem_nil
    rw [List.foldlM_cons, hfirst, Option.bind_eq_bind, Option.bind_some, ih hsavable.of_cons,
      map_updated_cons hsavable.keys]

theorem Savable.nodup_names (hsavable : Savable pk name table updates)
    (hpks : (table.map pk).Nodup) (hnames : (table.map name).Nodup) :
    ((table.map (updated pk updates)).map name).Nodup := by
  have hfree : ∀ update ∈ updates, ∀ row ∈ table, pk row ∉ updates.map pk →
      name row ≠ name update := by
    intro update hupdate row hrow hpk
    obtain ⟨before, after, hsplit⟩ := List.append_of_mem hupdate
    apply hsavable.free before update after hsplit row hrow
    · exact fun hsame => hpk (hsame ▸ List.mem_map_of_mem hupdate)
    · intro hbefore
      rw [hsplit, List.map_append] at hpk
      exact hpk (List.mem_append_left _ hbefore)
  have hupdated : ∀ row, pk row ∈ updates.map pk →
      ∃ update ∈ updates, pk update = pk row ∧ updated pk updates row = update := by
    intro row hpk
    obtain ⟨update, hupdate, hsame⟩ := List.mem_map.mp hpk
    exact ⟨update, hupdate, hsame, updated_of_mem hsavable.keys hupdate hsame⟩
  rw [List.map_map]
  apply List.Nodup.map_on _ hnames.of_map
  intro row hrow row' hrow' hsame
  rw [Function.comp_apply, Function.comp_apply] at hsame
  by_cases hpk : pk row ∈ updates.map pk <;> by_cases hpk' : pk row' ∈ updates.map pk
  · obtain ⟨update, hupdate, hkey, heq⟩ := hupdated row hpk
    obtain ⟨update', hupdate', hkey', heq'⟩ := hupdated row' hpk'
    rw [heq, heq'] at hsame
    obtain rfl := List.inj_on_of_nodup_map hsavable.names hupdate hupdate' hsame
    exact List.inj_on_of_nodup_map hpks hrow hrow' (hkey.symm.trans hkey')
  · obtain ⟨update, hupdate, -, heq⟩ := hupdated row hpk
    rw [heq, updated_of_not_mem hpk'] at hsame
    exact absurd hsame.symm (hfree update hupdate row' hrow' hpk')
  · obtain ⟨update, hupdate, -, heq⟩ := hupdated row' hpk'
    rw [heq, updated_of_not_mem hpk] at hsame
    exact absurd hsame (hfree update hupdate row hrow hpk)
  · rw [updated_of_not_mem hpk, updated_of_not_mem hpk'] at hsame
    exact List.inj_on_of_nodup_map hnames hrow hrow' hsame

theorem savable_of_foldlM [DecidableEq Name] {table' : List Row}
    (hkeys : (updates.map pk).Nodup) (hnames : (updates.map name).Nodup)
    (hsaved : updates.foldlM (save pk name) table = some table') :
    Savable pk name table updates where
  keys := hkeys
  names := hnames
  free := by
    induction updates generalizing table with
    | nil =>
      intro before update after hsplit
      exact absurd hsplit.symm (List.append_ne_nil_of_right_ne_nil before (List.cons_ne_nil _ _))
    | cons first updates ih =>
      rw [List.foldlM_cons] at hsaved
      obtain ⟨middle, hfirst, hrest⟩ := Option.bind_eq_some_iff.mp hsaved
      obtain ⟨hfree, htable⟩ := Option.ite_none_left_eq_some.mp hfirst
      intro before update after hsplit row hrow hpk hbefore
      cases before with
      | nil =>
        obtain ⟨rfl, -⟩ := List.cons.inj hsplit
        intro hname
        apply hfree (List.any_eq_true.mpr ⟨row, hrow, _⟩)
        rw [decide_eq_true hpk, decide_eq_true hname, Bool.and_self]
      | cons other before =>
        obtain ⟨rfl, htail⟩ := List.cons.inj hsplit
        rw [List.map_cons, List.mem_cons, not_or] at hbefore
        have hmiddle : row ∈ middle := by
          rw [← Option.some.inj htable, replace]
          exact List.mem_map.mpr ⟨row, hrow, if_neg hbefore.1⟩
        exact ih (List.nodup_cons.mp hkeys).2 (List.nodup_cons.mp hnames).2 hrest before update
          after htail row hmiddle hpk hbefore.2

end Forail.UniqueRows

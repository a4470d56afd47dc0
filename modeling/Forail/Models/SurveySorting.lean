import Forail.Models.Surveys

/-!
# The variables that a survey sorts

The loop over a survey moves every variable once, at the first question that names it.  The
variables of a launch are accepted, rejected or dropped with the values they have, and a later
question of the same variable is asked too late.
-/

namespace Forail.Surveys

open Forail.Json Forail.Texts

structure Place where
  left : Option Value
  accepted : Option Value
  rejected : Option Value

def Sorting.place (sorting : Sorting) (key : String) : Place where
  left := sorting.extraVars.lookup key
  accepted := sorting.accepted.lookup key
  rejected := sorting.rejected.lookup key

/-- What a question without errors, or with them, does to its variable. -/
def Place.sort (place : Place) (errors : List String) : Place :=
  match place.left with
  | none => place
  | some value =>
      if errors = [] then ⟨none, some value, place.rejected⟩
      else ⟨none, place.accepted, some value⟩

variable {key : String} {sorting : Sorting} {errors : SurveyElement → List String}
  {questions : List SurveyElement}

theorem place_sort_of_ne (found : List String) {other : String} (hne : key ≠ other) :
    (sorting.sort found other).place key = sorting.place key := by
  rw [Sorting.sort]
  split
  · rfl
  · dsimp only
    split
    · rw [Sorting.place, AList.lookup_erase_ne hne, AList.lookup_insert_ne hne, Sorting.place]
    · rw [Sorting.place, AList.lookup_erase_ne hne, AList.lookup_insert_ne hne, Sorting.place]

theorem place_sort_self (found : List String) :
    (sorting.sort found key).place key = (sorting.place key).sort found := by
  cases hleft : sorting.extraVars.lookup key with
  | none => simp only [Sorting.sort, Place.sort, Sorting.place, hleft]
  | some value =>
    by_cases hfound : found = []
    · simp only [Sorting.sort, Place.sort, Sorting.place, hleft, if_pos hfound,
        AList.lookup_erase, AList.lookup_insert]
    · simp only [Sorting.sort, Place.sort, Sorting.place, hleft, if_neg hfound,
        AList.lookup_erase, AList.lookup_insert]

theorem place_survey_of_none (hleft : (sorting.place key).left = none) :
    (sorting.survey errors questions).place key = sorting.place key := by
  induction questions generalizing sorting with
  | nil => rfl
  | cons element questions ih =>
    have hstep : (sorting.sort (errors element) element.variableKey).place key =
        sorting.place key := by
      by_cases hkey : key = element.variableKey
      · rw [← hkey, place_sort_self, Place.sort, hleft]
      · exact place_sort_of_ne (errors element) hkey
    exact (ih (hstep ▸ hleft)).trans hstep

theorem left_sort (place : Place) (found : List String) : (place.sort found).left = none := by
  rw [Place.sort]
  split
  · assumption
  · split <;> rfl

theorem place_survey :
    (sorting.survey errors questions).place key =
      match questions.find? fun element => element.variableKey = key with
      | none => sorting.place key
      | some element => (sorting.place key).sort (errors element) := by
  induction questions generalizing sorting with
  | nil => rfl
  | cons element questions ih =>
    by_cases hkey : element.variableKey = key
    · rw [List.find?_cons_of_pos (by simpa using hkey)]
      have hself : (sorting.sort (errors element) element.variableKey).place key =
          (sorting.place key).sort (errors element) := by rw [hkey, place_sort_self]
      have hleft : ((sorting.sort (errors element) element.variableKey).place key).left = none := by
        rw [hself, left_sort]
      exact (place_survey_of_none hleft).trans hself
    · rw [List.find?_cons_of_neg (by simpa using hkey)]
      have hstep : (sorting.sort (errors element) element.variableKey).place key =
          sorting.place key := place_sort_of_ne (errors element) (Ne.symm hkey)
      rw [← hstep]
      exact ih

section Acceptance

variable {env : Surroundings} {template : SurveyTemplate}
  {excludeErrors extraPasswords : List String} {data : Vars}

def SurveyTemplate.question (template : SurveyTemplate) (key : String) : Option SurveyElement :=
  template.questions.find? fun element => element.variableKey = key

theorem question_eq_none :
    template.question key = none ↔ ∀ element ∈ template.questions, element.variableKey ≠ key := by
  rw [SurveyTemplate.question, List.find?_eq_none]
  simp only [decide_eq_true_eq]

theorem place_questions :
    (Sorting.survey (elementErrors env excludeErrors extraPasswords data) template.questions
        ⟨data, ∅, ∅, []⟩).place key =
      match template.question key with
      | none => ⟨data.lookup key, none, none⟩
      | some element =>
          if elementErrors env excludeErrors extraPasswords data element = [] then
            ⟨none, data.lookup key, none⟩
          else ⟨none, none, data.lookup key⟩ := by
  have hstart : (⟨data, ∅, ∅, []⟩ : Sorting).place key = ⟨data.lookup key, none, none⟩ := rfl
  rw [place_survey, hstart, SurveyTemplate.question]
  cases template.questions.find? fun element => element.variableKey = key with
  | none => rfl
  | some element =>
    cases data.lookup key with
    | none => simp only [Place.sort, ite_self]
    | some value => rfl

theorem lookup_answer (env : Surroundings) (template : SurveyTemplate)
    (excludeErrors extraPasswords : List String) (data : Vars) (key : String) :
    let answer := template.acceptOrIgnoreVariables env excludeErrors extraPasswords data
    let place := (Sorting.survey (elementErrors env excludeErrors extraPasswords data)
      template.questions ⟨data, ∅, ∅, []⟩).place key
    answer.accepted.lookup key =
        (if template.askVariablesOnLaunch then place.left.or place.accepted else place.accepted) ∧
      answer.rejected.lookup key =
        if template.askVariablesOnLaunch then place.rejected
        else (place.left.filter fun value => !identical template key value).or place.rejected := by
  dsimp only
  rw [SurveyTemplate.acceptOrIgnoreVariables]
  dsimp only
  split
  · exact ⟨lookup_union _ _, rfl⟩
  · refine ⟨rfl, ?_⟩
    rw [lookup_union, lookup_filter_entries fun key value => !identical template key value]
    rfl

theorem lookup_of_question (env : Surroundings) (excludeErrors extraPasswords : List String)
    (data : Vars) {element : SurveyElement}
    (hfirst : template.question key = some element) :
    let answer := template.acceptOrIgnoreVariables env excludeErrors extraPasswords data
    if elementErrors env excludeErrors extraPasswords data element = [] then
      answer.accepted.lookup key = data.lookup key ∧ answer.rejected.lookup key = none
    else answer.accepted.lookup key = none ∧ answer.rejected.lookup key = data.lookup key := by
  have hanswer := lookup_answer env template excludeErrors extraPasswords data key
  rw [place_questions, hfirst] at hanswer
  dsimp only at hanswer ⊢
  split
  · rename_i hfits
    rw [if_pos hfits] at hanswer
    simpa using hanswer
  · rename_i hfails
    rw [if_neg hfails] at hanswer
    simpa using hanswer

theorem lookup_of_unasked (env : Surroundings) (excludeErrors extraPasswords : List String)
    (data : Vars) (hunasked : template.question key = none) :
    let answer := template.acceptOrIgnoreVariables env excludeErrors extraPasswords data
    if template.askVariablesOnLaunch then
      answer.accepted.lookup key = data.lookup key ∧ answer.rejected.lookup key = none
    else
      answer.accepted.lookup key = none ∧
        answer.rejected.lookup key =
          (data.lookup key).filter fun value => !identical template key value := by
  have hanswer := lookup_answer env template excludeErrors extraPasswords data key
  rw [place_questions, hunasked] at hanswer
  dsimp only at hanswer ⊢
  split
  · rename_i hask
    simpa [hask] using hanswer
  · rename_i hask
    simpa [hask] using hanswer

structure Sorts (env : Surroundings) (template : SurveyTemplate)
    (excludeErrors extraPasswords : List String) (data : Vars) (answer : Acceptance) : Prop where
  /-- No variable is accepted and rejected. -/
  disjoint : ∀ key ∈ answer.accepted, key ∉ answer.rejected
  /-- Nothing is made up. -/
  given : ∀ key, key ∈ answer.accepted ∨ key ∈ answer.rejected → key ∈ data
  /-- Every variable is accepted, rejected or dropped, with the value that it has. -/
  kept : ∀ key value, data.lookup key = some value →
    answer.accepted.lookup key = some value ∧ key ∉ answer.rejected ∨
    key ∉ answer.accepted ∧ answer.rejected.lookup key = some value ∨
    key ∉ answer.accepted ∧ key ∉ answer.rejected ∧ template.question key = none ∧
      identical template key value = true
  /-- No question that names an accepted variable has an error. -/
  valid : ∀ key ∈ answer.accepted, ∀ element ∈ template.questions, element.variableKey = key →
    elementErrors env excludeErrors extraPasswords data element = []
  /-- Other variables are accepted when the template asks for them. -/
  asked : ∀ key ∈ answer.accepted, template.question key = none →
    template.askVariablesOnLaunch = true

/-- Whenever the first question of a variable has no error, no later one has. -/
def FirstDecides (env : Surroundings) (template : SurveyTemplate)
    (excludeErrors extraPasswords : List String) (data : Vars) : Prop :=
  ∀ key ∈ data, ∀ first, template.question key = some first →
    elementErrors env excludeErrors extraPasswords data first = [] →
      ∀ element ∈ template.questions, element.variableKey = key →
        elementErrors env excludeErrors extraPasswords data element = []

theorem notMem_iff_lookup {vars : Vars} : key ∉ vars ↔ vars.lookup key = none :=
  AList.lookup_eq_none.symm

theorem answer_cases {value : Value} (hvalue : data.lookup key = some value) :
    let answer := template.acceptOrIgnoreVariables env excludeErrors extraPasswords data
    answer.accepted.lookup key = some value ∧ key ∉ answer.rejected ∨
    key ∉ answer.accepted ∧ answer.rejected.lookup key = some value ∨
    key ∉ answer.accepted ∧ key ∉ answer.rejected ∧ template.question key = none ∧
      identical template key value = true := by
  dsimp only
  rw [notMem_iff_lookup, notMem_iff_lookup, ← hvalue]
  cases hquestion : template.question key with
  | some element =>
    have hends := lookup_of_question env excludeErrors extraPasswords data hquestion
    dsimp only at hends
    split at hends
    · exact .inl hends
    · exact .inr (.inl hends)
  | none =>
    have hends := lookup_of_unasked env excludeErrors extraPasswords data hquestion
    dsimp only at hends
    split at hends
    · exact .inl hends
    · rw [hvalue, Option.filter_some] at hends
      rw [hvalue]
      by_cases hsame : identical template key value = true
      · rw [hsame] at hends
        exact .inr (.inr ⟨hends.1, hends.2, rfl, hsame⟩)
      · rw [Bool.not_eq_true] at hsame
        rw [hsame] at hends
        exact .inr (.inl hends)

theorem notMem_answer (hdata : key ∉ data) :
    let answer := template.acceptOrIgnoreVariables env excludeErrors extraPasswords data
    key ∉ answer.accepted ∧ key ∉ answer.rejected := by
  dsimp only
  rw [notMem_iff_lookup] at hdata ⊢
  rw [notMem_iff_lookup]
  cases hquestion : template.question key with
  | some element =>
    have hends := lookup_of_question env excludeErrors extraPasswords data hquestion
    rw [hdata, ite_self] at hends
    exact hends
  | none =>
    have hends := lookup_of_unasked env excludeErrors extraPasswords data hquestion
    rw [hdata, Option.filter_none, ite_self] at hends
    exact hends

theorem question_isSome {element : SurveyElement} (hmem : element ∈ template.questions)
    (hkey : element.variableKey = key) : ∃ first, template.question key = some first := by
  obtain hnone | hsome := Option.eq_none_or_eq_some (template.question key)
  · exact absurd hkey (question_eq_none.mp hnone element hmem)
  · exact hsome

theorem mem_accepted_of_question {first : SurveyElement}
    (hfirst : template.question key = some first) :
    key ∈ (template.acceptOrIgnoreVariables env excludeErrors extraPasswords data).accepted ↔
      key ∈ data ∧ elementErrors env excludeErrors extraPasswords data first = [] := by
  have hends := lookup_of_question env excludeErrors extraPasswords data hfirst
  dsimp only at hends
  rw [← AList.lookup_isSome, ← AList.lookup_isSome]
  split at hends
  · rename_i hfits
    rw [hends.1]
    exact (and_iff_left hfits).symm
  · rename_i hfails
    rw [hends.1]
    exact ⟨fun h => absurd h Bool.false_ne_true, fun h => absurd h.2 hfails⟩

theorem ask_of_mem_accepted (hunasked : template.question key = none)
    (hmem : key ∈
      (template.acceptOrIgnoreVariables env excludeErrors extraPasswords data).accepted) :
    template.askVariablesOnLaunch = true := by
  have hends := lookup_of_unasked env excludeErrors extraPasswords data hunasked
  dsimp only at hends
  split at hends
  · assumption
  · exact absurd hmem (notMem_iff_lookup.mpr hends.1)

def plainTexts : Surroundings where
  texts := ⟨fun _ => "", fun _ => ""⟩
  readers := ⟨fun _ => .error .valueError, fun _ => none⟩
  encrypt := id
  decrypt := id
  resolve := fun _ => []

def boundedText (bound : Option ℤ) : SurveyElement where
  type := .text
  variableKey := "name"
  required := false
  default := none
  min := bound
  max := none
  choices := .list []
  dynamic := false

def askedTwice : SurveyTemplate where
  surveyEnabled := true
  spec := [boundedText none, boundedText (some 3)]
  askVariablesOnLaunch := false
  extraVarsDict := ∅
  verboseName := "Job Template"

theorem askedTwice_not_sorted :
    ¬ ∀ (env : Surroundings) (template : SurveyTemplate)
        (excludeErrors extraPasswords : List String) (data : Vars),
      Sorts env template excludeErrors extraPasswords data
        (template.acceptOrIgnoreVariables env excludeErrors extraPasswords data) := by
  intro hsorts
  have hfirst : askedTwice.question "name" = some (boundedText none) := rfl
  let data : Vars := AList.singleton "name" (.str "ab")
  have haccepted : "name" ∈ (askedTwice.acceptOrIgnoreVariables plainTexts [] [] data).accepted :=
    (mem_accepted_of_question hfirst).mpr ⟨AList.mem_keys.mpr (List.mem_singleton_self _), rfl⟩
  have hvalid := (hsorts plainTexts askedTwice [] [] data).valid "name" haccepted
    (boundedText (some 3)) (List.mem_cons_of_mem _ (List.mem_singleton_self _)) rfl
  exact absurd hvalid (by decide)

/-- The variables of a launch are sorted exactly when the first question of each of them speaks
for all. -/
theorem acceptOrIgnoreVariables_sorts_iff (env : Surroundings) (template : SurveyTemplate)
    (excludeErrors extraPasswords : List String) (data : Vars) :
    Sorts env template excludeErrors extraPasswords data
        (template.acceptOrIgnoreVariables env excludeErrors extraPasswords data) ↔
      FirstDecides env template excludeErrors extraPasswords data := by
  constructor
  · intro hsorts key hdata first hfirst hfits
    exact hsorts.valid key ((mem_accepted_of_question hfirst).mpr ⟨hdata, hfits⟩)
  · intro hdecides
    have hgiven : ∀ key,
        (key ∈ (template.acceptOrIgnoreVariables env excludeErrors extraPasswords data).accepted ∨
          key ∈ (template.acceptOrIgnoreVariables env excludeErrors extraPasswords data).rejected) →
        key ∈ data := by
      intro key hmem
      by_contra hdata
      exact hmem.elim (notMem_answer hdata).1 (notMem_answer hdata).2
    refine ⟨fun key hmem => ?_, hgiven, fun key value => answer_cases, ?_, ?_⟩
    · obtain ⟨value, hvalue⟩ := Option.isSome_iff_exists.mp
        (AList.lookup_isSome.mpr (hgiven key (.inl hmem)))
      obtain ⟨-, hrejected⟩ | ⟨haccepted, -⟩ | ⟨haccepted, -⟩ := answer_cases hvalue
      · exact hrejected
      · exact absurd hmem haccepted
      · exact absurd hmem haccepted
    · intro key hmem element helement hkey
      obtain ⟨first, hfirst⟩ := question_isSome helement hkey
      obtain ⟨hdata, hfits⟩ := (mem_accepted_of_question hfirst).mp hmem
      exact hdecides key hdata first hfirst hfits element helement hkey
    · exact fun key hmem hunasked => ask_of_mem_accepted hunasked hmem

end Acceptance

end Forail.Surveys

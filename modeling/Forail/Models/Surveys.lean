import Forail.Core.Dictionaries
import Forail.Core.Texts
import Forail.Eda.EventRules

/-!
# Surveys

A template accepts the variables of a launch that pass the validation of its survey, and
all others when it asks for variables.  The job of a template has the variables of the
template, the defaults of its survey and the variables that the launch passes on.
-/

namespace Forail.Surveys

open Forail.Json Forail.Texts

inductive QuestionType where
  | text
  | textarea
  | password
  | multiplechoice
  | multiselect
  | integer
  | float
  deriving DecidableEq, Repr

/-- A question of a survey.  `dynamic` says that its dynamic choices are enabled. -/
structure SurveyElement where
  type : QuestionType
  variableKey : String
  required : Bool
  default : Option Value
  min : Option ℤ
  max : Option ℤ
  choices : Value
  dynamic : Bool

/-- What a survey uses of its surroundings: the texts and readers of values, the
encryption of a text with its base64 encoding, the decryption of a stored text, and the
dynamic choices of a question as they resolve at present. -/
structure Surroundings where
  texts : Texts
  readers : Readers
  encrypt : String → String
  decrypt : String → String
  resolve : SurveyElement → List String

/-- A job template or a workflow template with what it says about variables. -/
structure SurveyTemplate where
  surveyEnabled : Bool
  spec : List SurveyElement
  askVariablesOnLaunch : Bool
  extraVarsDict : Vars
  verboseName : String

/-- The answer of `accept_or_ignore_variables`, with the errors under
`variables_needed_to_start` and `extra_vars`. -/
structure Acceptance where
  accepted : Vars
  rejected : Vars
  variablesNeededToStart : List String
  extraVars : List String

def encryptedMark : String := "$encrypted$"

def startsWith (mark text : String) : Bool := mark.toList.isPrefixOf text.toList

def isEncrypted : Value → Bool
  | .str text => startsWith encryptedMark text && decide (encryptedMark.length < text.length)
  | _ => false

variable (env : Surroundings)

def encryptValue (value : Value) : Value :=
  match value with
  | .null => .null
  | value =>
      let text := env.texts.text value
      if text = "" ∨ startsWith encryptedMark text = true then .str text
      else .str (encryptedMark ++ "UTF8$AESCBC$" ++ env.encrypt text)

def surveyChoiceList (element : SurveyElement) : List Value × Bool :=
  if element.dynamic then ((env.resolve element).map .str, true)
  else
    match element.choices with
    | .str text =>
        let choices := (splitlines text.toList).map String.ofList
        ((choices.filter fun choice => EventRules.strip choice ≠ "").map .str, false)
    | choices => (choices.items, false)

def choiceErrorMessage (element : SurveyElement) (value : Value) (choices : List Value)
    (isDynamic : Bool) : String :=
  "Value " ++ env.texts.text value ++ " for '" ++ element.variableKey ++
    (if isDynamic = false then
      "' expected to be one of " ++ env.texts.str (.list choices) ++ "."
    else if choices.isEmpty then
      "' could not be validated: its dynamic choices resolved to no options."
    else "' expected to be one of its " ++ toString choices.length ++ " dynamic choices.")

namespace SurveyElement

variable (element : SurveyElement)

def missing : String := "'" ++ element.variableKey ++ "' value missing"

def expected (value : Value) (kind : String) : String :=
  "Value " ++ env.texts.text value ++ " for '" ++ element.variableKey ++ "' expected to be " ++ kind

def outside (value : Value) (problem : String) (bound : ℤ) (ending : String) : String :=
  "'" ++ element.variableKey ++ "' value " ++ env.texts.text value ++ problem ++ toString bound ++
    ending

def boundErrors (value : Value) (below above : ℤ → Bool) (tooSmall : String) (smallEnd : String) :
    List String :=
  (element.min.toList.filter below).map (fun bound =>
      element.outside env value tooSmall bound smallEnd) ++
    (element.max.toList.filter above).map fun bound =>
      element.outside env value " is too large (must be no more than " bound ")."

def valueErrors (value : Value) : List String :=
  match element.type with
  | .text | .textarea | .password =>
      match value with
      | .str text =>
          element.boundErrors env value (fun bound => (text.length : ℤ) < bound)
            (fun bound => bound < (text.length : ℤ))
            (" is too small (length is " ++ toString text.length ++ " must be at least ") ")."
      | _ => [element.expected env value "a string."]
  | .integer =>
      match value with
      | .int number =>
          element.boundErrors env value (fun bound => number < bound) (fun bound => bound < number)
            " is too small (must be at least " ")."
      | _ => [element.expected env value "an integer."]
  | .float =>
      let number : Option Number :=
        match value with
        | .int number => some (.finite number)
        | .float number => some number
        | _ => none
      match number with
      | some number =>
          element.boundErrors env value (fun bound => number.below (floatOfInt bound))
            (fun bound => number.above (floatOfInt bound))
            " is too small (must be at least " ")."
      | none => [element.expected env value "a numeric type."]
  | .multiselect =>
      match value with
      | .list items =>
          let choices := surveyChoiceList env element
          (items.filter fun item => !choices.1.any item.equal).map fun item =>
            choiceErrorMessage env element item choices.1 choices.2
      | _ => ["'" ++ element.variableKey ++ "' value is expected to be a list."]
  | .multiplechoice =>
      let choices := surveyChoiceList env element
      if choices.1.any value.equal then []
      else [choiceErrorMessage env element value choices.1 choices.2]

end SurveyElement

def placeholder (element : SurveyElement) : Value → Bool
  | .str text => decide (element.type = .password ∧ text = encryptedMark)
  | _ => false

def surveyElementValidation (element : SurveyElement) (value : Option Value)
    (validateRequired : Bool) : List String :=
  match value with
  | none => if element.required && validateRequired then [element.missing] else []
  | some value =>
      if placeholder element value then
        if element.default.isNone && element.required && validateRequired then [element.missing]
        else []
      else element.valueErrors env value

/-- The state of the loop over the survey in `_accept_or_ignore_variables`. -/
structure Sorting where
  extraVars : Vars
  accepted : Vars
  rejected : Vars
  surveyErrors : List String

/-- The value that a question validates: a password that a launch has encrypted is
decrypted again. -/
def validated (extraPasswords : List String) (element : SurveyElement) (value : Value) : Value :=
  match value with
  | .str text =>
      if element.variableKey ∈ extraPasswords ∧ isEncrypted value = true then .str (env.decrypt text)
      else value
  | value => value

def elementErrors (excludeErrors extraPasswords : List String) (data : Vars)
    (element : SurveyElement) : List String :=
  surveyElementValidation env element
    ((data.lookup element.variableKey).map (validated env extraPasswords element))
    (!excludeErrors.contains "required")

def Sorting.sort (sorting : Sorting) (errors : List String) (key : String) : Sorting :=
  match sorting.extraVars.lookup key with
  | none => { sorting with surveyErrors := sorting.surveyErrors ++ errors }
  | some value =>
      let extraVars := sorting.extraVars.erase key
      if errors = [] then
        { sorting with extraVars := extraVars, accepted := sorting.accepted.insert key value }
      else
        { sorting with
          extraVars := extraVars
          rejected := sorting.rejected.insert key value
          surveyErrors := sorting.surveyErrors ++ errors }

def Sorting.survey (errors : SurveyElement → List String) (questions : List SurveyElement)
    (sorting : Sorting) : Sorting :=
  questions.foldl
    (fun sorting element => sorting.sort (errors element) element.variableKey) sorting

def identical (template : SurveyTemplate) (key : String) (value : Value) : Bool :=
  (template.extraVarsDict.lookup key).any value.equal

namespace SurveyTemplate

variable (template : SurveyTemplate)

def questions : List SurveyElement := if template.surveyEnabled then template.spec else []

def surveyPasswordVariables : List String :=
  (template.questions.filter fun element => element.type = .password).map SurveyElement.variableKey

def acceptOrIgnoreVariables (excludeErrors extraPasswords : List String) (data : Vars) :
    Acceptance :=
  let sorting := Sorting.survey (elementErrors env excludeErrors extraPasswords data)
    template.questions ⟨data, ∅, ∅, []⟩
  if template.askVariablesOnLaunch then
    ⟨sorting.extraVars ∪ sorting.accepted, sorting.rejected, sorting.surveyErrors, []⟩
  else
    let leftover := sorting.extraVars.entries.filter fun entry =>
      !identical template entry.1 entry.2
    let errors :=
      if leftover = [] ∨ "prompts" ∈ excludeErrors then []
      else ["Variables " ++ String.intercalate ", " (leftover.map Sigma.fst) ++
        " are not allowed on launch. Check the Prompt on Launch setting on the " ++
        template.verboseName ++ " to include Extra Variables."]
    ⟨sorting.accepted, leftover.toAList ∪ sorting.rejected, sorting.surveyErrors, errors⟩

def decryptedDefault (element : SurveyElement) (default : Value) : Value :=
  match default with
  | .str text =>
      if element.type = .password ∧ startsWith encryptedMark text = true then
        .str (env.decrypt text)
      else default
  | default => default

def surveyDefaults : Vars :=
  template.questions.foldl
    (fun defaults element =>
      match element.default with
      | none => defaults
      | some default =>
          let decrypted := decryptedDefault env element default
          if surveyElementValidation env element (some decrypted) true = [] then
            defaults.insert element.variableKey default
          else defaults) ∅

def ownVars : Vars := template.surveyDefaults env ∪ template.extraVarsDict

/-- The variables of a launch without the passwords that are kept. -/
def withoutPlaceholders (runtime : Vars) : Vars :=
  template.questions.foldl
    (fun vars element =>
      if (vars.lookup element.variableKey).any (placeholder element) then
        vars.erase element.variableKey
      else vars) runtime

end SurveyTemplate

def encryptDict (fields : List String) (vars : Vars) : Vars :=
  mapValues (fun key value => if key ∈ fields then encryptValue env value else value) vars

namespace SurveyTemplate

variable (template : SurveyTemplate)

def passedVars (runtime : Vars) : Vars :=
  template.withoutPlaceholders (encryptDict env template.surveyPasswordVariables runtime)

/-- The variables of the job of `create_unified_job`: `_update_unified_job_kwargs` combines
them, and `handle_extra_data` puts the variables of the launch in once more. -/
def createUnifiedJob (runtime : Vars) : Vars :=
  let passed := template.passedVars env runtime
  passed ∪ (passed ∪ template.ownVars env)

end SurveyTemplate

variable {env : Surroundings} {template : SurveyTemplate} {key : String}

/-! ## The variables that are accepted -/

theorem lookup_sort_of_ne (sorting : Sorting) (errors : List String) {other : String}
    (hne : key ≠ other) :
    (sorting.sort errors other).extraVars.lookup key = sorting.extraVars.lookup key ∧
      (sorting.sort errors other).accepted.lookup key = sorting.accepted.lookup key := by
  rw [Sorting.sort]
  split
  · exact ⟨rfl, rfl⟩
  · dsimp only
    split
    · exact ⟨AList.lookup_erase_ne hne, AList.lookup_insert_ne hne⟩
    · exact ⟨AList.lookup_erase_ne hne, rfl⟩

theorem lookup_sort_self (sorting : Sorting) (errors : List String) (key : String) :
    (sorting.sort errors key).extraVars.lookup key = none ∧
      (sorting.sort errors key).accepted.lookup key =
        if errors = [] then (sorting.extraVars.lookup key).or (sorting.accepted.lookup key)
        else sorting.accepted.lookup key := by
  rw [Sorting.sort]
  split
  · next hnone =>
    rw [hnone, Option.none_or, ite_self]
    exact ⟨rfl, rfl⟩
  · next value hvalue =>
    rw [hvalue, Option.some_or]
    dsimp only
    split
    · exact ⟨AList.lookup_erase _ _, AList.lookup_insert _⟩
    · exact ⟨AList.lookup_erase _ _, rfl⟩

theorem lookup_survey_of_none (errors : SurveyElement → List String)
    (questions : List SurveyElement) (sorting : Sorting)
    (hnone : sorting.extraVars.lookup key = none) :
    (sorting.survey errors questions).extraVars.lookup key = none ∧
      (sorting.survey errors questions).accepted.lookup key = sorting.accepted.lookup key := by
  induction questions generalizing sorting with
  | nil => exact ⟨hnone, rfl⟩
  | cons element questions ih =>
    have hstep : (sorting.sort (errors element) element.variableKey).extraVars.lookup key = none ∧
        (sorting.sort (errors element) element.variableKey).accepted.lookup key =
          sorting.accepted.lookup key := by
      by_cases hkey : key = element.variableKey
      · subst hkey
        have hself := lookup_sort_self sorting (errors element) element.variableKey
        rw [hnone, Option.none_or, ite_self] at hself
        exact hself
      · rw [← hnone]
        exact lookup_sort_of_ne sorting _ hkey
    obtain ⟨hleft, haccepted⟩ := ih _ hstep.1
    exact ⟨hleft, haccepted.trans hstep.2⟩

theorem lookup_survey (errors : SurveyElement → List String) (questions : List SurveyElement)
    (sorting : Sorting) (key : String) :
    match questions.find? fun element => element.variableKey = key with
    | none =>
        (sorting.survey errors questions).extraVars.lookup key = sorting.extraVars.lookup key ∧
          (sorting.survey errors questions).accepted.lookup key = sorting.accepted.lookup key
    | some element =>
        (sorting.survey errors questions).extraVars.lookup key = none ∧
          (sorting.survey errors questions).accepted.lookup key =
            if errors element = [] then
              (sorting.extraVars.lookup key).or (sorting.accepted.lookup key)
            else sorting.accepted.lookup key := by
  induction questions generalizing sorting with
  | nil => exact ⟨rfl, rfl⟩
  | cons element questions ih =>
    by_cases hkey : element.variableKey = key
    · rw [List.find?_cons_of_pos (by simpa using hkey)]
      subst hkey
      have hself := lookup_sort_self sorting (errors element) element.variableKey
      have hrest := lookup_survey_of_none errors questions _ hself.1
      exact ⟨hrest.1, hrest.2.trans hself.2⟩
    · rw [List.find?_cons_of_neg (by simpa using hkey)]
      have hstep := lookup_sort_of_ne sorting (errors element) (Ne.symm hkey)
      have hrest := ih (sorting.sort (errors element) element.variableKey)
      rw [hstep.1, hstep.2] at hrest
      exact hrest

/-- What a template lets a launch set: a variable of its survey whose value passes the
validation of the question, and any other variable when the template asks for them. -/
def SurveyTemplate.Permits (env : Surroundings) (template : SurveyTemplate) (key : String)
    (value : Value) : Prop :=
  match template.questions.find? fun element => element.variableKey = key with
  | some element => surveyElementValidation env element (some value) true = []
  | none => template.askVariablesOnLaunch = true

theorem validated_nil (element : SurveyElement) : validated env [] element = id := by
  funext value
  cases value with
  | str text =>
    rw [validated, if_neg fun hmem => List.not_mem_nil hmem.1]
    rfl
  | _ => rfl

theorem lookup_accepted (data : Vars) :
    (template.acceptOrIgnoreVariables env [] [] data).accepted.lookup key =
      let sorting := Sorting.survey (elementErrors env [] [] data) template.questions
        ⟨data, ∅, ∅, []⟩
      if template.askVariablesOnLaunch = true then
        (sorting.extraVars.lookup key).or (sorting.accepted.lookup key)
      else sorting.accepted.lookup key := by
  rw [SurveyTemplate.acceptOrIgnoreVariables]
  dsimp only
  split
  · rw [lookup_union]
  · rfl

theorem mem_accepted_iff (data : Vars) :
    key ∈ (template.acceptOrIgnoreVariables env [] [] data).accepted ↔
      ∃ value, data.lookup key = some value ∧ template.Permits env key value := by
  have hsurvey := lookup_survey (elementErrors env [] [] data) template.questions
    ⟨data, ∅, ∅, []⟩ key
  rw [← AList.lookup_isSome, lookup_accepted, Option.isSome_iff_exists]
  unfold SurveyTemplate.Permits
  cases hfind : template.questions.find? fun element => element.variableKey = key with
  | none =>
    rw [hfind] at hsurvey
    dsimp only at hsurvey ⊢
    rw [hsurvey.1, hsurvey.2, AList.lookup_empty, Option.or_none]
    split
    · next hask => exact exists_congr fun value => (and_iff_left hask).symm
    · next hask =>
      constructor
      · exact fun ⟨_, hvalue⟩ => absurd hvalue.symm (Option.some_ne_none _)
      · exact fun ⟨_, _, hasked⟩ => absurd hasked hask
  | some element =>
    rw [hfind] at hsurvey
    have hkey : element.variableKey = key := by simpa using List.find?_some hfind
    dsimp only at hsurvey ⊢
    rw [hsurvey.1, hsurvey.2, AList.lookup_empty, Option.or_none, Option.none_or, ite_self,
      elementErrors, validated_nil, hkey, Option.map_id, id_eq]
    split
    · next hfits =>
      apply exists_congr
      intro value
      constructor
      · intro hvalue
        rw [hvalue] at hfits
        exact ⟨hvalue, hfits⟩
      · exact fun hvalue => hvalue.1
    · next hfails =>
      constructor
      · exact fun ⟨_, hvalue⟩ => absurd hvalue.symm (Option.some_ne_none _)
      · rintro ⟨value, hvalue, hfits⟩
        rw [hvalue] at hfails
        exact absurd hfits hfails

/-! ## The variables of a job -/

/-- The value with which a launch passes a variable on: passwords are encrypted, and a
password that is kept is not passed on. -/
def launchedValue (env : Surroundings) (template : SurveyTemplate) (key : String)
    (value : Value) : Option Value :=
  if key ∈ template.surveyPasswordVariables then
    match encryptValue env value with
    | .str text => if text = encryptedMark then none else some (.str text)
    | encrypted => some encrypted
  else some value

theorem placeholder_iff {element : SurveyElement} {value : Value} :
    placeholder element value = true ↔ element.type = .password ∧ value = .str encryptedMark := by
  cases value with
  | str text => rw [placeholder, decide_eq_true_eq, Value.str.injEq]
  | _ =>
    constructor
    · exact fun hfalse => absurd hfalse Bool.false_ne_true
    · rintro ⟨-, hvalue⟩
      cases hvalue

def keptBy (questions : List SurveyElement) (key : String) (value : Option Value) : Bool :=
  questions.any fun element =>
    decide (element.variableKey = key) && value.any (placeholder element)

theorem keptBy_iff {value : Value} :
    keptBy template.questions key (some value) = true ↔
      key ∈ template.surveyPasswordVariables ∧ value = .str encryptedMark := by
  rw [keptBy, List.any_eq_true, SurveyTemplate.surveyPasswordVariables, List.mem_map]
  constructor
  · rintro ⟨element, hmem, hkept⟩
    obtain ⟨hkey, hplaceholder⟩ := Bool.and_eq_true_iff.mp hkept
    obtain ⟨htype, hvalue⟩ := placeholder_iff.mp hplaceholder
    refine ⟨⟨element, List.mem_filter.mpr ⟨hmem, ?_⟩, of_decide_eq_true hkey⟩, hvalue⟩
    exact decide_eq_true htype
  · rintro ⟨⟨element, hmem, hkey⟩, hvalue⟩
    obtain ⟨hquestion, htype⟩ := List.mem_filter.mp hmem
    refine ⟨element, hquestion, Bool.and_eq_true_iff.mpr ⟨decide_eq_true hkey, ?_⟩⟩
    exact placeholder_iff.mpr ⟨of_decide_eq_true htype, hvalue⟩

theorem lookup_foldl_placeholder (questions : List SurveyElement) (vars : Vars) :
    (questions.foldl
      (fun vars element =>
        if (vars.lookup element.variableKey).any (placeholder element) then
          vars.erase element.variableKey
        else vars) vars).lookup key =
      if keptBy questions key (vars.lookup key) = true then none else vars.lookup key := by
  induction questions generalizing vars with
  | nil => rfl
  | cons element questions ih =>
    rw [List.foldl_cons, ih, keptBy, keptBy, List.any_cons]
    by_cases hkey : element.variableKey = key
    · subst hkey
      rw [decide_eq_true rfl, Bool.true_and]
      split
      · next hplaceholder =>
        rw [AList.lookup_erase, ite_self, hplaceholder, Bool.true_or, if_pos rfl]
      · next hother => rw [Bool.eq_false_iff.mpr hother, Bool.false_or]
    · rw [decide_eq_false hkey, Bool.false_and, Bool.false_or]
      split
      · rw [AList.lookup_erase_ne (Ne.symm hkey)]
      · rfl

theorem lookup_encryptDict (fields : List String) (vars : Vars) :
    (encryptDict env fields vars).lookup key =
      (vars.lookup key).map fun value => if key ∈ fields then encryptValue env value else value :=
  lookup_mapValues _ vars

theorem lookup_passedVars (runtime : Vars) :
    (template.passedVars env runtime).lookup key =
      (runtime.lookup key).bind (launchedValue env template key) := by
  rw [SurveyTemplate.passedVars, SurveyTemplate.withoutPlaceholders, lookup_foldl_placeholder,
    lookup_encryptDict]
  cases runtime.lookup key with
  | none => rw [Option.map_none, ite_self, Option.bind_none]
  | some value =>
    rw [Option.map_some, Option.bind_some, launchedValue]
    by_cases hpassword : key ∈ template.surveyPasswordVariables
    · rw [if_pos hpassword, if_pos hpassword]
      generalize encryptValue env value = encrypted
      by_cases hmark : encrypted = .str encryptedMark
      · rw [if_pos (keptBy_iff.mpr ⟨hpassword, hmark⟩), hmark]
        rfl
      · rw [if_neg fun hkept => hmark (keptBy_iff.mp hkept).2]
        cases encrypted with
        | str text => exact (if_neg fun htext => hmark (congrArg _ htext)).symm
        | _ => rfl
    · rw [if_neg hpassword, if_neg hpassword, if_neg fun hkept => hpassword (keptBy_iff.mp hkept).1]

theorem lookup_createUnifiedJob (runtime : Vars) :
    (template.createUnifiedJob env runtime).lookup key =
      ((runtime.lookup key).bind (launchedValue env template key)).or
        ((template.ownVars env).lookup key) := by
  rw [SurveyTemplate.createUnifiedJob, lookup_union, lookup_union, ← Option.or_assoc,
    Option.or_self, lookup_passedVars]

end Forail.Surveys

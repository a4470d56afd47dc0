import Forail.Core.Json
import Forail.Policy.Evaluator

/-!
# The client of the policy server

The server is asked over HTTP, and its result, which a policy may give in several
shapes, is read as warnings and denials.
-/

namespace Forail.OpaClient

open Forail.Json Forail.PolicyEvaluator

/-- What comes of the request: an exception, or a response whose body may not be
JSON. -/
inductive Reply where
  | failed (error : String)
  | responded (status : ℕ) (text : String) (body : Except String Value)

def rstripSlash (url : String) : String :=
  String.ofList (url.toList.reverse.dropWhile fun char => char = '/').reverse

def dataUrl (serverUrl packagePath : String) : String :=
  rstripSlash serverUrl ++ "/v1/data/" ++
    packagePath.map fun char => if char = '.' then '/' else char

/-- The result of a package, or why the server counts as unavailable.  A package
that does not exist has no result. -/
def evaluate (serverUrl packagePath : String) (reply : Reply) : Except String Value :=
  if serverUrl = "" then .error "OPA_SERVER_URL is not set"
  else
    match reply with
    | .failed error => .error error
    | .responded status text body =>
        if 400 ≤ status then
          .error ("OPA POST " ++ dataUrl serverUrl packagePath ++ " returned " ++ toString status ++
            ": " ++ String.ofList (text.toList.take 200))
        else
          match body with
          | .error error => .error error
          | .ok (.dict entries) => .ok ((entries.lookup "result").getD (.dict []))
          | .ok _ => .ok (.dict [])

structure ParsedDecision where
  warns : List String
  denies : List String
  deriving DecidableEq, Repr

namespace ParsedDecision

def silent : ParsedDecision := ⟨[], []⟩

def deny (message : String) : ParsedDecision := ⟨[], [message]⟩

def warn (message : String) : ParsedDecision := ⟨[message], []⟩

def append (first second : ParsedDecision) : ParsedDecision :=
  ⟨first.warns ++ second.warns, first.denies ++ second.denies⟩

@[simp]
theorem denies_append (first second : ParsedDecision) :
    (first.append second).denies = first.denies ++ second.denies := rfl

end ParsedDecision

open ParsedDecision

def deniedMessage : String := "Policy denied launch."

variable (texts : Texts)

def parseViolation (violation : Value) : ParsedDecision :=
  let message := if (violation.get "message").truthy then texts.text (violation.get "message")
    else texts.dumps violation
  match violation.get "severity" with
  | .str "warn" => warn message
  | _ => deny message

def parseItem : Value → ParsedDecision
  | .str message => deny message
  | .dict entries => parseViolation texts (.dict entries)
  | _ => silent

def parseEntry (entry : Value) : ParsedDecision :=
  if entry.isDict then parseViolation texts entry else silent

def parseAll (parse : Value → ParsedDecision) (items : List Value) : ParsedDecision :=
  items.foldl (fun decision item => decision.append (parse item)) silent

/-- The `deny` of a result: a list of messages, or a bare verdict. -/
def parseDeny : Value → List String
  | .list items => items.map texts.text
  | .bool true => [deniedMessage]
  | _ => []

def parseDecision (result : Value) : ParsedDecision :=
  if ¬ result.truthy then silent
  else
    match result with
    | .bool _ => deny deniedMessage
    | .str message => deny message
    | .list items => parseAll (parseItem texts) items
    | .dict entries =>
        append ⟨(Value.get "warn" (.dict entries)).items.map texts.text,
            parseDeny texts (Value.get "deny" (.dict entries))⟩
          (parseAll (parseEntry texts) (Value.get "violations" (.dict entries)).items)
    | _ => silent

def answer (serverUrl : String) (reply : Policy → Reply) (policy : Policy) : OpaAnswer :=
  match evaluate serverUrl policy.packagePath (reply policy) with
  | .error error => .unavailable error
  | .ok result => .decided (parseDecision texts result).warns (parseDecision texts result).denies

/-! ## Denying results -/

def DenyingViolation (violation : Value) : Prop :=
  violation.isDict = true ∧ violation.get "severity" ≠ .str "warn"

def Denying : Value → Prop
  | .bool verdict => verdict = true
  | .str message => message ≠ ""
  | .list items => ∃ item ∈ items, (∃ message, item = .str message) ∨ DenyingViolation item
  | .dict entries => Value.get "deny" (.dict entries) = .bool true ∨
      (Value.get "deny" (.dict entries)).items ≠ [] ∨
        ∃ violation ∈ (Value.get "violations" (.dict entries)).items, DenyingViolation violation
  | _ => False

variable {texts}

theorem denies_foldl (parse : Value → ParsedDecision) (items : List Value)
    (decision : ParsedDecision) :
    (items.foldl (fun decision item => decision.append (parse item)) decision).denies =
      decision.denies ++ items.flatMap fun item => (parse item).denies := by
  induction items generalizing decision with
  | nil => exact (List.append_nil _).symm
  | cons item items ih => rw [List.foldl_cons, ih, denies_append, List.append_assoc, List.flatMap_cons]

theorem denies_parseAll_ne_nil_iff {parse : Value → ParsedDecision} {items : List Value} :
    (parseAll parse items).denies ≠ [] ↔ ∃ item ∈ items, (parse item).denies ≠ [] := by
  rw [parseAll, denies_foldl, silent, List.nil_append, ne_eq, List.flatMap_eq_nil_iff]
  simp only [not_forall, exists_prop, ne_eq]

theorem denies_parseViolation_ne_nil_iff {violation : Value} (hdict : violation.isDict = true) :
    (parseViolation texts violation).denies ≠ [] ↔ DenyingViolation violation := by
  rw [parseViolation, DenyingViolation, and_iff_right hdict]
  split
  · next hwarn => exact iff_of_false (not_not_intro rfl) (not_not_intro hwarn)
  · next hother => exact iff_of_true (List.cons_ne_nil _ _) hother

theorem denies_parseEntry_ne_nil_iff {entry : Value} :
    (parseEntry texts entry).denies ≠ [] ↔ DenyingViolation entry := by
  rw [parseEntry]
  split
  · next hdict => exact denies_parseViolation_ne_nil_iff hdict
  · next hother => exact iff_of_false (not_not_intro rfl) fun hdenying => hother hdenying.1

theorem denies_parseItem_ne_nil_iff {item : Value} :
    (parseItem texts item).denies ≠ [] ↔
      (∃ message, item = .str message) ∨ DenyingViolation item := by
  cases item with
  | str message => exact iff_of_true (List.cons_ne_nil _ _) (.inl ⟨message, rfl⟩)
  | dict entries =>
    rw [parseItem, denies_parseViolation_ne_nil_iff rfl]
    exact (or_iff_right fun hmessage => Value.noConfusion hmessage.choose_spec).symm
  | null | bool | int | float | list =>
    refine iff_of_false (not_not_intro rfl) fun hitem => ?_
    cases hitem with
    | inl hmessage => exact Value.noConfusion hmessage.choose_spec
    | inr hdenying => exact Bool.noConfusion hdenying.1

variable (texts) in
theorem parseDeny_ne_nil_iff {value : Value} :
    parseDeny texts value ≠ [] ↔ value = .bool true ∨ value.items ≠ [] := by
  cases value with
  | bool verdict =>
    cases verdict with
    | true => exact iff_of_true (List.cons_ne_nil _ _) (.inl rfl)
    | false => simp [parseDeny, Value.items]
  | list items => simp [parseDeny, Value.items]
  | null | int | float | str | dict => simp [parseDeny, Value.items]

theorem Denying.truthy {result : Value} (hdenying : Denying result) : result.truthy = true := by
  cases result with
  | bool verdict => exact hdenying
  | str message => exact decide_eq_true hdenying
  | list items =>
    obtain ⟨item, hitem, -⟩ := hdenying
    cases items with
    | nil => exact absurd hitem List.not_mem_nil
    | cons => rfl
  | dict entries =>
    cases entries with
    | nil => simp [Denying, Value.get, Value.items] at hdenying
    | cons => rfl
  | null | int | float => exact hdenying.elim

theorem denies_parseDecision_ne_nil_iff {result : Value} :
    (parseDecision texts result).denies ≠ [] ↔ Denying result := by
  rw [parseDecision.eq_def]
  split
  · next hfalse =>
    exact iff_of_false (not_not_intro rfl) fun hdenying => hfalse hdenying.truthy
  · next htrue =>
    cases result with
    | bool verdict => exact iff_of_true (List.cons_ne_nil _ _) (not_not.mp htrue)
    | str message =>
      have hmessage : decide (message ≠ "") = true := not_not.mp htrue
      exact iff_of_true (List.cons_ne_nil _ _) (show message ≠ "" from of_decide_eq_true hmessage)
    | list items =>
      rw [denies_parseAll_ne_nil_iff, Denying]
      simp only [denies_parseItem_ne_nil_iff]
    | dict entries =>
      rw [denies_append, Denying, ← or_assoc, ← parseDeny_ne_nil_iff texts, ne_eq,
        List.append_eq_nil_iff, not_and_or]
      refine or_congr Iff.rfl ?_
      rw [← ne_eq, denies_parseAll_ne_nil_iff]
      simp only [denies_parseEntry_ne_nil_iff]
    | null | int | float => exact iff_of_false (not_not_intro rfl) id

end Forail.OpaClient

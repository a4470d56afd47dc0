import Forail.Policy.OpaClient

/-!
# Denials that the client drops

A denial that is read as a whole result may be ignored under the key `deny`: there a
text or an object is skipped, and so is whatever is no object among the violations.
-/

namespace Forail.DroppedDenials

open Forail.Json Forail.OpaClient Forail.OpaClient.ParsedDecision

/-! ## The reader with its exceptions -/

variable (texts : Texts)

def readViolation (violation : Value) : Except String ParsedDecision := do
  let message ← violation.tryGet "message"
  let severity ← violation.tryGet "severity"
  let text := if message.truthy then texts.text message else texts.dumps violation
  return match severity with
    | .str "warn" => warn text
    | _ => deny text

def readItem : Value → Except String ParsedDecision
  | .str message => return deny message
  | .dict entries => readViolation texts (.dict entries)
  | _ => return silent

def readEntry (entry : Value) : Except String ParsedDecision :=
  if entry.isDict then readViolation texts entry else return silent

def readAll (read : Value → Except String ParsedDecision) (items : List Value) :
    Except String ParsedDecision :=
  items.foldlM (fun decision item => return decision.append (← read item)) silent

/-- `parse_decision`, where `get` raises on what is no dictionary. -/
def readDecision (result : Value) : Except String ParsedDecision :=
  if ¬ result.truthy then return silent
  else
    match result with
    | .bool _ => return deny deniedMessage
    | .str message => return deny message
    | .list items => readAll (readItem texts) items
    | .dict entries => do
        let warnVal ← Value.tryGet "warn" (.dict entries)
        let denyVal ← Value.tryGet "deny" (.dict entries)
        let violations ← Value.tryGet "violations" (.dict entries)
        let read ← readAll (readEntry texts) violations.items
        return append ⟨warnVal.items.map texts.text, parseDeny texts denyVal⟩ read
    | _ => return silent

variable {texts}

theorem readViolation_eq {violation : Value} (hdict : violation.isDict = true) :
    readViolation texts violation = .ok (parseViolation texts violation) := by
  have hget : ∀ key, violation.tryGet key = .ok (violation.get key) := fun key => if_pos hdict
  rw [readViolation, hget, hget, parseViolation]
  rfl

theorem readItem_eq (item : Value) : readItem texts item = .ok (parseItem texts item) := by
  cases item with
  | dict entries => exact readViolation_eq rfl
  | null | bool | int | float | str | list => rfl

theorem readEntry_eq (entry : Value) : readEntry texts entry = .ok (parseEntry texts entry) := by
  rw [readEntry, parseEntry]
  split
  · next hdict => exact readViolation_eq hdict
  · rfl

theorem readAll_eq {read : Value → Except String ParsedDecision}
    {parse : Value → ParsedDecision} (hread : ∀ item, read item = .ok (parse item))
    (items : List Value) : readAll read items = .ok (parseAll parse items) := by
  have hpure : read = fun item => pure (parse item) := funext hread
  rw [readAll, parseAll, hpure]
  simp only [pure_bind]
  exact List.foldlM_pure

theorem readDecision_eq (result : Value) :
    readDecision texts result = .ok (parseDecision texts result) := by
  rw [readDecision.eq_def, parseDecision.eq_def]
  split
  · rfl
  · cases result with
    | list items => exact readAll_eq readItem_eq items
    | dict entries =>
      have hget : ∀ key, Value.tryGet key (.dict entries) = .ok (Value.get key (.dict entries)) :=
        fun key => rfl
      simp only [hget, readAll_eq readEntry_eq]
      rfl
    | null | bool | int | float | str => rfl

/-! ## Signals -/

def MarkedWarn (entry : Value) : Prop :=
  entry.isDict = true ∧ entry.get "severity" = .str "warn"

def DenySignals : Value → Prop
  | .bool verdict => verdict = true
  | .str message => message ≠ ""
  | .list items => items ≠ []
  | .dict entries => entries ≠ []
  | _ => False

def Signals : Value → Prop
  | .bool verdict => verdict = true
  | .str message => message ≠ ""
  | .list items => items ≠ []
  | .dict entries => DenySignals (Value.get "deny" (.dict entries)) ∨
      ∃ entry ∈ (Value.get "violations" (.dict entries)).items, ¬ MarkedWarn entry
  | _ => False

def SkippedDeny : Value → Prop
  | .str message => message ≠ ""
  | .dict entries => entries ≠ []
  | _ => False

def ReadDeny : Value → Prop
  | .bool verdict => verdict = true
  | .list items => items ≠ []
  | _ => False

/-- Results whose signal is skipped.  Of a list these are the members that are neither
texts nor objects, and the warnings; of an object a skipped `deny` and the violations
that are no objects, as long as nothing else of it is read as a denial. -/
def Unread : Value → Prop
  | .list items => items ≠ [] ∧
      ∀ item ∈ items, (∀ message, item ≠ .str message) ∧ (item.isDict = true → MarkedWarn item)
  | .dict entries =>
      ¬ ReadDeny (Value.get "deny" (.dict entries)) ∧
      (∀ entry ∈ (Value.get "violations" (.dict entries)).items,
        entry.isDict = true → MarkedWarn entry) ∧
      (SkippedDeny (Value.get "deny" (.dict entries)) ∨
        ∃ entry ∈ (Value.get "violations" (.dict entries)).items, entry.isDict = false)
  | _ => False

theorem not_denyingViolation_iff {entry : Value} :
    ¬ DenyingViolation entry ↔ (entry.isDict = true → MarkedWarn entry) := by
  rw [DenyingViolation, MarkedWarn, not_and, not_not]
  exact ⟨fun hwarn hdict => ⟨hdict, hwarn hdict⟩, fun hwarn hdict => (hwarn hdict).2⟩

theorem readDeny_iff {value : Value} :
    ReadDeny value ↔ value = .bool true ∨ value.items ≠ [] := by
  cases value with
  | bool verdict => cases verdict <;> simp [ReadDeny, Value.items]
  | null | int | float | str | list | dict => simp [ReadDeny, Value.items]

theorem denySignals_iff {value : Value} :
    DenySignals value ↔ ReadDeny value ∨ SkippedDeny value := by
  cases value <;> simp [DenySignals, ReadDeny, SkippedDeny]

theorem not_markedWarn_iff {entry : Value} :
    ¬ MarkedWarn entry ↔ DenyingViolation entry ∨ entry.isDict = false := by
  rw [MarkedWarn, DenyingViolation, not_and]
  cases entry.isDict <;> simp

theorem denying_dict_iff {entries : List (String × Value)} :
    Denying (.dict entries) ↔ ReadDeny (Value.get "deny" (.dict entries)) ∨
      ∃ entry ∈ (Value.get "violations" (.dict entries)).items, DenyingViolation entry := by
  rw [Denying, readDeny_iff, or_assoc]

theorem signal_left_over_iff {readDeny skippedDeny readEntry skippedEntry : Prop} :
    ((readDeny ∨ skippedDeny) ∨ readEntry ∨ skippedEntry) ∧ ¬ (readDeny ∨ readEntry) ↔
      ¬ readDeny ∧ ¬ readEntry ∧ (skippedDeny ∨ skippedEntry) := by
  tauto

theorem signals_and_not_denying_iff {result : Value} :
    Signals result ∧ ¬ Denying result ↔ Unread result := by
  cases result with
  | list items =>
    rw [Signals, Denying, Unread]
    refine and_congr_right fun _ => ?_
    simp only [not_exists, not_and, not_or, not_denyingViolation_iff, ne_eq]
  | dict entries =>
    have hviolations : (∃ entry ∈ (Value.get "violations" (.dict entries)).items,
        ¬ MarkedWarn entry) ↔
          (∃ entry ∈ (Value.get "violations" (.dict entries)).items, DenyingViolation entry) ∨
          ∃ entry ∈ (Value.get "violations" (.dict entries)).items, entry.isDict = false := by
      simp only [not_markedWarn_iff, and_or_left, exists_or]
    have hnone : (∀ entry ∈ (Value.get "violations" (.dict entries)).items,
        entry.isDict = true → MarkedWarn entry) ↔
          ¬ ∃ entry ∈ (Value.get "violations" (.dict entries)).items, DenyingViolation entry := by
      simp only [not_exists, not_and, not_denyingViolation_iff]
    rw [Signals, Unread, denying_dict_iff, denySignals_iff, hviolations, hnone]
    exact signal_left_over_iff
  | bool verdict => exact iff_of_false (fun hboth => hboth.2 hboth.1) id
  | str message => exact iff_of_false (fun hboth => hboth.2 hboth.1) id
  | null | int | float => exact iff_of_false (fun hboth => hboth.1) id

/-- A result that signals a denial is read without an exception, and as a denial
exactly when its signal is not a skipped one. -/
theorem signal_denied_iff (texts : Texts) (result : Value) :
    (∃ decision, readDecision texts result = .ok decision ∧
      (Signals result → decision.denies ≠ [])) ↔ ¬ Unread result := by
  have hread : (∃ decision, readDecision texts result = .ok decision ∧
      (Signals result → decision.denies ≠ [])) ↔ (Signals result → Denying result) := by
    rw [readDecision_eq]
    simp only [Except.ok.injEq, exists_eq_left', denies_parseDecision_ne_nil_iff]
  rw [hread, ← signals_and_not_denying_iff, not_and, not_not]

def textDeny : Value := .dict [("deny", .str "blocked")]

theorem textDeny_dropped :
    ¬ ∀ (texts : Texts) (result : Value), ∃ decision, readDecision texts result = .ok decision ∧
      (Signals result → decision.denies ≠ []) := by
  intro hread
  obtain ⟨decision, hdecision, hdenies⟩ := hread ⟨fun _ => "", fun _ => ""⟩ textDeny
  have hsilent : decision = silent := (Except.ok.inj hdecision).symm
  have hsignals : Signals textDeny := .inl (show "blocked" ≠ "" by decide)
  exact hdenies hsignals (congrArg denies hsilent)

end Forail.DroppedDenials

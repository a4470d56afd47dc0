import Forail.Core.Json

/-!
# The adapters of the scanning tools

Each tool is run as a subprocess and prints a report in JSON.  Its adapter reads the
report as findings.  An adapter that finds no JSON reads no findings; a report of an
unexpected shape may raise an exception.
-/

namespace Forail.Scanning

open Forail.Json

inductive Severity where
  | info
  | low
  | medium
  | high
  | critical
  deriving DecidableEq, Repr

namespace Severity

def name : Severity → String
  | info => "info"
  | low => "low"
  | medium => "medium"
  | high => "high"
  | critical => "critical"

def order : Severity → ℕ
  | info => 0
  | low => 1
  | medium => 2
  | high => 3
  | critical => 4

end Severity

structure NormalizedFinding where
  ruleId : String
  severity : Severity
  filePath : String
  line : Option ℤ
  message : String
  deriving DecidableEq, Repr

inductive Tool where
  | ansibleLint
  | checkov
  | pipAudit
  deriving DecidableEq, Repr

namespace Tool

def name : Tool → String
  | ansibleLint => "ansible-lint"
  | checkov => "checkov"
  | pipAudit => "pip-audit"

def adapter (toolName : String) : Option Tool :=
  [ansibleLint, checkov, pipAudit].find? fun tool => tool.name = toolName

end Tool

/-- What the adapters take from Python: the texts of values, and its readers. -/
structure Python extends Texts, Readers

variable (python : Python)

def textOf (value : Value) : String := if value.truthy then python.text value else ""

/-- The items of a loop that skips what is no dictionary. -/
def dicts (items : List Value) : List Value := items.filter Value.isDict

/-! ## ansible-lint -/

namespace AnsibleLint

def mapSeverity (raw : Value) : Severity :=
  if ¬ raw.truthy then .info
  else if (python.text raw).toLower = "warning" then .low
  else if (python.text raw).toLower = "error" then .high
  else .low

/-- The first of the categories, which stand for a severity that is not given. -/
def firstCategory (item : Value) : Except String Value :=
  let categories := (item.get "categories").or (.list [])
  match categories with
  | .list (first :: _) => .ok first
  | .list [] => .ok (.str "")
  | .str value => .ok (.str (String.ofList (value.toList.take 1)))
  | .dict _ => .error "KeyError"
  | _ => .error "TypeError"

def severityOf (item : Value) : Except String Severity :=
  if (item.get "severity").truthy then .ok (mapSeverity python (item.get "severity"))
  else (firstCategory item).map (mapSeverity python)

def ruleOf (item : Value) : Except String Value :=
  let named := (item.get "check_name").or (item.get "rule_id")
  if named.truthy then .ok named
  else ((item.get "rule").or (.dict [])).tryGet "id"

def lineOf (item location : Value) : Except String (Option ℤ) :=
  let lines := (location.get "lines").or (.dict [])
  let line := match lines with
    | .dict _ => (lines.get "begin").or (lines.get "start")
    | .int _ | .bool _ => lines
    | _ => .null
  match line with
  | .null => python.toInt (item.get "line")
  | line => python.toInt line

def readItem (item : Value) : Except String NormalizedFinding := do
  let rule ← ruleOf item
  let severity ← severityOf python item
  let location := (item.get "location").or (.dict [])
  let path ← location.tryGet "path"
  let line ← lineOf python item location
  return {
    ruleId := textOf python rule
    severity := severity
    filePath := textOf python (path.or (item.get "filename"))
    line := line
    message := textOf python ((item.get "message").or (item.get "description")) }

def itemsOf : Value → Option Value
  | .dict entries => some (((Value.get "issues" (.dict entries)).or
      (Value.get "results" (.dict entries))).or (.list []))
  | .list items => some (.list items)
  | _ => none

def readReport (data : Value) : Except String (List NormalizedFinding) :=
  match itemsOf data with
  | none => .ok []
  | some items => do (dicts (← items.iter)).mapM (readItem python)

end AnsibleLint

/-! ## checkov -/

namespace Checkov

def severities : List Severity := [.info, .low, .medium, .high, .critical]

def mapSeverity (raw : Value) : Severity :=
  (severities.find? fun severity => (python.text raw).toLower = severity.name).getD .medium

def severityOf (item : Value) : Severity :=
  match item.get "severity" with
  | .null => .medium
  | raw => mapSeverity python raw

def lineOf (item : Value) : Except String (Option ℤ) :=
  match item.get "file_line_range" with
  | .list (first :: _) => python.toInt first
  | _ => .ok none

def readItem (item : Value) : Except String NormalizedFinding := do
  let line ← lineOf python item
  return {
    ruleId := textOf python ((item.get "check_id").or (item.get "bc_check_id"))
    severity := severityOf python item
    filePath := textOf python ((item.get "file_path").or (item.get "repo_file_path"))
    line := line
    message := textOf python ((item.get "check_name").or (item.get "description")) }

/-- The envelopes of a report: one, or one for each framework. -/
def envelopes : Value → List Value
  | .list items => items
  | data => [data]

def readEnvelope (envelope : Value) : Except String (List NormalizedFinding) := do
  let failed ← ((envelope.get "results").or (.dict [])).tryGet "failed_checks"
  (dicts (← (failed.or (.list [])).iter)).mapM (readItem python)

def readReport (data : Value) : Except String (List NormalizedFinding) :=
  ((dicts (envelopes data)).mapM (readEnvelope python)).map List.flatten

end Checkov

/-! ## pip-audit -/

namespace PipAudit

def joinFix (fix : Value) : Except String String := do
  let parts ← (← fix.iter).mapM fun part =>
    match part with
    | .str value => Except.ok value
    | _ => Except.error "TypeError"
  return ", ".intercalate parts

def readVuln (dep vuln : Value) : Except String NormalizedFinding := do
  let name := textOf python ((dep.get "name").or (dep.get "package"))
  let summary := name ++ " " ++ textOf python (dep.get "version") ++ ": " ++
    textOf python (vuln.get "description")
  let fix := (vuln.get "fix_versions").or (.list [])
  let message ← if fix.truthy then do
      pure (summary ++ " (fix: " ++ (← joinFix fix) ++ ")")
    else pure summary
  return {
    ruleId := textOf python (vuln.get "id")
    severity := .high
    filePath := name
    line := none
    message := message }

def readDep (dep : Value) : Except String (List NormalizedFinding) := do
  (dicts (← ((dep.get "vulns").or (.list [])).iter)).mapM (readVuln python dep)

def depsOf : Value → Option Value
  | .dict entries => some ((Value.get "dependencies" (.dict entries)).or (.list []))
  | .list items => some (.list items)
  | _ => none

def readReport (data : Value) : Except String (List NormalizedFinding) :=
  match depsOf data with
  | none => .ok []
  | some deps => do return ((← (dicts (← deps.iter)).mapM (readDep python)).flatten)

end PipAudit

/-! ## Reading the output of a tool -/

namespace Tool

def readReport (tool : Tool) : Value → Except String (List NormalizedFinding) :=
  match tool with
  | ansibleLint => AnsibleLint.readReport python
  | checkov => Checkov.readReport python
  | pipAudit => PipAudit.readReport python

/-- `parse_output`, which is the same for all tools but for the report: no output and
an output that is not JSON are read as no findings. -/
def parseOutput (tool : Tool) (stdout : String) : Except String (List NormalizedFinding) :=
  if stdout = "" then .ok []
  else
    match python.loads stdout with
    | .error .valueError => .ok []
    | .error (.other error) => .error error
    | .ok data => tool.readReport python data

def IsDictList (value : Value) : Prop :=
  ∃ items, value.or (.list []) = .list items ∧ ∀ item ∈ items, item.isDict = true

def HasShape (tool : Tool) (data : Value) : Prop :=
  match tool with
  | ansibleLint => ∃ items, AnsibleLint.itemsOf data = some items ∧ IsDictList items
  | checkov => ∀ envelope ∈ Checkov.envelopes data, envelope.isDict = true ∧
      IsDictList (((envelope.get "results").or (.dict [])).get "failed_checks")
  | pipAudit => ∃ deps, PipAudit.depsOf data = some deps ∧ IsDictList deps ∧
      ∀ dep ∈ deps.items, IsDictList (dep.get "vulns")

/-- The output is a report of the tool: JSON of its shape, that its adapter reads
without an exception. -/
def IsReport (tool : Tool) (stdout : String) : Prop :=
  ∃ data findings, stdout ≠ "" ∧ python.loads stdout = .ok data ∧ tool.HasShape data ∧
    tool.readReport python data = .ok findings

end Tool

end Forail.Scanning

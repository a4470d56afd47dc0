import Forail.Core.Verdicts
import Forail.Scanning.Tools

/-!
# The scanner gate of a launch

Every enabled scanner that applies to a launch and has a target is run.  Its findings
at the threshold block or warn by its enforcement.  A scanner that times out, cannot be
run or whose adapter raises an exception counts as unavailable, and the fail mode
decides.
-/

namespace Forail.Scanning

open Forail.Json Forail.Verdicts

abbrev OrganizationId := ℕ

inductive Enforcement where
  | warn
  | enforce
  deriving DecidableEq, Repr

inductive Status where
  | ok
  | warn
  | blocked
  | error
  | timeout
  deriving DecidableEq, Repr

inductive FailDecision where
  | allow
  | deny
  deriving DecidableEq, Repr

def severityAtOrAbove (finding threshold : Severity) : Bool := threshold.order ≤ finding.order

def effectiveEnforcement (globalEnabled : Bool) (scannerEnforcement : Enforcement) :
    Option Enforcement :=
  if ¬ globalEnabled then none
  else if scannerEnforcement = .enforce then some .enforce
  else some .warn

def aggregateStatus (findings : List NormalizedFinding) (threshold : Severity) : Status :=
  if findings = [] then .ok
  else if findings.any fun finding => severityAtOrAbove finding.severity threshold then .blocked
  else .warn

def failModeDecision (scannerUnavailable : Bool) (failMode : String) : FailDecision :=
  if ¬ scannerUnavailable then .allow else if failMode = "allow" then .allow else .deny

structure Scanner where
  name : String
  organization : Option OrganizationId
  tool : String
  severityThreshold : Severity
  enforcement : Enforcement
  enabled : Bool
  appliesTo : List String
  deriving DecidableEq, Repr

def Scanner.appliesToResource (scanner : Scanner) (resourceType : String) : Bool :=
  if scanner.appliesTo = [] then true else resourceType ∈ scanner.appliesTo

inductive Outcome where
  | completed (stdout stderr : String) (returncode : ℤ)
  | timedOut (message : String)
  | failed (message : String)
  | raised (message : String)
  deriving DecidableEq, Repr

structure ScanResult where
  scannerName : String
  /-- Whether the result keeps the link to the job. -/
  linked : Bool
  status : Status
  highestSeverity : Option Severity
  message : String
  rawOutput : String
  findings : List NormalizedFinding
  deriving DecidableEq, Repr

structure ScanRunResult where
  allowed : Bool
  warnMessages : List String
  blockMessages : List String
  results : List ScanResult
  deriving DecidableEq, Repr

def ScanRunResult.empty : ScanRunResult where
  allowed := true
  warnMessages := []
  blockMessages := []
  results := []

structure ScanSettings where
  scannerEnabled : Bool
  timeoutS : ℕ
  failMode : String
  rawOutputMax : ℕ
  deriving DecidableEq, Repr

structure ScanJob where
  resourceType : String
  organization : Option OrganizationId
  projectPath : Option String
  playbook : String
  deriving DecidableEq, Repr

/-- A launch in its surroundings: the settings, the scanners of the database, the file
system's `realpath`, and what comes of each scanner's subprocess. -/
structure Launch where
  settings : ScanSettings
  job : ScanJob
  scanners : List Scanner
  realpath : String → String
  outcome : Scanner → Outcome

def truncate (length : ℕ) (text : String) : String := String.ofList (text.toList.take length)

/-! ## The target of a scanner -/

def joinPath (base path : String) : String :=
  if path.toList.head? = some '/' then path
  else if base = "" ∨ base.toList.getLast? = some '/' then base ++ path
  else base ++ "/" ++ path

namespace Launch

variable (launch : Launch)

/-- The playbook inside the checkout; one that leaves it is refused. -/
def playbookTarget (projectPath playbook : String) : Option String :=
  let base := launch.realpath projectPath
  let target := launch.realpath (joinPath base playbook)
  if target ≠ base ∧ ¬ (base ++ "/").toList.isPrefixOf target.toList then none else some target

def resolveTarget (toolName : String) : Option String :=
  match launch.job.projectPath with
  | none | some "" => none
  | some projectPath =>
      if launch.job.resourceType = "workflow_job_template" then none
      else if launch.job.resourceType = "job_template" then
        if launch.job.playbook = "" then none
        else launch.playbookTarget projectPath launch.job.playbook
      else if launch.job.resourceType = "ad_hoc_command" then
        if toolName = "ansible-lint" then none else some projectPath
      else some projectPath

def runs (scanner : Scanner) : Option Tool :=
  (Tool.adapter scanner.tool).bind fun tool =>
    match launch.resolveTarget scanner.tool with
    | none | some "" => none
    | some _ => some tool

def applicable : List Scanner :=
  launch.scanners.filter fun scanner =>
    scanner.enabled &&
      (decide (scanner.organization = none) ||
        decide (scanner.organization = launch.job.organization)) &&
      scanner.appliesToResource launch.job.resourceType

end Launch

/-! ## One scanner -/

/-- The findings of a scanner, or the status and the message of an unavailable one. -/
structure Unavailability where
  status : Status
  stderr : String
  deriving DecidableEq, Repr

variable (python : Python)

def scan (settings : ScanSettings) (tool : Tool) :
    Outcome → Except Unavailability (List NormalizedFinding)
  | .completed stdout stderr _ =>
      match tool.parseOutput python stdout with
      | .error _ => .error ⟨.error, stderr⟩
      | .ok findings => .ok findings
  | .timedOut message =>
      .error ⟨.timeout,
        "Scanner timed out after " ++ toString settings.timeoutS ++ "s: " ++ message⟩
  | .failed message => .error ⟨.error, "Scanner subprocess failed: " ++ message⟩
  | .raised message => .error ⟨.error, "Scanner subprocess exception: " ++ message⟩

def Outcome.stdout : Outcome → String
  | .completed stdout _ _ => stdout
  | _ => ""

def highestSeverity (findings : List NormalizedFinding) : Option Severity :=
  findings.foldl (fun highest finding =>
    match highest with
    | none => some finding.severity
    | some severity =>
        if severity.order < finding.severity.order then some finding.severity else highest) none

namespace ScanRunResult

variable (result : ScanRunResult) (scanner : Scanner)

def unavailable (settings : ScanSettings) (stdout : String) (reason : Unavailability) :
    ScanRunResult :=
  let decision := failModeDecision true settings.failMode
  let message := if truncate 512 reason.stderr ≠ "" then truncate 512 reason.stderr
    else "Scanner " ++ scanner.tool ++ " unavailable."
  let row : ScanResult :=
    { scannerName := scanner.name
      linked := decision ≠ .deny
      status := reason.status
      highestSeverity := none
      message := message
      rawOutput := truncate settings.rawOutputMax (if stdout ≠ "" then stdout else reason.stderr)
      findings := [] }
  let line := "[" ++ scanner.name ++ "] " ++ message
  if decision = .deny then
    { result with
      allowed := false
      blockMessages := result.blockMessages ++ [line]
      results := result.results ++ [row] }
  else
    { result with
      warnMessages := result.warnMessages ++ [line]
      results := result.results ++ [row] }

def findingLine (finding : NormalizedFinding) : String :=
  let line := match finding.line with
    | none | some 0 => ""
    | some line => toString line
  truncate 512 ("[" ++ scanner.name ++ "] " ++ finding.ruleId ++ " " ++ finding.filePath ++ ":" ++
    line ++ " " ++ finding.message)

def scannedStatus (filtered : List NormalizedFinding) : Status :=
  if filtered = [] then .ok
  else if aggregateStatus filtered scanner.severityThreshold = .blocked ∧
      effectiveEnforcement true scanner.enforcement = some .enforce then .blocked
  else .warn

def scanned (settings : ScanSettings) (stdout : String) (findings : List NormalizedFinding) :
    ScanRunResult :=
  let filtered := findings.filter fun finding =>
    severityAtOrAbove finding.severity scanner.severityThreshold
  let status := scannedStatus scanner filtered
  let highest := highestSeverity filtered
  let message := match filtered with
    | [] => ""
    | first :: _ => truncate 512 (toString filtered.length ++ " finding(s); first: [" ++
        first.severity.name ++ "] " ++ first.ruleId ++ " " ++ first.message)
  let row : ScanResult :=
    { scannerName := scanner.name
      linked := status ≠ .blocked
      status := status
      highestSeverity := highest
      message := message
      rawOutput := truncate settings.rawOutputMax stdout
      findings := filtered }
  if status = .blocked then
    { result with
      allowed := false
      blockMessages := result.blockMessages ++ filtered.map (findingLine scanner)
      results := result.results ++ [row] }
  else if status = .warn then
    { result with
      warnMessages := result.warnMessages ++
        ["[" ++ scanner.name ++ "] " ++ toString filtered.length ++ " finding(s), highest=" ++
          (highest.map Severity.name).getD ""]
      results := result.results ++ [row] }
  else { result with results := result.results ++ [row] }

end ScanRunResult

def runScanner (launch : Launch) (result : ScanRunResult) (scanner : Scanner) : ScanRunResult :=
  match launch.runs scanner with
  | none => result
  | some tool =>
      match scan python launch.settings tool (launch.outcome scanner) with
      | .error reason =>
          result.unavailable scanner launch.settings (launch.outcome scanner).stdout reason
      | .ok findings =>
          result.scanned scanner launch.settings (launch.outcome scanner).stdout findings

def runScannersForLaunch (launch : Launch) : ScanRunResult :=
  if ¬ launch.settings.scannerEnabled then .empty
  else launch.applicable.foldl (runScanner python launch) .empty

/-! ## Blocked launches -/

def Reports (launch : Launch) (scanner : Scanner) (tool : Tool) : Prop :=
  ∃ stdout stderr returncode findings,
    launch.outcome scanner = .completed stdout stderr returncode ∧
      tool.parseOutput python stdout = .ok findings ∧
        ∃ finding ∈ findings, severityAtOrAbove finding.severity scanner.severityThreshold = true

def Unavailable (launch : Launch) (scanner : Scanner) (tool : Tool) : Prop :=
  ∀ stdout stderr returncode findings,
    launch.outcome scanner = .completed stdout stderr returncode →
      tool.parseOutput python stdout ≠ .ok findings

def FailsClosed (launch : Launch) : Prop :=
  failModeDecision true launch.settings.failMode = .deny

def Blocks (launch : Launch) (scanner : Scanner) : Prop :=
  ∃ tool, launch.runs scanner = some tool ∧
    (Unavailable python launch scanner tool ∧ FailsClosed launch ∨
      scanner.enforcement = .enforce ∧ Reports python launch scanner tool)

variable {python} {launch : Launch} {scanner : Scanner} {tool : Tool}

theorem effectiveEnforcement_eq_enforce_iff (enforcement : Enforcement) :
    effectiveEnforcement true enforcement = some .enforce ↔ enforcement = .enforce := by
  cases enforcement <;> decide

theorem aggregateStatus_filter {findings : List NormalizedFinding} {threshold : Severity}
    (hsome : findings.filter (fun finding => severityAtOrAbove finding.severity threshold) ≠ []) :
    aggregateStatus (findings.filter fun finding =>
      severityAtOrAbove finding.severity threshold) threshold = .blocked := by
  obtain ⟨finding, hfinding⟩ := List.exists_mem_of_ne_nil _ hsome
  rw [aggregateStatus, if_neg hsome, if_pos]
  exact List.any_eq_true.mpr ⟨finding, hfinding, (List.mem_filter.mp hfinding).2⟩

theorem allowed_unavailable (result : ScanRunResult) (stdout : String)
    (reason : Unavailability) :
    (result.unavailable scanner launch.settings stdout reason).allowed = true ↔
      result.allowed = true ∧ ¬ FailsClosed launch := by
  rw [ScanRunResult.unavailable, FailsClosed]
  split
  · next hdeny => simp [hdeny]
  · next hallow => simp [hallow]

theorem filter_ne_nil_iff {findings : List NormalizedFinding} {keep : NormalizedFinding → Bool} :
    findings.filter keep ≠ [] ↔ ∃ finding ∈ findings, keep finding = true := by
  rw [ne_eq, List.filter_eq_nil_iff]
  simp only [not_forall, not_not, exists_prop]

theorem scannedStatus_eq_blocked_iff (findings : List NormalizedFinding) :
    ScanRunResult.scannedStatus scanner (findings.filter fun finding =>
        severityAtOrAbove finding.severity scanner.severityThreshold) = .blocked ↔
      scanner.enforcement = .enforce ∧ ∃ finding ∈ findings,
        severityAtOrAbove finding.severity scanner.severityThreshold = true := by
  rw [ScanRunResult.scannedStatus, ← filter_ne_nil_iff]
  split
  · next hnone => simp [hnone]
  · next hsome =>
    simp only [aggregateStatus_filter hsome, effectiveEnforcement_eq_enforce_iff, true_and, ne_eq,
      hsome, not_false_eq_true, and_true]
    split
    · next henforce => exact iff_of_true rfl henforce
    · next hwarn => exact iff_of_false (by decide) hwarn

theorem allowed_scanned (result : ScanRunResult) (settings : ScanSettings) (stdout : String)
    (findings : List NormalizedFinding) :
    (result.scanned scanner settings stdout findings).allowed = true ↔
      result.allowed = true ∧ ¬ (scanner.enforcement = .enforce ∧ ∃ finding ∈ findings,
        severityAtOrAbove finding.severity scanner.severityThreshold = true) := by
  rw [← scannedStatus_eq_blocked_iff, ScanRunResult.scanned]
  split
  · next hblocked => simp [hblocked]
  · next hopen =>
    split <;> simp [hopen]

theorem unavailable_iff : Unavailable python launch scanner tool ↔
    ∃ reason, scan python launch.settings tool (launch.outcome scanner) = .error reason := by
  rw [Unavailable]
  cases launch.outcome scanner with
  | completed stdout stderr returncode =>
    rw [scan]
    cases hparse : tool.parseOutput python stdout with
    | error error =>
      refine iff_of_true (fun _ _ _ findings hcompleted hread => ?_) ⟨_, rfl⟩
      cases hcompleted
      rw [hparse] at hread
      cases hread
    | ok findings =>
      refine iff_of_false (fun hnever => ?_) fun hreason => ?_
      · exact hnever stdout stderr returncode findings rfl hparse
      · obtain ⟨reason, hreason⟩ := hreason
        cases hreason
  | timedOut message | failed message | raised message =>
    exact iff_of_true (fun _ _ _ _ hcompleted => Outcome.noConfusion hcompleted) ⟨_, rfl⟩

theorem reports_iff : Reports python launch scanner tool ↔
    ∃ findings, scan python launch.settings tool (launch.outcome scanner) = .ok findings ∧
      ∃ finding ∈ findings,
        severityAtOrAbove finding.severity scanner.severityThreshold = true := by
  rw [Reports]
  cases launch.outcome scanner with
  | completed stdout stderr returncode =>
    rw [scan]
    constructor
    · rintro ⟨_, _, _, findings, hcompleted, hparse, hreported⟩
      cases hcompleted
      rw [hparse]
      exact ⟨findings, rfl, hreported⟩
    · rintro ⟨findings, hscan, hreported⟩
      refine ⟨stdout, stderr, returncode, findings, rfl, ?_, hreported⟩
      cases hparse : tool.parseOutput python stdout with
      | error error => simp [hparse] at hscan
      | ok read => simpa [hparse] using hscan
  | timedOut message | failed message | raised message =>
    refine iff_of_false (fun hreports => ?_) fun hreports => ?_
    · obtain ⟨_, _, _, _, hcompleted, -⟩ := hreports
      cases hcompleted
    · obtain ⟨_, hscan, -⟩ := hreports
      cases hscan

theorem blocksBy_runScanner :
    BlocksBy (runScanner python launch) ScanRunResult.allowed (Blocks python launch) := by
  intro result scanner
  rw [runScanner, Blocks]
  cases hruns : launch.runs scanner with
  | none => simp
  | some tool =>
    simp only [Option.some.injEq, exists_eq_left', unavailable_iff, reports_iff]
    cases hscan : scan python launch.settings tool (launch.outcome scanner) with
    | error reason =>
      rw [allowed_unavailable]
      simp
    | ok findings =>
      rw [allowed_scanned]
      simp

theorem runScannersForLaunch_blocked_iff :
    (runScannersForLaunch python launch).allowed = false ↔
      launch.settings.scannerEnabled = true ∧
        ∃ scanner ∈ launch.applicable, Blocks python launch scanner := by
  rw [runScannersForLaunch]
  split
  · next hdisabled => exact iff_of_false (by decide) fun hboth => hdisabled hboth.1
  · next henabled =>
    rw [foldl_blocked_iff blocksBy_runScanner launch.applicable rfl, and_iff_right]
    exact not_not.mp henabled

end Forail.Scanning

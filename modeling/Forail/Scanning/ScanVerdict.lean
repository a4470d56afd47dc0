import Forail.Scanning.Runner

/-!
# The verdict of the scanner gate

A launch is meant to be blocked by an enforced scanner only: one that reports a finding
at its threshold, or that gives no report while the gate fails closed.  Two things
stand against it.  The gate does not look at the enforcement of a scanner that is
unavailable, and an adapter that is given no JSON report reads a clean one.
-/

namespace Forail.Scanning

open Forail.Json

variable {python : Python} {launch : Launch} {scanner : Scanner} {tool : Tool}

def GivesReport (python : Python) (launch : Launch) (scanner : Scanner) (tool : Tool) : Prop :=
  ∃ stdout stderr returncode, launch.outcome scanner = .completed stdout stderr returncode ∧
    tool.IsReport python stdout

def Enforced (launch : Launch) (scanner : Scanner) : Prop :=
  effectiveEnforcement launch.settings.scannerEnabled scanner.enforcement = some .enforce

def ShouldBlock (python : Python) (launch : Launch) (scanner : Scanner) : Prop :=
  Enforced launch scanner ∧ ∃ tool, launch.runs scanner = some tool ∧
    (Reports python launch scanner tool ∨
      ¬ GivesReport python launch scanner tool ∧ FailsClosed launch)

structure VerdictHolds (python : Python) (launch : Launch) : Prop where
  blocked_iff : (runScannersForLaunch python launch).allowed = false ↔
    ∃ scanner ∈ launch.applicable, ShouldBlock python launch scanner
  warn_only_allows : ∀ scanner ∈ launch.scanners, ¬ Enforced launch scanner →
    (runScannersForLaunch python { launch with scanners := [scanner] }).allowed = true

/-- The output of an enforced scanner is no report, and read as a clean one. -/
def LosesReport (python : Python) (launch : Launch) (scanner : Scanner) : Prop :=
  Enforced launch scanner ∧ ∃ tool, launch.runs scanner = some tool ∧
    ¬ Unavailable python launch scanner tool ∧ ¬ GivesReport python launch scanner tool

def StopsOrReports (python : Python) (launch : Launch) (scanner : Scanner) : Prop :=
  Enforced launch scanner ∧ ∃ tool, launch.runs scanner = some tool ∧
    (Unavailable python launch scanner tool ∨ Reports python launch scanner tool)

/-- No scanner that only warns is unavailable, and no enforced one loses its report,
unless another enforced one blocks the launch anyway. -/
structure ReportsKept (python : Python) (launch : Launch) : Prop where
  warnings : ∀ scanner ∈ launch.applicable, ∀ tool, launch.runs scanner = some tool →
    scanner.enforcement = .warn → ¬ Unavailable python launch scanner tool
  enforced : (∃ scanner ∈ launch.applicable, LosesReport python launch scanner) →
    ∃ scanner ∈ launch.applicable, StopsOrReports python launch scanner

theorem GivesReport.not_unavailable (hgives : GivesReport python launch scanner tool) :
    ¬ Unavailable python launch scanner tool := by
  obtain ⟨stdout, stderr, returncode, hcompleted, data, findings, hsome, hloads, -, hread⟩ := hgives
  refine fun hnever => hnever stdout stderr returncode findings hcompleted ?_
  rw [Tool.parseOutput, if_neg hsome]
  simp only [hloads, hread]

theorem enforced_iff (henabled : launch.settings.scannerEnabled = true) :
    Enforced launch scanner ↔ scanner.enforcement = .enforce := by
  rw [Enforced, henabled, effectiveEnforcement_eq_enforce_iff]

theorem Enforced.enabled (henforced : Enforced launch scanner) :
    launch.settings.scannerEnabled = true := by
  by_contra hdisabled
  rw [Enforced, effectiveEnforcement, if_pos hdisabled] at henforced
  cases henforced

theorem blocks_of_stopsOrReports (hclosed : FailsClosed launch)
    (hstops : StopsOrReports python launch scanner) : Blocks python launch scanner := by
  obtain ⟨henforced, tool, hruns, hstops⟩ := hstops
  refine ⟨tool, hruns, hstops.imp (fun hunavailable => ⟨hunavailable, hclosed⟩) fun hreports => ?_⟩
  exact ⟨(enforced_iff henforced.enabled).mp henforced, hreports⟩

theorem shouldBlock_of_stopsOrReports (hclosed : FailsClosed launch)
    (hstops : StopsOrReports python launch scanner) : ShouldBlock python launch scanner := by
  obtain ⟨henforced, tool, hruns, hstops⟩ := hstops
  refine ⟨henforced, tool, hruns, ?_⟩
  cases hstops with
  | inl hunavailable => exact .inr ⟨fun hgives => hgives.not_unavailable hunavailable, hclosed⟩
  | inr hreports => exact .inl hreports

theorem stops_or_loses (hshould : ShouldBlock python launch scanner) :
    StopsOrReports python launch scanner ∨ LosesReport python launch scanner := by
  obtain ⟨henforced, tool, hruns, hshould⟩ := hshould
  cases hshould with
  | inl hreports => exact .inl ⟨henforced, tool, hruns, .inr hreports⟩
  | inr hnone =>
    by_cases hunavailable : Unavailable python launch scanner tool
    · exact .inl ⟨henforced, tool, hruns, .inl hunavailable⟩
    · exact .inr ⟨henforced, tool, hruns, hunavailable, hnone.1⟩

theorem mem_applicable_iff {scanners : List Scanner} :
    scanner ∈ ({ launch with scanners := scanners } : Launch).applicable ↔
      scanner ∈ scanners ∧ scanner ∈ ({ launch with scanners := [scanner] } : Launch).applicable := by
  simp only [Launch.applicable, List.mem_filter, List.mem_singleton, true_and]

theorem eq_warn_of_not_enforce {enforcement : Enforcement} (hother : enforcement ≠ .enforce) :
    enforcement = .warn := by
  cases enforcement with
  | warn => rfl
  | enforce => exact absurd rfl hother

theorem verdictHolds_of_open (hopen : ¬ FailsClosed launch) : VerdictHolds python launch := by
  have hblocks : ∀ scanner, Blocks python launch scanner ↔
      scanner.enforcement = .enforce ∧ ∃ tool, launch.runs scanner = some tool ∧
        Reports python launch scanner tool := by
    intro scanner
    simp only [Blocks, hopen, and_false, false_or]
    constructor
    · rintro ⟨tool, hruns, henforce, hreports⟩
      exact ⟨henforce, tool, hruns, hreports⟩
    · rintro ⟨henforce, tool, hruns, hreports⟩
      exact ⟨tool, hruns, henforce, hreports⟩
  constructor
  · rw [runScannersForLaunch_blocked_iff]
    constructor
    · rintro ⟨henabled, scanner, hscanner, hblock⟩
      obtain ⟨henforce, tool, hruns, hreports⟩ := (hblocks scanner).mp hblock
      exact ⟨scanner, hscanner, (enforced_iff henabled).mpr henforce, tool, hruns, .inl hreports⟩
    · rintro ⟨scanner, hscanner, henforced, tool, hruns, hreports | hnone⟩
      · exact ⟨henforced.enabled, scanner, hscanner, (hblocks scanner).mpr
          ⟨(enforced_iff henforced.enabled).mp henforced, tool, hruns, hreports⟩⟩
      · exact absurd hnone.2 hopen
  · intro scanner _ hwarn
    apply eq_true_of_ne_false
    intro hblocked
    obtain ⟨henabled, found, hfound, hblock⟩ := runScannersForLaunch_blocked_iff.mp hblocked
    obtain rfl := List.mem_singleton.mp (mem_applicable_iff.mp hfound).1
    exact hwarn ((enforced_iff henabled).mpr ((hblocks found).mp hblock).1)

theorem stopsOrReports_of_blocks (henabled : launch.settings.scannerEnabled = true)
    (hwarnings : ∀ tool, launch.runs scanner = some tool → scanner.enforcement = .warn →
      ¬ Unavailable python launch scanner tool)
    (hblocks : Blocks python launch scanner) : StopsOrReports python launch scanner := by
  obtain ⟨tool, hruns, hblock⟩ := hblocks
  by_cases henforce : scanner.enforcement = .enforce
  · exact ⟨(enforced_iff henabled).mpr henforce, tool, hruns, hblock.imp And.left And.right⟩
  · cases hblock with
    | inl hunavailable =>
      exact absurd hunavailable.1 (hwarnings tool hruns (eq_warn_of_not_enforce henforce))
    | inr hreports => exact absurd hreports.1 henforce

theorem verdictHolds_of_kept (henabled : launch.settings.scannerEnabled = true)
    (hclosed : FailsClosed launch) (hkept : ReportsKept python launch) :
    VerdictHolds python launch := by
  constructor
  · rw [runScannersForLaunch_blocked_iff, and_iff_right henabled]
    constructor
    · rintro ⟨scanner, hscanner, hblocks⟩
      exact ⟨scanner, hscanner, shouldBlock_of_stopsOrReports hclosed
        (stopsOrReports_of_blocks henabled (hkept.warnings scanner hscanner) hblocks)⟩
    · rintro ⟨scanner, hscanner, hshould⟩
      have hsome : ∃ scanner ∈ launch.applicable, StopsOrReports python launch scanner := by
        cases stops_or_loses hshould with
        | inl hstops => exact ⟨scanner, hscanner, hstops⟩
        | inr hloses => exact hkept.enforced ⟨scanner, hscanner, hloses⟩
      obtain ⟨blocking, hblocking, hstops⟩ := hsome
      exact ⟨blocking, hblocking, blocks_of_stopsOrReports hclosed hstops⟩
  · intro scanner hmem hwarn
    apply eq_true_of_ne_false
    intro hblocked
    obtain ⟨-, found, hfound, hblocks⟩ := runScannersForLaunch_blocked_iff.mp hblocked
    obtain ⟨hfound, halone⟩ := mem_applicable_iff.mp hfound
    obtain rfl := List.mem_singleton.mp hfound
    have hwarnings := hkept.warnings found (mem_applicable_iff.mpr ⟨hmem, halone⟩)
    exact hwarn (stopsOrReports_of_blocks henabled hwarnings hblocks).1

theorem kept_of_verdictHolds (henabled : launch.settings.scannerEnabled = true)
    (hclosed : FailsClosed launch) (hholds : VerdictHolds python launch) :
    ReportsKept python launch := by
  have hwarnings : ∀ scanner ∈ launch.applicable, ∀ tool, launch.runs scanner = some tool →
      scanner.enforcement = .warn → ¬ Unavailable python launch scanner tool := by
    intro scanner hscanner tool hruns hwarn hunavailable
    obtain ⟨hmem, halone⟩ := mem_applicable_iff.mp hscanner
    have hallowed := hholds.warn_only_allows scanner hmem fun henforced => by
      rw [enforced_iff henabled, hwarn] at henforced
      cases henforced
    have hblocked : (runScannersForLaunch python
        { launch with scanners := [scanner] }).allowed = false :=
      runScannersForLaunch_blocked_iff.mpr
        ⟨henabled, scanner, halone, tool, hruns, .inl ⟨hunavailable, hclosed⟩⟩
    rw [hblocked] at hallowed
    cases hallowed
  refine ⟨hwarnings, ?_⟩
  rintro ⟨losing, hlosing, henforced, tool, hruns, -, hnone⟩
  have hblocked := hholds.blocked_iff.mpr
    ⟨losing, hlosing, henforced, tool, hruns, .inr ⟨hnone, hclosed⟩⟩
  obtain ⟨-, scanner, hscanner, hblocks⟩ := runScannersForLaunch_blocked_iff.mp hblocked
  exact ⟨scanner, hscanner,
    stopsOrReports_of_blocks henabled (hwarnings scanner hscanner) hblocks⟩

theorem verdictHolds_of_disabled (hdisabled : launch.settings.scannerEnabled ≠ true) :
    VerdictHolds python launch := by
  constructor
  · rw [runScannersForLaunch_blocked_iff]
    refine iff_of_false (fun hboth => hdisabled hboth.1) ?_
    rintro ⟨scanner, -, hshould⟩
    exact hdisabled hshould.1.enabled
  · intro scanner _ _
    apply eq_true_of_ne_false
    intro hblocked
    exact hdisabled (runScannersForLaunch_blocked_iff.mp hblocked).1

def lintScanner : Scanner where
  name := "lint"
  organization := none
  tool := "ansible-lint"
  severityThreshold := .high
  enforcement := .enforce
  enabled := true
  appliesTo := []

def crashedLaunch : Launch where
  settings := ⟨true, 120, "deny", 8192⟩
  job := ⟨"job_template", some 1, some "/projects/web", "site.yml"⟩
  scanners := [lintScanner]
  realpath := id
  outcome := fun _ => .completed "" "Traceback (most recent call last):" 1

end Forail.Scanning

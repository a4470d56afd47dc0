import Forail.Core.Texts
import Mathlib.Algebra.BigOperators.Group.List.Basic
import Mathlib.Algebra.Order.BigOperators.Group.List
import Mathlib.Algebra.Order.Group.Int
import Mathlib.Algebra.Ring.Int.Defs
import Mathlib.Data.List.Nodup

/-!
# The output of a job

The output of the events of a job is copied out of the database, which escapes some
characters, and escaped line ends are replaced in memory or by `sed`.
-/

namespace Forail.JobOutput

open Forail.Texts

structure Event where
  startLine : ℕ
  stdout : Text

structure Job where
  resultStdoutText : Text
  events : List Event

structure StdoutMaxBytesExceeded where
  total : ℕ
  supported : ℕ

/-- How the database orders rows by their start line. -/
structure Ordering where
  order : List Event → List Event
  perm : ∀ events, (order events).Perm events
  sorted : ∀ events, (order events).Pairwise fun event later => event.startLine ≤ later.startLine

/-! ## Copying -/

def copyEscapes : List (Char × Char) :=
  [('\\', '\\'), ('\x08', 'b'), ('\x0c', 'f'), ('\n', 'n'), ('\r', 'r'), ('\t', 't'),
    ('\x0b', 'v')]

def escape (char : Char) : Text :=
  match copyEscapes.lookup char with
  | some letter => ['\\', letter]
  | none => [char]

def copyRows (events : List Event) : Text :=
  events.flatMap fun event => event.stdout.flatMap escape ++ ['\n']

def escapedCrLf : Text := ['\\', 'r', '\\', 'n']

def unescapeInMemory (copied : Text) : Text := replace escapedCrLf ['\n'] copied

def sed (copied : Text) : Text :=
  ['\n'].intercalate ((split ['\n'] copied).map (replace escapedCrLf ['\n']))

def Job.total (job : Job) : ℕ :=
  job.events.foldl (fun total event => total + event.stdout.length) 0

def resultStdoutRawHandle (database : Ordering) (maxSupported : ℕ) (job : Job)
    (enforceMaxBytes : Bool) : Except StdoutMaxBytesExceeded Text :=
  if job.resultStdoutText ≠ [] then
    if enforceMaxBytes ∧ maxSupported < job.resultStdoutText.length then
      .error ⟨job.resultStdoutText.length, maxSupported⟩
    else .ok job.resultStdoutText
  else if enforceMaxBytes ∧ maxSupported < job.total then .error ⟨job.total, maxSupported⟩
  else
    let copied := copyRows (database.order (job.events.filter fun event => event.stdout ≠ []))
    .ok (if enforceMaxBytes then unescapeInMemory copied else sed copied)

/-- The output of events in their order, each with a line feed behind it, where a line feed
takes the place of a carriage return and a line feed. -/
def plainOutput (events : List Event) : Text :=
  replace ['\r', '\n'] ['\n'] (events.flatMap fun event => event.stdout ++ ['\n'])

/-- The output of the job can be downloaded as it is, and read in memory unless it is too
long. -/
def Faithful (database : Ordering) (maxSupported : ℕ) (job : Job) : Prop :=
  ∃ listed : List Event, listed.Perm job.events ∧
    (listed.Pairwise fun event later => event.startLine ≤ later.startLine) ∧
    resultStdoutRawHandle database maxSupported job false = .ok (plainOutput listed) ∧
    resultStdoutRawHandle database maxSupported job true =
      if maxSupported < job.total then .error ⟨job.total, maxSupported⟩
      else .ok (plainOutput listed)

/-- A text in which all escaped characters are those of line ends, a carriage return with a
line feed. -/
def Plain : Text → Prop
  | [] => True
  | '\r' :: '\n' :: text => Plain text
  | char :: text => copyEscapes.lookup char = none ∧ Plain text

/-! ## What is shown -/

def shown : Text → Text
  | [] => []
  | '\r' :: '\n' :: text => '\n' :: shown text
  | '\\' :: 'r' :: '\n' :: text => '\\' :: '\n' :: shown text
  | char :: text => escape char ++ shown text

theorem shown_cons {char : Char} {text : Text}
    (hlineEnd : ∀ rest, char = '\r' → text = '\n' :: rest → False)
    (hletter : ∀ rest, char = '\\' → text = 'r' :: '\n' :: rest → False) :
    shown (char :: text) = escape char ++ shown text := by
  rw [shown]
  · exact hlineEnd
  · exact hletter

theorem letter_injective {char other letter : Char} (hchar : (char, letter) ∈ copyEscapes)
    (hother : (other, letter) ∈ copyEscapes) : char = other := by
  have hletters : (copyEscapes.map Prod.snd).Nodup := by decide
  exact congrArg Prod.fst (List.inj_on_of_nodup_map hletters hchar hother rfl)

theorem escape_cases (char : Char) :
    (copyEscapes.lookup char = none ∧ escape char = [char]) ∨
      ∃ letter, (char, letter) ∈ copyEscapes ∧ copyEscapes.lookup char = some letter ∧
        escape char = ['\\', letter] := by
  rw [escape]
  cases hlookup : copyEscapes.lookup char with
  | none => exact .inl ⟨rfl, rfl⟩
  | some letter =>
    obtain ⟨before, after, hentries, -⟩ := List.lookup_eq_some_iff.mp hlookup
    exact .inr ⟨letter, hentries ▸ by simp, rfl, rfl⟩

theorem escapedLineFeed {text : Text} (hfound : ['\\', 'n'] <+: text.flatMap escape) :
    ∃ rest, text = '\n' :: rest := by
  cases text with
  | nil => exact absurd hfound (by simp)
  | cons char rest =>
    rw [List.flatMap_cons] at hfound
    obtain ⟨hlookup, hescape⟩ | ⟨letter, hentry, -, hescape⟩ := escape_cases char
    · rw [hescape] at hfound
      have hchar : '\\' = char := (List.cons_prefix_cons.mp hfound).1
      rw [← hchar] at hlookup
      exact absurd hlookup (by decide)
    · rw [hescape] at hfound
      have hletter : 'n' = letter :=
        (List.cons_prefix_cons.mp (List.cons_prefix_cons.mp hfound).2).1
      rw [← hletter] at hentry
      exact ⟨rest, congrArg (· :: rest) (letter_injective hentry (by decide))⟩

theorem letterBeforeLineFeed {text : Text}
    (hfound : ['r', '\\', 'n'] <+: text.flatMap escape) :
    ∃ rest, text = 'r' :: '\n' :: rest := by
  cases text with
  | nil => exact absurd hfound (by simp)
  | cons char rest =>
    rw [List.flatMap_cons] at hfound
    obtain ⟨-, hescape⟩ | ⟨letter, -, -, hescape⟩ := escape_cases char
    · rw [hescape] at hfound
      have hparts := List.cons_prefix_cons.mp hfound
      obtain ⟨after, rfl⟩ := escapedLineFeed hparts.2
      exact ⟨after, by rw [← hparts.1]⟩
    · rw [hescape] at hfound
      exact absurd (List.cons_prefix_cons.mp hfound).1 (by decide)

theorem escapedCrLf_ne : escapedCrLf ≠ [] := List.cons_ne_nil _ _

theorem replace_escaped (stdout : Text) :
    replace escapedCrLf ['\n'] (stdout.flatMap escape) = shown stdout := by
  induction stdout using shown.induct with
  | case1 => rfl
  | case2 text ih =>
    have hcopied : ('\r' :: '\n' :: text).flatMap escape = escapedCrLf ++ text.flatMap escape := rfl
    rw [hcopied, replace_append escapedCrLf_ne, ih]
    rfl
  | case3 text ih =>
    have hcopied : ('\\' :: 'r' :: '\n' :: text).flatMap escape =
        '\\' :: (escapedCrLf ++ text.flatMap escape) := rfl
    have hfirst : ¬ escapedCrLf <+: '\\' :: (escapedCrLf ++ text.flatMap escape) := fun hfound =>
      absurd (List.cons_prefix_cons.mp (List.cons_prefix_cons.mp hfound).2).1 (by decide)
    rw [hcopied, replace_cons hfirst, replace_append escapedCrLf_ne, ih]
    rfl
  | case4 char text hlineEnd hletter ih =>
    rw [List.flatMap_cons, shown_cons hlineEnd hletter]
    obtain ⟨hlookup, hescape⟩ | ⟨letter, hentry, -, hescape⟩ := escape_cases char
    · have hfirst : ¬ escapedCrLf <+: char :: text.flatMap escape := by
        intro hfound
        have hchar : '\\' = char := (List.cons_prefix_cons.mp hfound).1
        rw [← hchar] at hlookup
        exact absurd hlookup (by decide)
      rw [hescape, List.singleton_append, replace_cons hfirst, ih, List.singleton_append]
    · have hfirst : ¬ escapedCrLf <+: '\\' :: letter :: text.flatMap escape := by
        intro hfound
        have hrest := List.cons_prefix_cons.mp (List.cons_prefix_cons.mp hfound).2
        obtain ⟨after, rfl⟩ := escapedLineFeed hrest.2
        rw [← hrest.1] at hentry
        exact hlineEnd after (letter_injective hentry (by decide)) rfl
      have hsecond : ¬ escapedCrLf <+: letter :: text.flatMap escape := by
        intro hfound
        have hrest := List.cons_prefix_cons.mp hfound
        obtain ⟨after, rfl⟩ := letterBeforeLineFeed hrest.2
        rw [← hrest.1] at hentry
        exact hletter after (letter_injective hentry (by decide)) rfl
      rw [hescape, List.cons_append, List.cons_append, List.nil_append, replace_cons hfirst,
        replace_cons hsecond, ih]
      rfl

/-! ## The text that is read -/

theorem lineFeed_not_mem : '\n' ∉ escapedCrLf := by decide

theorem sed_eq (copied : Text) : sed copied = unescapeInMemory copied := by
  rw [sed, ← replace_lines escapedCrLf_ne lineFeed_not_mem, intercalate_split, unescapeInMemory]

theorem unescape_copyRows (events : List Event) :
    unescapeInMemory (copyRows events) =
      events.flatMap fun event => shown event.stdout ++ ['\n'] := by
  rw [unescapeInMemory, copyRows]
  induction events with
  | nil => rfl
  | cons event events ih =>
    rw [List.flatMap_cons, List.flatMap_cons, List.append_assoc, List.singleton_append,
      replace_separated escapedCrLf_ne lineFeed_not_mem, replace_escaped, ih, List.append_assoc,
      List.singleton_append]

def plainRow : Text → Text
  | [] => ['\n']
  | '\r' :: '\n' :: text => '\n' :: plainRow text
  | ['\r'] => ['\n']
  | char :: text => char :: plainRow text

theorem plainRow_cons {char : Char} {text : Text}
    (hlineEnd : ∀ rest, char = '\r' → text = '\n' :: rest → False)
    (hlast : char = '\r' → text = [] → False) :
    plainRow (char :: text) = char :: plainRow text := by
  rw [plainRow]
  · exact hlineEnd
  · exact hlast

theorem replace_row (stdout text : Text) :
    replace ['\r', '\n'] ['\n'] (stdout ++ '\n' :: text) =
      plainRow stdout ++ replace ['\r', '\n'] ['\n'] text := by
  induction stdout using plainRow.induct with
  | case1 =>
    have hfirst : ¬ ['\r', '\n'] <+: '\n' :: text := fun hfound =>
      absurd (List.cons_prefix_cons.mp hfound).1 (by decide)
    exact replace_cons hfirst
  | case2 rest ih =>
    have hrow : '\r' :: '\n' :: rest ++ '\n' :: text = ['\r', '\n'] ++ (rest ++ '\n' :: text) := rfl
    rw [hrow, replace_append (List.cons_ne_nil _ _), ih]
    rfl
  | case3 =>
    have hrow : ['\r'] ++ '\n' :: text = ['\r', '\n'] ++ text := rfl
    rw [hrow, replace_append (List.cons_ne_nil _ _)]
    rfl
  | case4 char rest hlineEnd hlast ih =>
    have hfirst : ¬ ['\r', '\n'] <+: char :: (rest ++ '\n' :: text) := by
      intro hfound
      have hparts := List.cons_prefix_cons.mp hfound
      cases rest with
      | nil => exact hlast hparts.1.symm rfl
      | cons next rest =>
        have hnext := (List.cons_prefix_cons.mp hparts.2).1
        exact hlineEnd rest hparts.1.symm (by rw [← hnext])
    rw [List.cons_append, replace_cons hfirst, ih, plainRow_cons hlineEnd hlast, List.cons_append]

theorem plainOutput_eq (events : List Event) :
    plainOutput events = events.flatMap fun event => plainRow event.stdout := by
  rw [plainOutput]
  induction events with
  | nil => rfl
  | cons event events ih =>
    rw [List.flatMap_cons, List.append_assoc, List.singleton_append, replace_row, ih,
      List.flatMap_cons]

/-! ## Weights -/

def weight (char : Char) : ℤ :=
  if char = '\\' then 2 else if char = 'r' ∨ (copyEscapes.lookup char).isSome then -1 else 0

def textWeight (text : Text) : ℤ := (text.map weight).sum

@[simp] theorem textWeight_nil : textWeight [] = 0 := rfl

@[simp] theorem textWeight_cons (char : Char) (text : Text) :
    textWeight (char :: text) = weight char + textWeight text := List.sum_cons

@[simp] theorem textWeight_append (text rest : Text) :
    textWeight (text ++ rest) = textWeight text + textWeight rest := by
  rw [textWeight, List.map_append, List.sum_append, textWeight, textWeight]

theorem textWeight_flatMap (write : Event → Text) (events : List Event) :
    textWeight (events.flatMap write) = (events.map fun event => textWeight (write event)).sum := by
  induction events with
  | nil => rfl
  | cons event events ih =>
    rw [List.flatMap_cons, textWeight_append, ih, List.map_cons, List.sum_cons]

@[simp] theorem weight_backslash : weight '\\' = 2 := by decide

@[simp] theorem weight_lineFeed : weight '\n' = -1 := by decide

@[simp] theorem weight_r : weight 'r' = -1 := by decide

@[simp] theorem weight_carriageReturn : weight '\r' = -1 := by decide

theorem escape_heavier {char letter : Char} (hentry : (char, letter) ∈ copyEscapes) :
    weight char < textWeight ['\\', letter] := by
  have hall : copyEscapes.all fun entry =>
      decide (weight entry.1 < textWeight ['\\', entry.2]) := by decide
  have hheavier := List.all_eq_true.mp hall (char, letter) hentry
  rwa [decide_eq_true_eq] at hheavier

def gap (stdout : Text) : ℤ := textWeight (shown stdout) - 1 - textWeight (plainRow stdout)

theorem gap_spec (stdout : Text) : 0 ≤ gap stdout ∧ (gap stdout = 0 ↔ Plain stdout) := by
  induction stdout using shown.induct with
  | case1 => exact ⟨le_of_eq (by decide), by simp [gap, shown, plainRow, Plain]⟩
  | case2 text ih =>
    have hgap : gap ('\r' :: '\n' :: text) = gap text := by
      simp only [gap, shown, plainRow, textWeight_cons]
      omega
    rw [hgap]
    exact ih
  | case3 text ih =>
    have hgap : gap ('\\' :: 'r' :: '\n' :: text) = gap text + 1 := by
      have hrow : plainRow ('\\' :: 'r' :: '\n' :: text) =
          '\\' :: 'r' :: '\n' :: plainRow text := rfl
      rw [gap, hrow, shown, gap]
      simp only [textWeight_cons, weight_backslash, weight_r]
      omega
    have hplain : ¬ Plain ('\\' :: 'r' :: '\n' :: text) := fun hplain =>
      absurd hplain.1 (by decide)
    exact ⟨by omega, fun hzero => by omega, fun h => absurd h hplain⟩
  | case4 char text hlineEnd hletter ih =>
    have hshown := shown_cons hlineEnd hletter
    have hplain : Plain (char :: text) ↔ copyEscapes.lookup char = none ∧ Plain text := by
      rw [Plain]
      exact hlineEnd
    by_cases hlast : char = '\r' ∧ text = []
    · obtain ⟨rfl, rfl⟩ := hlast
      have hlookup : copyEscapes.lookup '\r' ≠ none := by decide
      exact ⟨by decide, fun hzero => absurd hzero (by decide),
        fun h => absurd (hplain.mp h).1 hlookup⟩
    · have hrow := plainRow_cons hlineEnd fun hcr hnil => hlast ⟨hcr, hnil⟩
      have hgap : gap (char :: text) = gap text + (textWeight (escape char) - weight char) := by
        rw [gap, hshown, hrow, textWeight_append, textWeight_cons, gap]
        omega
      obtain ⟨hlookup, hescape⟩ | ⟨letter, hentry, hlookup, hescape⟩ := escape_cases char
      · have hsame : gap (char :: text) = gap text := by
          rw [hgap, hescape, textWeight_cons, textWeight_nil]
          omega
        rw [hsame, hplain]
        exact ⟨ih.1, ih.2.trans ⟨fun h => ⟨hlookup, h⟩, And.right⟩⟩
      · have hheavier := escape_heavier hentry
        rw [← hescape] at hheavier
        have hnot : ¬ Plain (char :: text) := fun h => by
          rw [(hplain.mp h).1] at hlookup
          contradiction
        exact ⟨by omega, fun hzero => by omega, fun h => absurd h hnot⟩

/-- What an event adds: one without output is left out with its line feed. -/
def excess (event : Event) : ℤ := if event.stdout = [] then 1 else gap event.stdout

theorem excess_nonneg (event : Event) : 0 ≤ excess event := by
  rw [excess]
  split
  · exact zero_le_one
  · exact (gap_spec event.stdout).1

theorem excess_eq_zero_iff (event : Event) :
    excess event = 0 ↔ event.stdout ≠ [] ∧ Plain event.stdout := by
  rw [excess]
  split
  · next hnone => exact ⟨fun hone => absurd hone one_ne_zero, fun h => absurd hnone h.1⟩
  · next hsome => rw [(gap_spec event.stdout).2, and_iff_right hsome]

def selected (events : List Event) : List Event := events.filter fun event => event.stdout ≠ []

theorem textWeight_unescaped (events : List Event) :
    textWeight (unescapeInMemory (copyRows events)) =
      (events.map fun event => textWeight (shown event.stdout) - 1).sum := by
  rw [unescape_copyRows, textWeight_flatMap]
  congr 2
  funext event
  rw [textWeight_append, textWeight_cons, weight_lineFeed, textWeight_nil]
  rfl

theorem sum_selected (events : List Event) :
    ((selected events).map fun event => textWeight (shown event.stdout) - 1).sum =
      textWeight (plainOutput events) + (events.map excess).sum := by
  rw [plainOutput_eq, textWeight_flatMap]
  induction events with
  | nil => rfl
  | cons event events ih =>
    rw [List.map_cons, List.sum_cons, List.map_cons, List.sum_cons]
    by_cases hnone : event.stdout = []
    · have hdropped : selected (event :: events) = selected events := by
        simp [selected, hnone]
      have hrow : textWeight (plainRow event.stdout) = -1 := by rw [hnone]; decide
      rw [hdropped, ih, hrow, excess, if_pos hnone]
      omega
    · have hkept : selected (event :: events) = event :: selected events := by
        simp [selected, hnone]
      rw [hkept, List.map_cons, List.sum_cons, ih, excess, if_neg hnone, gap]
      omega

theorem excess_eq_zero {rows listed events : List Event} (hrows : rows.Perm (selected events))
    (hlisted : listed.Perm events)
    (hsame : unescapeInMemory (copyRows rows) = plainOutput listed) :
    ∀ event ∈ events, excess event = 0 := by
  have hplain : textWeight (plainOutput listed) = textWeight (plainOutput events) := by
    rw [plainOutput_eq, plainOutput_eq, textWeight_flatMap, textWeight_flatMap]
    exact (hlisted.map _).sum_eq
  have hsum : (events.map excess).sum = 0 := by
    have hweights := congrArg textWeight hsame
    rw [textWeight_unescaped, (hrows.map _).sum_eq, sum_selected, hplain] at hweights
    omega
  intro event hevent
  have hnonneg : ∀ added ∈ events.map excess, 0 ≤ added := by
    intro added hadded
    obtain ⟨other, -, rfl⟩ := List.mem_map.mp hadded
    exact excess_nonneg other
  exact List.all_zero_of_le_zero_le_of_sum_eq_zero hnonneg hsum (List.mem_map_of_mem hevent)

theorem shown_of_plain {stdout : Text} (hplain : Plain stdout) :
    shown stdout ++ ['\n'] = plainRow stdout := by
  induction stdout using Plain.induct with
  | case1 => rfl
  | case2 text ih => exact congrArg ('\n' :: ·) (ih hplain)
  | case3 char text hlineEnd ih =>
    rw [Plain] at hplain
    · have hkept : escape char = [char] := by rw [escape, hplain.1]
      have hfirst : ∀ {other : Char}, (copyEscapes.lookup other).isSome → char ≠ other := by
        intro other hother heq
        rw [← heq, hplain.1] at hother
        contradiction
      have hshown : shown (char :: text) = escape char ++ shown text :=
        shown_cons hlineEnd fun _ hchar => absurd hchar (hfirst (by decide))
      have hrow : plainRow (char :: text) = char :: plainRow text :=
        plainRow_cons hlineEnd fun hchar => absurd hchar (hfirst (by decide))
      rw [hshown, hkept, List.append_assoc, ih hplain.2, hrow, List.singleton_append]
    · exact hlineEnd

theorem unescape_of_plain {events : List Event} (hplain : ∀ event ∈ events, Plain event.stdout) :
    unescapeInMemory (copyRows events) = plainOutput events := by
  rw [unescape_copyRows, plainOutput_eq]
  exact List.flatMap_congr fun event hevent => shown_of_plain (hplain event hevent)

variable {database : Ordering} {maxSupported : ℕ} {job : Job}

theorem handle_unlimited (hevents : job.resultStdoutText = []) :
    resultStdoutRawHandle database maxSupported job false =
      .ok (unescapeInMemory (copyRows (database.order (selected job.events)))) := by
  simp [resultStdoutRawHandle, hevents, sed_eq, selected]

theorem handle_limited (hevents : job.resultStdoutText = []) :
    resultStdoutRawHandle database maxSupported job true =
      if maxSupported < job.total then .error ⟨job.total, maxSupported⟩
      else .ok (unescapeInMemory (copyRows (database.order (selected job.events)))) := by
  simp [resultStdoutRawHandle, hevents, selected]

/-- The output of a job without a stored text is faithful exactly when each event has output
in which only line ends are escaped. -/
theorem faithful_iff_plain (database : Ordering) (maxSupported : ℕ) (job : Job)
    (hevents : job.resultStdoutText = []) :
    Faithful database maxSupported job ↔
      ∀ event ∈ job.events, event.stdout ≠ [] ∧ Plain event.stdout := by
  constructor
  · rintro ⟨listed, hlisted, -, hsame, -⟩ event hevent
    rw [handle_unlimited hevents] at hsame
    rw [← excess_eq_zero_iff]
    exact excess_eq_zero (database.perm _) hlisted (Except.ok.inj hsame) event hevent
  · intro hplain
    have hall : selected job.events = job.events := by
      apply List.filter_eq_self.mpr
      intro event hevent
      exact decide_eq_true (hplain event hevent).1
    have hperm := database.perm job.events
    have hcopied : unescapeInMemory (copyRows (database.order (selected job.events))) =
        plainOutput (database.order job.events) := by
      rw [hall]
      exact unescape_of_plain fun event hevent => (hplain event (hperm.subset hevent)).2
    have hlimited := @handle_limited database maxSupported job hevents
    rw [hcopied] at hlimited
    exact ⟨database.order job.events, hperm, database.sorted job.events,
      (handle_unlimited hevents).trans (congrArg Except.ok hcopied), hlimited⟩

def startsBefore (event later : Event) : Bool := event.startLine ≤ later.startLine

theorem pairwise_startsBefore (events : List Event) :
    (events.mergeSort startsBefore).Pairwise fun event later =>
      event.startLine ≤ later.startLine := by
  have hsorted : (events.mergeSort startsBefore).Pairwise fun event later =>
      startsBefore event later := by
    apply List.pairwise_mergeSort
    · intro event next later hnext hlater
      exact decide_eq_true (Nat.le_trans (of_decide_eq_true hnext) (of_decide_eq_true hlater))
    · intro event later
      exact (Bool.or_eq_true _ _).mpr ((Nat.le_total _ _).imp decide_eq_true decide_eq_true)
  exact hsorted.imp of_decide_eq_true

def byStartLine : Ordering where
  order := fun events => events.mergeSort startsBefore
  perm := fun events => List.mergeSort_perm events startsBefore
  sorted := pairwise_startsBefore

def jobOf (stdout : String) : Job := ⟨[], [⟨0, stdout.toList⟩]⟩

theorem playOutput_faithful : Faithful byStartLine 1048576 (jobOf "PLAY [all]\r\nok: [web]") := by
  apply (faithful_iff_plain byStartLine 1048576 (jobOf "PLAY [all]\r\nok: [web]") rfl).mpr
  intro event hevent
  rw [List.mem_singleton.mp hevent]
  exact ⟨by decide, (gap_spec _).2.mp (by decide)⟩

theorem windowsPath_not_faithful : ¬ Faithful byStartLine 1048576 (jobOf "C:\\temp") := by
  rintro ⟨listed, hlisted, -, hsame, -⟩
  rw [handle_unlimited rfl] at hsame
  have hzero := excess_eq_zero (byStartLine.perm _) hlisted (Except.ok.inj hsame) _
    List.mem_cons_self
  exact absurd hzero (by decide)

end Forail.JobOutput

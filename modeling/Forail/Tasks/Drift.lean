import Forail.Core.FallibleLoops
import Forail.Core.JsonText
import Mathlib.Data.List.Dedup
import Mathlib.Data.List.Sort
import Mathlib.Data.String.Basic

/-!
# Drift of host facts

Two snapshots of the facts of a host are compared key by key.  A report that is complete names
every key that was added, removed or changed.  The code reads absent keys as null, compares
values as Python does, and cuts long values down to texts that it cannot read back.
-/

namespace Forail.FactDrift

open Forail.Json Forail.Texts Forail.FallibleLoops

abbrev Facts := List (String × Value)

def CATEGORY_MAP : List (String × String × String) := [
  ("ansible_pkg_mgr", "packages", "medium"),
  ("ansible_packages", "packages", "medium"),
  ("ansible_apparmor", "kernel", "medium"),
  ("ansible_selinux", "kernel", "high"),
  ("ansible_services", "services", "medium"),
  ("ansible_service_mgr", "services", "low"),
  ("ansible_user_dir", "users_groups", "high"),
  ("ansible_user_id", "users_groups", "high"),
  ("ansible_user_uid", "users_groups", "high"),
  ("ansible_user_gid", "users_groups", "high"),
  ("ansible_user_gecos", "users_groups", "medium"),
  ("ansible_user_shell", "users_groups", "high"),
  ("ansible_all_ipv4_addresses", "network", "high"),
  ("ansible_all_ipv6_addresses", "network", "high"),
  ("ansible_default_ipv4", "network", "high"),
  ("ansible_default_ipv6", "network", "medium"),
  ("ansible_interfaces", "network", "medium"),
  ("ansible_dns", "network", "medium"),
  ("ansible_domain", "network", "medium"),
  ("ansible_fqdn", "network", "medium"),
  ("ansible_hostname", "network", "low"),
  ("ansible_mounts", "mounts", "medium"),
  ("ansible_devices", "mounts", "low"),
  ("ansible_kernel", "kernel", "critical"),
  ("ansible_kernel_version", "kernel", "critical"),
  ("ansible_cmdline", "kernel", "high"),
  ("ansible_sysctl", "kernel", "high"),
  ("ansible_architecture", "kernel", "low"),
  ("ansible_bios_date", "other", "low"),
  ("ansible_bios_version", "other", "low"),
  ("ansible_date_time", "other", "low"),
  ("ansible_distribution", "other", "low"),
  ("ansible_distribution_version", "other", "medium"),
  ("ansible_os_family", "other", "low"),
  ("ansible_product_name", "other", "low"),
  ("ansible_python", "other", "low"),
  ("ansible_processor", "other", "low"),
  ("ansible_memtotal_mb", "other", "low"),
  ("ansible_swaptotal_mb", "other", "low"),
  ("ansible_uptime_seconds", "other", "low")]

/-- The words that other keys are classified by, in the order they are looked for. -/
def CATEGORY_WORDS : List (List String × String × String) := [
  (["package", "pip", "gem"], "packages", "medium"),
  (["service", "systemd"], "services", "medium"),
  (["user", "group", "passwd"], "users_groups", "high"),
  (["ip", "network", "port", "tcp", "udp"], "network", "high"),
  (["mount", "disk", "fs", "lvm"], "mounts", "medium"),
  (["kernel", "sysctl", "selinux"], "kernel", "high")]

def SKIP_KEYS : List String := [
  "ansible_date_time", "ansible_uptime_seconds", "ansible_local",
  "module_setup", "gather_subset", "ansible_fibre_channel_wwn"]

inductive DiffType where
  | added
  | removed
  | changed
  deriving DecidableEq

structure Detail where
  before : Value
  after : Value
  diffType : DiffType

structure DriftItem where
  factPath : String
  category : String
  severity : String
  summary : String
  detail : Detail

/-- What Python makes of texts and values: `text.lower()`, `repr(value)`, the texts of values
and the value of a JSON document. -/
structure Environment extends Texts where
  lower : String → String
  repr : Value → String
  document : Text → Value

def getFact (facts : Facts) (key : String) : Value := (facts.lookup key).getD .null

def differ (left right : Value) : Bool := !left.equal right

/-! ## Items -/

section Items

variable (env : Environment)

def classifyFact (key : String) : String × String :=
  match CATEGORY_MAP.lookup key with
  | some found => found
  | none =>
      let lower := env.lower key
      match CATEGORY_WORDS.find? fun row => row.1.any fun word => word.toList <:+: lower.toList with
      | some row => row.2
      | none => ("other", "low")

def diffTypeOf : Value → Value → DiffType
  | .null, _ => .added
  | _, .null => .removed
  | _, _ => .changed

/-- `key: parts`, or that the value changed when there is nothing to count. -/
def summaryOf (key : String) (parts : List String) (unit : String) : String :=
  if parts = [] then key ++ ": changed" else key ++ ": " ++ String.intercalate ", " parts ++ unit

def counted (sign : String) (count : ℕ) (unit : String) : List String :=
  if count = 0 then [] else [sign ++ toString count ++ unit]

def missingFrom (left right : List String) : ℕ := (left.dedup.filter (· ∉ right)).length

def summarizeChange (key : String) (oldVal newVal : Value) (diffKind : DiffType) : String :=
  match diffKind, oldVal, newVal with
  | .added, _, _ => key ++ ": added"
  | .removed, _, _ => key ++ ": removed"
  | .changed, .list old, .list new =>
      let old := old.map env.text
      let new := new.map env.text
      summaryOf key (counted "+" (missingFrom new old) "" ++ counted "-" (missingFrom old new) "")
        " items"
  | .changed, .dict old, .dict new =>
      let common := old.filter fun entry => (new.lookup entry.1).isSome
      let changed := common.filter fun entry => differ entry.2 (getFact new entry.1)
      summaryOf key (counted "+" (missingFrom (new.map Prod.fst) (old.map Prod.fst)) " keys" ++
        counted "-" (missingFrom (old.map Prod.fst) (new.map Prod.fst)) " keys" ++
        counted "~" changed.length " keys") ""
  | .changed, _, _ => key ++ ": " ++ env.repr oldVal ++ " -> " ++ env.repr newVal

def cutMark : Text := "...\"truncated\"\x7d".toList

def truncate (value : Value) (maxLen : ℕ) : Except LoadError Value :=
  let text := (env.dumps value).toList
  if maxLen < text.length then loads env.document (text.take (maxLen - 20) ++ cutMark)
  else .ok value

def driftItem (key : String) (oldVal newVal : Value) : Except LoadError DriftItem := do
  let diffKind := diffTypeOf oldVal newVal
  let (category, severity) := classifyFact env key
  let summary := summarizeChange env key oldVal newVal diffKind
  let before ← truncate env oldVal 2000
  let after ← truncate env newVal 2000
  return ⟨key, category, severity, summary, before, after, diffKind⟩

/-- The keys of two dictionaries, ascending and without repetition. -/
def allKeys (oldFacts newFacts : Facts) : List String :=
  (oldFacts.map Prod.fst ++ newFacts.map Prod.fst).dedup.insertionSort (· ≤ ·)

def reported (oldFacts newFacts : Facts) (key : String) : Bool :=
  key ∉ SKIP_KEYS && differ (getFact oldFacts key) (getFact newFacts key)

def computeDrift (oldFacts newFacts : Facts) : Except LoadError (List DriftItem) :=
  ((allKeys oldFacts newFacts).filter (reported oldFacts newFacts)).mapM fun key =>
    driftItem env key (getFact oldFacts key) (getFact newFacts key)

end Items

/-! ## What JSON tells apart -/

/-- The number that a value is; truth values are none. -/
def numeral : Value → Option Number
  | .int value => some (.finite value)
  | .float value => some value
  | _ => none

mutual

/-- Two JSON values are the same: truth values are no numbers. -/
def same : Value → Value → Bool
  | .null, .null => true
  | .bool left, .bool right => left = right
  | .str left, .str right => left = right
  | .list left, .list right => sameItems left right
  | .dict left, .dict right => left.length = right.length && sameEntries left right
  | left, right =>
      match numeral left, numeral right with
      | some left, some right => left.equal right
      | _, _ => false

def sameItems : List Value → List Value → Bool
  | [], [] => true
  | left :: lefts, right :: rights => same left right && sameItems lefts rights
  | _, _ => false

def sameEntries : List (String × Value) → List (String × Value) → Bool
  | [], _ => true
  | (key, left) :: entries, others =>
      (match others.lookup key with
        | some right => same left right
        | none => false) && sameEntries entries others

end

mutual

theorem equal_of_same {left right : Value} (hsame : same left right = true) :
    left.equal right = true := by
  cases left with
  | list lefts =>
    cases right with
    | list rights =>
      rw [same] at hsame
      rw [Value.equal]
      exact equalItems_of_same hsame
    | _ => simp [same, numeral] at hsame
  | dict lefts =>
    cases right with
    | dict rights =>
      rw [same, Bool.and_eq_true] at hsame
      rw [Value.equal, Bool.and_eq_true]
      exact ⟨hsame.1, equalEntries_of_same hsame.2⟩
    | _ => simp [same, numeral] at hsame
  | null => cases right <;> simp_all [same, Value.equal, numeral]
  | bool left => cases right <;> simp_all [same, Value.equal, numeral, Value.number, Number.equal]
  | int left => cases right <;> simp_all [same, Value.equal, numeral, Value.number]
  | float left => cases right <;> simp_all [same, Value.equal, numeral, Value.number]
  | str left => cases right <;> simp_all [same, Value.equal, numeral]

theorem equalItems_of_same {lefts rights : List Value} (hsame : sameItems lefts rights = true) :
    equalItems lefts rights = true := by
  cases lefts with
  | nil => cases rights <;> simp_all [sameItems, equalItems]
  | cons left lefts =>
    cases rights with
    | nil => simp [sameItems] at hsame
    | cons right rights =>
      rw [sameItems, Bool.and_eq_true] at hsame
      rw [equalItems, Bool.and_eq_true]
      exact ⟨equal_of_same hsame.1, equalItems_of_same hsame.2⟩

theorem equalEntries_of_same {entries others : List (String × Value)}
    (hsame : sameEntries entries others = true) : equalEntries entries others = true := by
  cases entries with
  | nil => rw [equalEntries]
  | cons entry entries =>
    obtain ⟨key, left⟩ := entry
    rw [sameEntries, Bool.and_eq_true] at hsame
    rw [equalEntries, Bool.and_eq_true]
    refine ⟨?_, equalEntries_of_same hsame.2⟩
    cases hlookup : others.lookup key with
    | none => simp [hlookup] at hsame
    | some right =>
      rw [hlookup] at hsame
      exact equal_of_same hsame.1

end

/-! ## Complete reports -/

/-- The key is in one of the dictionaries only, or has different values in them. -/
def Drifted (oldFacts newFacts : Facts) (key : String) : Prop :=
  match oldFacts.lookup key, newFacts.lookup key with
  | some oldVal, some newVal => same oldVal newVal = false
  | none, none => False
  | _, _ => True

/-- One item for every key that drifted and is not skipped, in sorted key order. -/
structure CompleteReport (oldFacts newFacts : Facts) (items : List DriftItem) : Prop where
  sorted : (items.map DriftItem.factPath).Pairwise (· < ·)
  mem_iff : ∀ key, key ∈ items.map DriftItem.factPath ↔
    key ∉ SKIP_KEYS ∧ Drifted oldFacts newFacts key

def Complete (env : Environment) (oldFacts newFacts : Facts) : Prop :=
  ∃ items, computeDrift env oldFacts newFacts = .ok items ∧
    CompleteReport oldFacts newFacts items

def OnlyValue (oldFacts newFacts : Facts) (key : String) (value : Value) : Prop :=
  (oldFacts.lookup key = some value ∧ newFacts.lookup key = none) ∨
    (oldFacts.lookup key = none ∧ newFacts.lookup key = some value)

def ShortValues (env : Environment) (oldFacts newFacts : Facts) (key : String) : Prop :=
  (env.dumps (getFact oldFacts key)).length ≤ 2000 ∧
    (env.dumps (getFact newFacts key)).length ≤ 2000

/-- The values that are reported are short texts, no value that comes or goes is null, and no
change is one that Python's equality misses. -/
structure Reportable (env : Environment) (oldFacts newFacts : Facts) : Prop where
  short : ∀ key, reported oldFacts newFacts key = true → ShortValues env oldFacts newFacts key
  not_null : ∀ key ∉ SKIP_KEYS, ∀ value, OnlyValue oldFacts newFacts key value → value ≠ .null
  told_apart : ∀ key ∉ SKIP_KEYS, ∀ oldVal newVal, oldFacts.lookup key = some oldVal →
    newFacts.lookup key = some newVal → oldVal.equal newVal = true → same oldVal newVal = true

variable {env : Environment} {oldFacts newFacts : Facts} {key : String} {items : List DriftItem}
  {oldVal newVal value : Value}

theorem reported_iff :
    reported oldFacts newFacts key = true ↔
      key ∉ SKIP_KEYS ∧ (getFact oldFacts key).equal (getFact newFacts key) = false := by
  rw [reported, differ, Bool.and_eq_true, decide_eq_true_eq, Bool.not_eq_true']

theorem mem_allKeys :
    key ∈ allKeys oldFacts newFacts ↔ key ∈ oldFacts.map Prod.fst ∨ key ∈ newFacts.map Prod.fst := by
  rw [allKeys, (List.perm_insertionSort _ _).mem_iff, List.mem_dedup, List.mem_append]

theorem allKeys_sorted (oldFacts newFacts : Facts) :
    (allKeys oldFacts newFacts).Pairwise (· < ·) := by
  have hsorted : (allKeys oldFacts newFacts).Pairwise (· ≤ ·) := List.pairwise_insertionSort _ _
  have hnodup : (allKeys oldFacts newFacts).Nodup :=
    (List.perm_insertionSort _ _).nodup_iff.mpr (List.nodup_dedup _)
  exact hsorted.imp₂ (fun _ _ hle hne => lt_of_le_of_ne hle hne) hnodup

theorem getFact_of_notMem {facts : Facts} (hmem : key ∉ facts.map Prod.fst) :
    getFact facts key = .null := by
  have hnone : facts.lookup key = none := by
    rw [List.lookup_eq_none_iff]
    intro entry hentry
    rw [bne_iff_ne]
    rintro rfl
    exact hmem (List.mem_map_of_mem hentry)
  rw [getFact, hnone, Option.getD_none]

theorem equal_null : Value.null.equal .null = true := by rw [Value.equal]

theorem equal_null_iff : value.equal .null = true ↔ value = .null := by
  cases value <;> simp [Value.equal, Value.number]

theorem null_equal_iff : Value.null.equal value = true ↔ value = .null := by
  cases value <;> simp [Value.equal, Value.number]

theorem mem_filter_reported :
    key ∈ (allKeys oldFacts newFacts).filter (reported oldFacts newFacts) ↔
      reported oldFacts newFacts key = true := by
  rw [List.mem_filter, and_iff_right_iff_imp, mem_allKeys]
  intro hreported
  by_contra hnone
  obtain ⟨hold, hnew⟩ := not_or.mp hnone
  have hdiffer := (reported_iff.mp hreported).2
  rw [getFact_of_notMem hold, getFact_of_notMem hnew, equal_null] at hdiffer
  exact absurd hdiffer (by decide)

theorem drifted_of_reported (hreported : reported oldFacts newFacts key = true) :
    Drifted oldFacts newFacts key := by
  have hdiffer := (reported_iff.mp hreported).2
  rw [getFact, getFact] at hdiffer
  rw [Drifted]
  cases hold : oldFacts.lookup key with
  | none =>
    cases hnew : newFacts.lookup key with
    | none =>
      rw [hold, hnew, Option.getD_none, equal_null] at hdiffer
      exact absurd hdiffer (by decide)
    | some newVal => trivial
  | some oldVal =>
    cases hnew : newFacts.lookup key with
    | none => trivial
    | some newVal =>
      rw [hold, hnew, Option.getD_some, Option.getD_some] at hdiffer
      show same oldVal newVal = false
      rw [← Bool.not_eq_true]
      intro hsame
      rw [equal_of_same hsame] at hdiffer
      exact absurd hdiffer (by decide)

/-! ### Long values -/

/-- Nothing that was cut is a document: the mark closes a string that is open and goes on with
a word, and no number goes on with three points. -/
theorem run_cutMark (reader : Reader) : reader.run cutMark = none := by
  obtain ⟨mode, brackets⟩ := reader
  have hpoint : Reader.endValue brackets '.' = none :=
    Reader.endValue_eq_none brackets rfl (by decide)
  have hletter : Reader.endValue brackets 't' = none :=
    Reader.endValue_eq_none brackets rfl (by decide)
  have hrest : ∀ {first : Option Reader} (rest : Text), first = none →
      (first.bind fun next => next.run rest) = none := by
    rintro first rest rfl
    rfl
  cases mode with
  | string role =>
    cases role with
    | key => rfl
    | value => exact hrest "runcated\"\x7d".toList hletter
  | word left => exact hrest cutMark.tail (Reader.inWord_eq_none brackets left rfl)
  | after => exact hrest cutMark.tail hpoint
  | fraction => exact hrest cutMark.tail hpoint
  | power => exact hrest cutMark.tail hpoint
  | _ => rfl

variable (env) in
theorem truncate_eq (value : Value) (maxLen : ℕ) :
    truncate env value maxLen =
      if maxLen < (env.dumps value).length then .error .valueError else .ok value := by
  rw [truncate, String.length_toList]
  refine ite_congr rfl (fun _ => ?_) fun _ => rfl
  rw [loads, isDocument_append run_cutMark]
  rfl

section Items

variable (env)

def itemOf (key : String) (oldVal newVal : Value) : DriftItem where
  factPath := key
  category := (classifyFact env key).1
  severity := (classifyFact env key).2
  summary := summarizeChange env key oldVal newVal (diffTypeOf oldVal newVal)
  detail := ⟨oldVal, newVal, diffTypeOf oldVal newVal⟩

theorem driftItem_of_short (key : String) (hold : (env.dumps oldVal).length ≤ 2000)
    (hnew : (env.dumps newVal).length ≤ 2000) :
    driftItem env key oldVal newVal = .ok (itemOf env key oldVal newVal) := by
  rw [driftItem, truncate_eq, truncate_eq, if_neg (Nat.not_lt.mpr hold),
    if_neg (Nat.not_lt.mpr hnew)]
  rfl

theorem driftItem_of_long (key : String)
    (hlong : ¬ ((env.dumps oldVal).length ≤ 2000 ∧ (env.dumps newVal).length ≤ 2000)) :
    driftItem env key oldVal newVal = .error .valueError := by
  rw [driftItem, truncate_eq, truncate_eq]
  by_cases hold : (env.dumps oldVal).length ≤ 2000
  · have hnew : 2000 < (env.dumps newVal).length :=
      Nat.not_le.mp fun hnew => hlong ⟨hold, hnew⟩
    rw [if_neg (Nat.not_lt.mpr hold), if_pos hnew]
    rfl
  · rw [if_pos (Nat.not_le.mp hold)]
    rfl

end Items

theorem computeDrift_of_short
    (hshort : ∀ key, reported oldFacts newFacts key = true →
      ShortValues env oldFacts newFacts key) :
    computeDrift env oldFacts newFacts =
      .ok (((allKeys oldFacts newFacts).filter (reported oldFacts newFacts)).map fun key =>
        itemOf env key (getFact oldFacts key) (getFact newFacts key)) := by
  apply mapM_eq_ok
  intro key hkey
  obtain ⟨hold, hnew⟩ := hshort key (mem_filter_reported.mp hkey)
  exact driftItem_of_short env key hold hnew

theorem short_of_computeDrift (hreport : computeDrift env oldFacts newFacts = .ok items)
    (hreported : reported oldFacts newFacts key = true) :
    ShortValues env oldFacts newFacts key := by
  obtain ⟨item, -, hitem⟩ := (mem_of_mapM hreport).1 key (mem_filter_reported.mpr hreported)
  by_contra hlong
  rw [driftItem_of_long env key hlong] at hitem
  exact error_ne_ok hitem

theorem factPath_items (keys : List String) :
    (keys.map fun key => itemOf env key (getFact oldFacts key) (getFact newFacts key)).map
      DriftItem.factPath = keys := by
  rw [List.map_map]
  exact List.map_id keys

theorem factPath_computeDrift (hreport : computeDrift env oldFacts newFacts = .ok items) :
    items.map DriftItem.factPath =
      (allKeys oldFacts newFacts).filter (reported oldFacts newFacts) := by
  have hitems := computeDrift_of_short fun _ => short_of_computeDrift hreport
  rw [hreport] at hitems
  rw [Except.ok.inj hitems, factPath_items]

/-! ### Keys that are missed -/

theorem reported_of_drifted (hreportable : Reportable env oldFacts newFacts)
    (hskip : key ∉ SKIP_KEYS) (hdrifted : Drifted oldFacts newFacts key) :
    reported oldFacts newFacts key = true := by
  refine reported_iff.mpr ⟨hskip, ?_⟩
  rw [← Bool.not_eq_true, getFact, getFact]
  intro hequal
  rw [Drifted] at hdrifted
  cases hold : oldFacts.lookup key with
  | none =>
    cases hnew : newFacts.lookup key with
    | none => simp only [hold, hnew] at hdrifted
    | some newVal =>
      rw [hold, hnew, Option.getD_none, Option.getD_some, null_equal_iff] at hequal
      exact hreportable.not_null key hskip newVal (.inr ⟨hold, hnew⟩) hequal
  | some oldVal =>
    cases hnew : newFacts.lookup key with
    | none =>
      rw [hold, hnew, Option.getD_none, Option.getD_some, equal_null_iff] at hequal
      exact hreportable.not_null key hskip oldVal (.inl ⟨hold, hnew⟩) hequal
    | some newVal =>
      rw [hold, hnew, Option.getD_some, Option.getD_some] at hequal
      have hsame := hreportable.told_apart key hskip oldVal newVal hold hnew hequal
      simp only [hold, hnew, hsame] at hdrifted
      contradiction

theorem not_null_of_reported {value : Value} (honly : OnlyValue oldFacts newFacts key value)
    (hreported : reported oldFacts newFacts key = true) : value ≠ .null := by
  rintro rfl
  have hdiffer := (reported_iff.mp hreported).2
  rw [getFact, getFact] at hdiffer
  rcases honly with ⟨hold, hnew⟩ | ⟨hold, hnew⟩
  · rw [hold, hnew, Option.getD_some, Option.getD_none, equal_null] at hdiffer
    contradiction
  · rw [hold, hnew, Option.getD_some, Option.getD_none, equal_null] at hdiffer
    contradiction

theorem drifted_of_only (honly : OnlyValue oldFacts newFacts key value) :
    Drifted oldFacts newFacts key := by
  rcases honly with ⟨hold, hnew⟩ | ⟨hold, hnew⟩ <;> simp only [Drifted, hold, hnew]

theorem computeDrift_complete_iff (env : Environment) (oldFacts newFacts : Facts) :
    Complete env oldFacts newFacts ↔ Reportable env oldFacts newFacts := by
  constructor
  · rintro ⟨items, hreport, hcomplete⟩
    have hreported : ∀ key ∉ SKIP_KEYS, Drifted oldFacts newFacts key →
        reported oldFacts newFacts key = true := by
      intro key hskip hdrifted
      have hmem := (hcomplete.mem_iff key).mpr ⟨hskip, hdrifted⟩
      rw [factPath_computeDrift hreport] at hmem
      exact mem_filter_reported.mp hmem
    constructor
    · exact fun key => short_of_computeDrift hreport
    · intro key hskip value honly
      exact not_null_of_reported honly (hreported key hskip (drifted_of_only honly))
    · intro key hskip oldVal newVal hold hnew hequal
      rw [← Bool.not_eq_false]
      intro hdifferent
      have hdrifted : Drifted oldFacts newFacts key := by
        simp only [Drifted, hold, hnew, hdifferent]
      have hdiffer := (reported_iff.mp (hreported key hskip hdrifted)).2
      rw [getFact, getFact, hold, hnew, Option.getD_some, Option.getD_some, hequal] at hdiffer
      contradiction
  · intro hreportable
    have hreport := computeDrift_of_short hreportable.short
    refine ⟨_, hreport, ?_, fun key => ?_⟩
    · rw [factPath_items]
      exact (allKeys_sorted oldFacts newFacts).filter _
    · rw [factPath_items, mem_filter_reported]
      constructor
      · exact fun hreported => ⟨(reported_iff.mp hreported).1, drifted_of_reported hreported⟩
      · exact fun ⟨hskip, hdrifted⟩ => reported_of_drifted hreportable hskip hdrifted

def plainTexts : Environment where
  str _ := ""
  dumps
    | .null => "null"
    | .bool value => if value then "true" else "false"
    | .int value => toString value
    | .str value => "\"" ++ value ++ "\""
    | _ => ""
  lower text := text
  repr _ := ""
  document _ := .null

def manyPackages : Facts :=
  [("ansible_packages", .str (String.ofList (List.replicate 2000 'p')))]

theorem manyPackages_incomplete : ¬ Complete plainTexts [] manyPackages := by
  rintro ⟨items, hreport, -⟩
  have hreported : reported [] manyPackages "ansible_packages" = true := by
    refine reported_iff.mpr ⟨by decide, ?_⟩
    rw [← Bool.not_eq_true, getFact, List.lookup_nil, Option.getD_none, null_equal_iff]
    exact fun hnull => nomatch hnull
  have hlong : 2000 < (plainTexts.dumps (getFact manyPackages "ansible_packages")).length := by
    have hdumps : plainTexts.dumps (getFact manyPackages "ansible_packages") =
        "\"" ++ String.ofList (List.replicate 2000 'p') ++ "\"" := rfl
    have hlength : (String.ofList (List.replicate 2000 'p')).length = 2000 := by
      rw [String.length_ofList, List.length_replicate]
    rw [hdumps, String.length_append, String.length_append, hlength]
    decide
  exact Nat.not_le.mpr hlong (short_of_computeDrift hreport hreported).2

end Forail.FactDrift

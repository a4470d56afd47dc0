import Forail.Core.FixedDigits
import Mathlib.Data.List.Infix
import Mathlib.Data.Nat.Basic

/-!
# The names of event partitions

The events of a job are stored in the partition for the hour in which the job was
created.  The hour is read back from the name of the partition, by the database and
by the cleanup.
-/

namespace Forail.Cleanup

open Forail.FixedDigits

/-! ## Times -/

def daysInMonth (year month : ℕ) : ℕ :=
  if month = 2 then
    if year % 4 = 0 ∧ (year % 100 ≠ 0 ∨ year % 400 = 0) then 29 else 28
  else if month ∈ [4, 6, 9, 11] then 30 else 31

def ValidHour (year month day hour : ℕ) : Prop :=
  1000 ≤ year ∧ year ≤ 9999 ∧ 1 ≤ month ∧ month ≤ 12 ∧ 1 ≤ day ∧
    day ≤ daysInMonth year month ∧ hour ≤ 23

instance (year month day hour : ℕ) : Decidable (ValidHour year month day hour) := by
  unfold ValidHour
  infer_instance

@[ext]
structure Hour where
  year : ℕ
  month : ℕ
  day : ℕ
  hour : ℕ
  valid : ValidHour year month day hour
  deriving DecidableEq

/-- A `datetime` in UTC, with the microseconds since the full hour. -/
@[ext]
structure Moment where
  hour : Hour
  within : ℕ
  within_lt : within < 3600000000
  deriving DecidableEq

namespace Hour

def rank (time : Hour) : ℕ := ((time.year * 13 + time.month) * 32 + time.day) * 24 + time.hour

theorem daysInMonth_le (year month : ℕ) : daysInMonth year month ≤ 31 := by
  rw [daysInMonth]
  split
  · split <;> decide
  · split <;> decide

theorem rank_injective : Function.Injective rank := by
  intro first second hrank
  have hfirst := first.valid
  have hsecond := second.valid
  have hday := daysInMonth_le first.year first.month
  have hday' := daysInMonth_le second.year second.month
  rw [ValidHour] at hfirst hsecond
  rw [rank, rank] at hrank
  ext <;> omega

end Hour

def Hour.start (time : Hour) : Moment := ⟨time, 0, by decide⟩

namespace Moment

def rank (time : Moment) : ℕ := time.hour.rank * 3600000000 + time.within

def truncate (time : Moment) : Moment := time.hour.start

theorem rank_start (time : Hour) : time.start.rank = time.rank * 3600000000 := Nat.add_zero _

/-- A time from the cutoff on, whose hour has begun before the cutoff, is in the hour of
the cutoff. -/
theorem hour_eq_of_rank {time cutoff : Moment} (hlate : cutoff.rank ≤ time.rank)
    (hbegun : time.hour.start.rank < cutoff.rank) : time.hour = cutoff.hour := by
  have htime := time.within_lt
  have hcutoff := cutoff.within_lt
  rw [rank_start, rank] at hbegun
  rw [rank, rank] at hlate
  apply Hour.rank_injective
  omega

end Moment

/-! ## Names -/

inductive JobClass where
  | job
  | adHocCommand
  | projectUpdate
  | inventoryUpdate
  | systemJob
  deriving DecidableEq

def JobClass.eventClass : JobClass → String
  | job => "jobevent"
  | adHocCommand => "adhoccommandevent"
  | projectUpdate => "projectupdateevent"
  | inventoryUpdate => "inventoryupdateevent"
  | systemJob => "systemjobevent"

def unifiedJobClassToEventTableName (jobClass : JobClass) : String := "main_" ++ jobClass.eventClass

def strftime (time : Hour) : List Char :=
  digits 4 time.year ++ digits 2 time.month ++ digits 2 time.day ++ '_' :: digits 2 time.hour

def dtToPartitionName (table : String) (time : Hour) : String :=
  table ++ "_" ++ String.ofList (strftime time)

def partitionTableName (jobClass : JobClass) (time : Moment) : String :=
  unifiedJobClassToEventTableName jobClass ++ "_" ++ String.ofList (strftime time.truncate.hour)

def readHour (date hour : List Char) : Option Hour :=
  if date.length = 8 ∧ hour.length = 2 then
    if hvalid : ValidHour (valueOf (date.take 4)) (valueOf ((date.drop 4).take 2))
        (valueOf (date.drop 6)) (valueOf hour) then
      some ⟨_, _, _, _, hvalid⟩
    else none
  else none

def toTimestamp (text : List Char) : Option Hour := readHour (text.take 8) (text.drop 9)

def ltrim (text chars : List Char) : List Char := text.dropWhile fun char => decide (char ∈ chars)

def isLower (char : Char) : Bool := 'a' ≤ char && char ≤ 'z'

def many (accepts : Char → Bool) (chars : List Char) : Option (List Char × List Char) :=
  if chars.takeWhile accepts = [] then none
  else some (chars.takeWhile accepts, chars.dropWhile accepts)

def underscore : List Char → Option (List Char)
  | '_' :: rest => some rest
  | _ => none

def matchName (name : List Char) : Option (List Char × List Char) := do
  let (_, rest) ← many isLower name
  let rest ← underscore rest
  let (_, rest) ← many isLower rest
  let rest ← underscore rest
  let (date, rest) ← many isDigit rest
  let rest ← underscore rest
  match rest with
  | tens :: ones :: _ => if isDigit tens && isDigit ones then some (date, [tens, ones]) else none
  | _ => none

def isUnpartitioned (name : String) : Bool :=
  decide (['_', 'u', 'n', 'p', 'a', 'r', 't', 'i', 't', 'i', 'o', 'n', 'e', 'd'] <:+: name.toList)

/-- The hour of a partition, `none` for a name of another form. -/
def partitionNameDt (name : String) : Except String (Option Hour) :=
  if isUnpartitioned name then .ok none
  else
    match matchName name.toList with
    | none => .ok none
    | some (date, hour) =>
        match readHour date hour with
        | none => .error "ValueError"
        | some time => .ok (some time)

/-! ## The hour is read back from the name -/

variable {accepts : Char → Bool} {run rest : List Char}

theorem many_append (hrun : ∀ char ∈ run, accepts char = true) (hne : run ≠ [])
    (hrest : ∀ char ∈ rest.head?, accepts char = false) :
    many accepts (run ++ rest) = some (run, rest) := by
  have hstop : rest.takeWhile accepts = [] ∧ rest.dropWhile accepts = rest := by
    cases rest with
    | nil => exact ⟨rfl, rfl⟩
    | cons char rest =>
      have hchar : ¬ accepts char = true := Bool.eq_false_iff.mp (hrest char rfl)
      exact ⟨List.takeWhile_cons_of_neg hchar, List.dropWhile_cons_of_neg hchar⟩
  rw [many, List.takeWhile_append_of_pos hrun, List.dropWhile_append_of_pos hrun, hstop.1, hstop.2,
    List.append_nil, if_neg hne]

theorem readHour_digits (time : Hour) :
    readHour (digits 4 time.year ++ digits 2 time.month ++ digits 2 time.day)
      (digits 2 time.hour) = some time := by
  have hvalid := time.valid
  have hday := Hour.daysInMonth_le time.year time.month
  rw [ValidHour] at hvalid
  have hlength : (digits 4 time.year ++ digits 2 time.month ++ digits 2 time.day).length = 8 := by
    rw [List.length_append, List.length_append, length_digits, length_digits, length_digits]
  have hyear : valueOf ((digits 4 time.year ++ digits 2 time.month ++ digits 2 time.day).take 4) =
      time.year := by
    rw [List.append_assoc, List.take_left' (length_digits 4 _), valueOf_digits (by omega)]
  have hmonth : valueOf (((digits 4 time.year ++ digits 2 time.month ++ digits 2 time.day).drop
      4).take 2) = time.month := by
    rw [List.append_assoc, List.drop_left' (length_digits 4 _), List.take_left' (length_digits 2 _),
      valueOf_digits (by omega)]
  have hdate : valueOf ((digits 4 time.year ++ digits 2 time.month ++ digits 2 time.day).drop 6) =
      time.day := by
    have hfront : (digits 4 time.year ++ digits 2 time.month).length = 6 := by
      rw [List.length_append, length_digits, length_digits]
    rw [List.drop_left' hfront, valueOf_digits (by omega)]
  have hhour : valueOf (digits 2 time.hour) = time.hour := valueOf_digits (by omega)
  rw [readHour, if_pos ⟨hlength, length_digits 2 _⟩]
  simp only [hyear, hmonth, hdate, hhour, time.valid, dite_true]

theorem isLower_eventClass (jobClass : JobClass) :
    (∀ char ∈ jobClass.eventClass.toList, isLower char = true) ∧
      jobClass.eventClass.toList ≠ [] := by
  have hlower : jobClass.eventClass.toList.all isLower = true := by
    cases jobClass <;> decide +kernel
  have hne : jobClass.eventClass.toList ≠ [] := by
    cases jobClass <;> decide +kernel
  exact ⟨List.all_eq_true.mp hlower, hne⟩

theorem toList_dtToPartitionName (jobClass : JobClass) (time : Hour) :
    (dtToPartitionName (unifiedJobClassToEventTableName jobClass) time).toList =
      "main".toList ++ '_' :: (jobClass.eventClass.toList ++ '_' :: strftime time) := by
  rw [dtToPartitionName, unifiedJobClassToEventTableName, String.toList_append,
    String.toList_append, String.toList_append, String.toList_ofList]
  simp

theorem matchName_partition (jobClass : JobClass) (time : Hour) :
    matchName (dtToPartitionName (unifiedJobClassToEventTableName jobClass) time).toList =
      some (digits 4 time.year ++ digits 2 time.month ++ digits 2 time.day,
        digits 2 time.hour) := by
  obtain ⟨hlower, hne⟩ := isLower_eventClass jobClass
  have hdate : ∀ char ∈ digits 4 time.year ++ digits 2 time.month ++ digits 2 time.day,
      isDigit char = true := by
    intro char hchar
    simp only [List.mem_append] at hchar
    obtain (hchar | hchar) | hchar := hchar
    · exact isDigit_of_mem hchar
    · exact isDigit_of_mem hchar
    · exact isDigit_of_mem hchar
  have hnonempty : digits 4 time.year ++ digits 2 time.month ++ digits 2 time.day ≠ [] :=
    fun hempty => absurd (congrArg List.length hempty) (by simp [length_digits])
  have hstop : ∀ rest : List Char, ∀ char ∈ ('_' :: rest).head?,
      isLower char = false ∧ isDigit char = false := by
    intro rest char hchar
    rw [← Option.some.inj hchar]
    decide
  have happ : many isLower ("main".toList ++ '_' :: (jobClass.eventClass.toList ++
      '_' :: strftime time)) =
        some ("main".toList, '_' :: (jobClass.eventClass.toList ++ '_' :: strftime time)) :=
    many_append (List.all_eq_true.mp (by decide +kernel)) (by decide +kernel)
      fun char hchar => (hstop _ char hchar).1
  have hevent : many isLower (jobClass.eventClass.toList ++ '_' :: strftime time) =
      some (jobClass.eventClass.toList, '_' :: strftime time) :=
    many_append hlower hne fun char hchar => (hstop _ char hchar).1
  have hdigits : many isDigit (strftime time) =
      some (digits 4 time.year ++ digits 2 time.month ++ digits 2 time.day,
        '_' :: digits 2 time.hour) :=
    many_append hdate hnonempty fun char hchar => (hstop _ char hchar).2
  have hhour : digits 2 time.hour = [digitOf (time.hour / 10), digitOf time.hour] := rfl
  simp only [toList_dtToPartitionName, matchName, happ, Option.bind_eq_bind, Option.bind_some,
    underscore, hevent, hdigits, hhour, isDigit_digitOf, Bool.and_true, if_true]

theorem not_infix_of_pair {first second : Char} {rest text others : List Char}
    (htext : ¬ [first, second] <:+: text) (hothers : second ∉ others) :
    ¬ first :: second :: rest <:+: text ++ others := by
  intro hinfix
  obtain ⟨before, after, hsplit⟩ := hinfix
  have hpair : (before ++ [first, second]) ++ (rest ++ after) = text ++ others := by
    rw [← hsplit]
    simp
  obtain ⟨more, hmore, -⟩ | ⟨more, hmore, hrest⟩ := List.append_eq_append_iff.mp hpair
  · exact htext ⟨before, more, hmore.symm⟩
  · cases List.eq_nil_or_concat more with
    | inl hnil =>
      rw [hnil, List.append_nil] at hmore
      exact htext ⟨before, [], by rw [List.append_nil, hmore]⟩
    | inr hlast =>
      obtain ⟨front, last, rfl⟩ := hlast
      rw [List.concat_eq_append] at hmore hrest
      have hsecond : (before ++ [first, second]).getLast? = (text ++ (front ++ [last])).getLast? :=
        congrArg List.getLast? hmore
      rw [← List.append_assoc, List.getLast?_concat, List.getLast?_append] at hsecond
      obtain rfl : second = last := Option.some.inj hsecond
      exact hothers (hrest ▸ List.mem_append_left _ (List.mem_append_right _ List.mem_cons_self))

theorem mem_strftime {char : Char} {time : Hour} (hchar : char ∈ strftime time) :
    isDigit char = true ∨ char = '_' := by
  simp only [strftime, List.mem_append, List.mem_cons] at hchar
  obtain ((hchar | hchar) | hchar) | hchar | hchar := hchar
  · exact .inl (isDigit_of_mem hchar)
  · exact .inl (isDigit_of_mem hchar)
  · exact .inl (isDigit_of_mem hchar)
  · exact .inr hchar
  · exact .inl (isDigit_of_mem hchar)

/-- No name of a partition is taken for an unpartitioned table: there no underscore is
followed by a `u`. -/
theorem isUnpartitioned_partition (jobClass : JobClass) (time : Hour) :
    isUnpartitioned (dtToPartitionName (unifiedJobClassToEventTableName jobClass) time) =
      false := by
  have hclass : ¬ ['_', 'u'] <:+: "main".toList ++ '_' :: jobClass.eventClass.toList := by
    cases jobClass <;> decide +kernel
  have hsuffix : 'u' ∉ '_' :: strftime time := by
    intro hchar
    cases List.mem_cons.mp hchar with
    | inl hsame => exact absurd hsame (by decide)
    | inr hchar => exact absurd (mem_strftime hchar) (by decide)
  rw [isUnpartitioned, toList_dtToPartitionName, ← List.cons_append, ← List.append_assoc]
  exact decide_eq_false (not_infix_of_pair hclass hsuffix)

theorem partitionNameDt_partition (jobClass : JobClass) (time : Hour) :
    partitionNameDt (dtToPartitionName (unifiedJobClassToEventTableName jobClass) time) =
      .ok (some time) := by
  rw [partitionNameDt, isUnpartitioned_partition, if_neg Bool.false_ne_true, matchName_partition]
  simp only [readHour_digits]

theorem readHour_strftime (time : Hour) :
    readHour ((strftime time).take 8) ((strftime time).drop 9) = some time := by
  have hdate : (digits 4 time.year ++ digits 2 time.month ++ digits 2 time.day).length = 8 := by
    rw [List.length_append, List.length_append, length_digits, length_digits, length_digits]
  have hafter : (strftime time).drop 9 = digits 2 time.hour := by
    rw [strftime, List.append_cons]
    exact List.drop_left' (by rw [List.length_append, hdate, List.length_singleton])
  rw [hafter, strftime, List.take_left' hdate, readHour_digits]

theorem strftime_injective : Function.Injective strftime := by
  intro first second hsame
  have hread := readHour_strftime first
  rw [hsame, readHour_strftime] at hread
  exact (Option.some.inj hread).symm

theorem dtToPartitionName_injective (table : String) :
    Function.Injective (dtToPartitionName table) := by
  intro first second hsame
  have htexts := congrArg String.toList hsame
  simp only [dtToPartitionName, String.toList_append, String.toList_ofList] at htexts
  exact strftime_injective (List.append_cancel_left htexts)

/-- The database finds the hour behind the name of the table, of which no character is a
digit. -/
theorem toTimestamp_partition (jobClass : JobClass) (time : Hour) :
    toTimestamp (ltrim (dtToPartitionName (unifiedJobClassToEventTableName jobClass) time).toList
      (unifiedJobClassToEventTableName jobClass ++ "_").toList) = some time := by
  have hset : ∀ char ∈ (unifiedJobClassToEventTableName jobClass ++ "_").toList,
      isDigit char = false := by
    have hall : ((unifiedJobClassToEventTableName jobClass ++ "_").toList.all
        fun char => !isDigit char) = true := by
      cases jobClass <;> decide +kernel
    exact fun char hchar => Bool.not_eq_true' _ ▸ List.all_eq_true.mp hall char hchar
  have hdrop : (strftime time).dropWhile (fun char =>
      decide (char ∈ (unifiedJobClassToEventTableName jobClass ++ "_").toList)) =
        strftime time := by
    have hyear : isDigit (digitOf (time.year / 10 / 10 / 10)) = true := isDigit_digitOf _
    refine List.dropWhile_cons_of_neg fun hmem => ?_
    rw [hset _ (of_decide_eq_true hmem)] at hyear
    exact Bool.false_ne_true hyear
  rw [dtToPartitionName, String.toList_append, String.toList_ofList, ltrim,
    List.dropWhile_append_of_pos fun char hchar => decide_eq_true hchar, hdrop, toTimestamp,
    readHour_strftime]

end Forail.Cleanup

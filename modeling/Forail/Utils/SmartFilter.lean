import Forail.Core.InfixNotation
import Forail.Core.Json

/-!
# Smart host filters

A host filter is an expression of terms `key=value` with `and`, `or` and parentheses.  The parser
reads the filter in parentheses of its own and does not ask for the end of the text, so what
stands behind the parenthesis that closes these is ignored.
-/

namespace Forail.SmartFilter

open Forail.Json Forail.Texts Forail.InfixNotation Forail.FallibleLoops

/-! ## Terms -/

def expandTabs : ℕ → Text → Text
  | _, [] => []
  | column, char :: text =>
      if char = '\t' then
        List.replicate (8 - column % 8) ' ' ++ expandTabs (column + (8 - column % 8)) text
      else if char = '\n' ∨ char = '\r' then char :: expandTabs 0 text
      else char :: expandTabs (column + 1) text

/-- The characters that a word without quotes cannot have: the spaces of the filter, and the
signs of the notation. -/
def unicodeSpacesOther (filterString : Text) : Text :=
  filterString.filter isSpace ++ ['(', ')', '=', '"']

/-- The longest beginning of a text without some characters. -/
def charsNotIn (excluded text : Text) : Option (Text × Text) :=
  let word := text.takeWhile (· ∉ excluded)
  if word = [] then none else some (word, text.dropWhile (· ∉ excluded))

def atomQuoted (text : Text) : Option (List Text × Text) := do
  let rest ← literal ['"'] text
  match charsNotIn ['"'] rest with
  | some (inside, rest) => return ([['"'], inside, ['"']], ← literal ['"'] rest)
  | none => return ([['"'], ['"']], ← literal ['"'] rest)

/-- A key or a value; blanks are skipped in front of a quote only. -/
def atom (excluded text : Text) : Option (List Text × Text) :=
  match atomQuoted text with
  | some found => some found
  | none => (charsNotIn excluded text).map fun (word, rest) => ([word], rest)

/-- The tokens of a term; the value can be missing. -/
def term (excluded text : Text) : Option (List Text × Text) := do
  let (key, rest) ← atom excluded (skipBlanks text)
  let rest ← literal ['='] rest
  match atom excluded rest with
  | some (value, rest) => return (key ++ ['='] :: value, rest)
  | none => return (key ++ [['=']], rest)

inductive BoolOp where
  | and
  | or
  deriving DecidableEq

def BoolOp.word : BoolOp → Text
  | .and => "and".toList
  | .or => "or".toList

/-! ## Operands -/

/-- What the filter asks of its surroundings: numbers, the models with their search fields, the
check of a lookup, and the queries of hosts. -/
structure Environment (Query : Type) where
  float : Text → Number
  /-- the search fields of a model; a model that is not found is a `ParseException` -/
  searchFields : Text → Except Failure (List Text)
  getFieldFromLookup : Text → Except Failure Unit
  filter : Text → Value → Except Failure Query
  /-- hosts for which one of the lookups holds -/
  filterAny : List (Text × Value) → Except Failure Query
  combine : BoolOp → Query → Query → Query

variable {Query : Type} (env : Environment Query)

def isInteger (text : Text) : Bool :=
  let digits := match text with
    | '+' :: digits | '-' :: digits => digits
    | digits => digits
  !digits.isEmpty && digits.all Char.isDigit

def isDecimal (text : Text) : Bool :=
  match split ['.'] text with
  | [whole, fraction] => isInteger whole && !fraction.isEmpty && fraction.all Char.isDigit
  | _ => false

/-- `int(text)` of an integer; too many digits raise. -/
def toInt (text : Text) : Except Failure ℤ :=
  let (sign, digits) : ℤ × Text := match text with
    | '-' :: digits => (-1, digits)
    | '+' :: digits => (1, digits)
    | digits => (1, digits)
  match intOfDigits digits with
  | some number => .ok (sign * number)
  | none => .error (.raised "ValueError")

def stringToType (text : Text) : Except Failure Value :=
  if text = "null".toList then .ok .null
  else if text = "true".toList then .ok (.bool true)
  else if text = "false".toList then .ok (.bool false)
  else if isInteger text then do return .int (← toInt text)
  else if isDecimal text then .ok (.float (env.float text))
  else .ok (.str (String.ofList text))

def token (tokens : List Text) (index : ℕ) : Except Failure Text :=
  match tokens[index]? with
  | some text => .ok text
  | none => .error .mismatch

def quotedAt (tokens : List Text) (index : ℕ) : Bool :=
  tokens[index]? = some ['"'] && tokens[index + 2]? = some ['"']

def extractKeyValue (tokens : List Text) : Except Failure (Text × Value) := do
  let (key, offset) ←
    if quotedAt tokens 0 then do pure (← token tokens 1, 4)
    else do pure (← token tokens 0, 2)
  if tokens.length > offset + 2 ∧ quotedAt tokens offset then
    return (key, .str (String.ofList ('"' :: (← token tokens (offset + 1)) ++ ['"'])))
  else if tokens.length > offset + 1 then return (key, .str "")
  else return (key, ← stringToType env (← token tokens offset))

def SEARCHABLE_RELATIONSHIP : Text := "ansible_facts".toList

def unquoted (text : Text) : Text :=
  if ['"'] <+: text ∧ ['"'] <:+ text then (text.drop 1).dropLast else text

def stripQuotesTraditionalLogic : Value → Value
  | .str text => .str (String.ofList (unquoted text.toList))
  | value => value

def stripQuotesJsonLogic : Value → Value
  | .str text =>
      if text = "\"null\"" then .str text else .str (String.ofList (unquoted text.toList))
  | value => value

/-- The value at the end of a path of keys; a key with brackets has a list. -/
def nested : List Text → Value → Value
  | [], value => value
  | piece :: pieces, value =>
      if "[]".toList <:+ piece then
        .dict [(String.ofList (piece.take (piece.length - 2)), .list [nested pieces value])]
      else .dict [(String.ofList piece, nested pieces value)]

/-- The lookup of a fact by its path; other lookups only lose their quotes. -/
def jsonPathToContains (key : Text) (value : Value) : Text × Value :=
  if SEARCHABLE_RELATIONSHIP <+: key then
    let key := if "__exact".toList <:+ key then key.take (key.length - 7) else key
    let path := if SEARCHABLE_RELATIONSHIP ++ "__".toList <+: key
      then key.drop (SEARCHABLE_RELATIONSHIP.length + 2)
      else key.drop SEARCHABLE_RELATIONSHIP.length
    (SEARCHABLE_RELATIONSHIP ++ "__contains".toList,
      nested (split "__".toList path) (stripQuotesJsonLogic value))
  else (key, stripQuotesTraditionalLogic value)

/-- The lookups that a search stands for, none for other keys. -/
def expandSearch (key : Text) (value : Value) : Except Failure (List (Text × Value)) :=
  if key = "search".toList then do
    return (← env.searchFields "host".toList).map fun field => (field, value)
  else if "__search".toList <:+ key then do
    let relation := (split "__".toList key).headD []
    return (← env.searchFields relation).map fun field => (relation ++ "__".toList ++ field, value)
  else .ok []

def boolOperand (tokens : List Text) : Except Failure Query := do
  let (key, value) ← extractKeyValue env tokens
  let (key, value) := jsonPathToContains key value
  let searchKwargs ← expandSearch env key value
  if searchKwargs = [] then do
    env.getFieldFromLookup key
    env.filter key value
  else env.filterAny (searchKwargs.map fun (key, value) => (key ++ "__icontains".toList, value))

/-! ## The notation -/

variable {excluded text rest : Text} {tokens : List Text}

theorem charsNotIn_shorter {word : Text} (hfound : charsNotIn excluded text = some (word, rest)) :
    rest.length < text.length := by
  rw [charsNotIn] at hfound
  split at hfound
  · contradiction
  · rename_i hword
    obtain ⟨rfl, rfl⟩ := Prod.mk.inj (Option.some.inj hfound)
    have hsplit : text.takeWhile (· ∉ excluded) ++ text.dropWhile (· ∉ excluded) = text :=
      List.takeWhile_append_dropWhile
    have hparts := congrArg List.length hsplit
    have hpositive := List.length_pos_iff.mpr hword
    rw [List.length_append] at hparts
    omega

theorem literal_shorter {word : Text} (hword : word ≠ [])
    (hfound : literal word text = some rest) : rest.length < text.length := by
  have hlength := literal_length hfound
  have hpositive := List.length_pos_iff.mpr hword
  omega

theorem atomQuoted_shorter (hfound : atomQuoted text = some (tokens, rest)) :
    rest.length < text.length := by
  rw [atomQuoted] at hfound
  obtain ⟨next, hopen, hfound⟩ := Option.bind_eq_some_iff.mp hfound
  have hshort := literal_shorter (List.cons_ne_nil _ _) hopen
  split at hfound
  · rename_i inside after hinside
    have hinside := charsNotIn_shorter hinside
    obtain ⟨last, hclose, hlast⟩ := Option.bind_eq_some_iff.mp hfound
    obtain ⟨-, rfl⟩ := Prod.mk.inj (Option.some.inj hlast)
    have hclose := literal_shorter (List.cons_ne_nil _ _) hclose
    omega
  · obtain ⟨last, hclose, hlast⟩ := Option.bind_eq_some_iff.mp hfound
    obtain ⟨-, rfl⟩ := Prod.mk.inj (Option.some.inj hlast)
    have hclose := literal_shorter (List.cons_ne_nil _ _) hclose
    omega

theorem atom_shorter (hfound : atom excluded text = some (tokens, rest)) :
    rest.length < text.length := by
  rw [atom] at hfound
  split at hfound
  · rename_i hquoted
    obtain rfl := Option.some.inj hfound
    exact atomQuoted_shorter hquoted
  · obtain ⟨⟨word, after⟩, hword, hsame⟩ := Option.map_eq_some_iff.mp hfound
    obtain ⟨-, rfl⟩ := Prod.mk.inj hsame
    exact charsNotIn_shorter hword

theorem term_shorter (hfound : term excluded text = some (tokens, rest)) :
    rest.length < text.length := by
  rw [term] at hfound
  obtain ⟨⟨key, next⟩, hkey, hfound⟩ := Option.bind_eq_some_iff.mp hfound
  obtain ⟨after, hequal, hfound⟩ := Option.bind_eq_some_iff.mp hfound
  have hkey := (atom_shorter hkey).trans_le (skipBlanks_length text)
  have hequal := literal_shorter (List.cons_ne_nil _ _) hequal
  split at hfound
  · rename_i value last hvalue
    obtain ⟨-, rfl⟩ := Prod.mk.inj (Option.some.inj hfound)
    have hvalue := atom_shorter hvalue
    omega
  · obtain ⟨-, rfl⟩ := Prod.mk.inj (Option.some.inj hfound)
    have hblanks := skipBlanks_length after
    omega

theorem term_eq_none {inner : Text} (hexcluded : '(' ∈ excluded)
    (hopen : literal ['('] text = some inner) : term excluded text = none := by
  have hinner := literal_eq_some.mp hopen
  have hskip : skipBlanks ('(' :: inner) = '(' :: inner := rfl
  have hquoted : literal ['"'] ('(' :: inner) = none :=
    literal_eq_none (literal_eq_some.mpr hskip : literal ['('] ('(' :: inner) = some inner)
      (by decide)
  have hword : charsNotIn excluded ('(' :: inner) = none := by
    have hnone : ('(' :: inner).takeWhile (· ∉ excluded) = [] :=
      List.takeWhile_cons_of_neg (by simpa using hexcluded)
    rw [charsNotIn, hnone]
    rfl
  have hatom : atom excluded ('(' :: inner) = none := by
    have hnone : atomQuoted ('(' :: inner) = none := by
      rw [atomQuoted, hquoted]
      rfl
    rw [atom, hnone]
    dsimp only
    rw [hword, Option.map_none]
  rw [term, hinner, List.singleton_append, hatom]
  rfl

def grammar (filterString : Text) : Grammar (List Text) BoolOp where
  term := term (unicodeSpacesOther filterString)
  word := BoolOp.word
  levels := [.or, .and]
  term_shorter := term_shorter
  term_eq_none := term_eq_none (List.mem_append_right _ (by decide))
  words_apart := by decide

def actions : Actions (List Text) BoolOp Query where
  operand := boolOperand env
  combine := env.combine

/-- What the parser is given, without the parenthesis that it opens. -/
def body (filterString : Text) : Text := expandTabs 1 (filterString ++ [')'])

/-- The query of a filter; its text has to match, and what follows is ignored. -/
def queryFromString (filterString : Text) : Except String Query :=
  let text := expandTabs 0 ('(' :: filterString ++ [')'])
  match read (grammar filterString) (actions env) text.length text with
  | .ok (query, _) => .ok query
  | .error .mismatch => .error ("Invalid query " ++ String.ofList filterString)
  | .error (.raised error) => .error error

/-! ## Filters that are consumed -/

/-- The filter is one expression, up to the parenthesis that the code puts behind it, and this
is the query that the expression comes to. -/
def Consumed (filterString : Text) (query : Query) : Prop :=
  ∃ tree after, Reads (grammar filterString) [.or, .and] (body filterString) tree after ∧
    literal [')'] after = some [] ∧ tree.eval (actions env) = .ok query

def EndsEarly (filterString : Text) (query : Query) (rest : Text) : Prop :=
  ∃ tree after, Reads (grammar filterString) [.or, .and] (body filterString) tree after ∧
    literal [')'] after = some rest ∧ rest ≠ [] ∧ tree.eval (actions env) = .ok query

/-- What follows goes on with operators to a term whose query raises. -/
def GoesOnToRaise (filterString : Text) (query : Query) (rest : Text) : Prop :=
  ∃ error, goesOn (grammar filterString) (actions env) (body filterString).length query rest =
    .error (.raised error)

variable {env} {filterString : Text} {query : Query}

theorem literal_open (text : Text) : literal ['('] ('(' :: text) = some text :=
  literal_eq_some.mpr rfl

theorem queryFromString_eq (filterString : Text) :
    queryFromString env filterString =
      match read (grammar filterString) (actions env) ((body filterString).length + 1)
          ('(' :: body filterString) with
      | .ok (query, _) => .ok query
      | .error .mismatch => .error ("Invalid query " ++ String.ofList filterString)
      | .error (.raised error) => .error error := (rfl)

theorem read_body {tree : Tree (List Text) BoolOp} {after rest : Text}
    (htree : Reads (grammar filterString) [.or, .and] (body filterString) tree after)
    (hclose : literal [')'] after = some rest) (heval : tree.eval (actions env) = .ok query) :
    read (grammar filterString) (actions env) ((body filterString).length + 1)
        ('(' :: body filterString) =
      goesOn (grammar filterString) (actions env) (body filterString).length query rest :=
  read_parenthesized (literal_open _) htree hclose heval (Nat.le_refl _)

theorem read_of_consumed (hconsumed : Consumed env filterString query) :
    read (grammar filterString) (actions env) ((body filterString).length + 1)
      ('(' :: body filterString) = .ok (query, []) := by
  obtain ⟨tree, after, htree, hclose, heval⟩ := hconsumed
  rw [read_body htree hclose heval]
  exact readBehind_nil fun op hop => word_ne_nil hop

theorem queryFromString_of_endsEarly {rest : Text} (hearly : EndsEarly env filterString query rest)
    (hraises : ¬ GoesOnToRaise env filterString query rest) :
    ∃ found, queryFromString env filterString = .ok found := by
  obtain ⟨tree, after, htree, hclose, -, heval⟩ := hearly
  rw [queryFromString_eq, read_body htree hclose heval]
  cases hgoes : goesOn (grammar filterString) (actions env) (body filterString).length query rest
    with
  | ok found => exact ⟨found.1, rfl⟩
  | error failure =>
    cases failure with
    | mismatch => exact absurd hgoes readBehind_ne_mismatch
    | raised error => exact absurd ⟨error, hgoes⟩ hraises

theorem not_consumed_of_endsEarly {rest : Text} {other : Query}
    (hearly : EndsEarly env filterString query rest) : ¬ Consumed env filterString other := by
  rintro ⟨tree', after', htree', hclose', -⟩
  obtain ⟨tree, after, htree, hclose, hrest, -⟩ := hearly
  exact hrest (close_unique (literal_open _) htree hclose htree' hclose')

/-- A filter is consumed or refused, unless it ends early and nothing behind that end raises. -/
theorem queryFromString_consumes_iff (env : Environment Query) (filterString : Text) :
    (∀ query, queryFromString env filterString = .ok query → Consumed env filterString query) ↔
      ∀ query rest, EndsEarly env filterString query rest →
        GoesOnToRaise env filterString query rest := by
  constructor
  · intro hconsumes query rest hearly
    by_contra hraises
    obtain ⟨found, hfound⟩ := queryFromString_of_endsEarly hearly hraises
    exact not_consumed_of_endsEarly hearly (hconsumes found hfound)
  · intro hraises query hquery
    rw [queryFromString_eq] at hquery
    split at hquery
    · rename_i found after hread
      obtain rfl := Except.ok.inj hquery
      obtain ⟨tree, first, closing, rest, htree, hclose, heval⟩ :=
        parenthesized_of_read (literal_open _) hread
      by_cases hrest : rest = []
      · subst hrest
        have hconsumed : Consumed env filterString first := ⟨tree, closing, htree, hclose, heval⟩
        obtain rfl : first = found := by
          have hsame := (read_of_consumed hconsumed).symm.trans hread
          exact (Prod.mk.inj (Except.ok.inj hsame)).1
        exact hconsumed
      · have hearly : EndsEarly env filterString first rest :=
          ⟨tree, closing, htree, hclose, hrest, heval⟩
        obtain ⟨error, hgoes⟩ := hraises first rest hearly
        rw [read_body htree hclose heval, hgoes] at hread
        exact absurd hread error_ne_ok
    · exact absurd hquery error_ne_ok
    · exact absurd hquery error_ne_ok

def hostNames : Environment String where
  float _ := .nan
  searchFields _ := .ok ["name".toList, "description".toList]
  getFieldFromLookup _ := .ok ()
  filter
    | key, .str value => .ok (String.ofList key ++ "=" ++ value)
    | key, _ => .ok (String.ofList key)
  filterAny lookups := .ok (String.ofList (lookups.flatMap Prod.fst))
  combine
    | .and, left, right => "(" ++ left ++ " & " ++ right ++ ")"
    | .or, left, right => "(" ++ left ++ " | " ++ right ++ ")"

theorem trailing_ignored : ¬ ∀ query, queryFromString hostNames "name=a) foo".toList = .ok query →
    Consumed hostNames "name=a) foo".toList query := by
  intro hconsumes
  have hquery : queryFromString hostNames "name=a) foo".toList = .ok "name=a" := by decide +kernel
  have hread : read (grammar "name=a) foo".toList) (actions hostNames)
      ((body "name=a) foo".toList).length + 1) ('(' :: body "name=a) foo".toList) =
        .ok ("name=a", " foo)".toList) := by decide +kernel
  have hend := hread.symm.trans (read_of_consumed (hconsumes "name=a" hquery))
  exact List.cons_ne_nil _ _ (Prod.mk.inj (Except.ok.inj hend)).2

example : queryFromString hostNames "a=b or c=d and (e=f or \"g h\"=\"i\")".toList =
    .ok "(a=b | (c=d & (e=f | g h=i)))" := by decide +kernel

end Forail.SmartFilter

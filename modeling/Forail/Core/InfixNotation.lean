import Forail.Core.FallibleLoops
import Forail.Core.Texts
import Mathlib.Logic.Relation
import Mathlib.Order.Nat

/-!
# Infix notation

Parsers for terms with binary operators on several levels and parentheses.  The operators of a
level associate to the left, and those of inner levels bind tighter.  An operator is looked for
after a look ahead in which no term is acted upon, an operand that does not match ends the
chain, and what follows the expression is left unread.
-/

namespace Forail.InfixNotation

open Forail.Texts Forail.FallibleLoops

variable {Term Op Result : Type}

/-- Why a parser stops: the text does not match, or acting on a term raised. -/
inductive Failure where
  | mismatch
  | raised (error : String)
  deriving DecidableEq

/-- A parser reads the beginning of a text and leaves the rest. -/
abbrev Parser (Result : Type) := Text → Except Failure (Result × Text)

/-! ## Combinators -/

def isBlank (char : Char) : Bool := char ∈ [' ', '\n', '\t', '\r']

def skipBlanks (text : Text) : Text := text.dropWhile isBlank

/-- What is left behind a word, which blanks can precede. -/
def literal (word text : Text) : Option Text :=
  if word <+: skipBlanks text then some ((skipBlanks text).drop word.length) else none

/-- The second parser, where the first one does not match. -/
def orElse (first second : Parser Result) : Parser Result := fun text =>
  match first text with
  | .error .mismatch => second text
  | other => other

def parenthesized (inner : Parser Result) : Parser Result := fun text =>
  match literal ['('] text with
  | none => .error .mismatch
  | some text => do
      let (result, after) ← inner text
      match literal [')'] after with
      | none => .error .mismatch
      | some rest => .ok (result, rest)

def further (word : Text) (operand : Parser Result) : Parser Result := fun text =>
  match literal word text with
  | none => .error .mismatch
  | some next => operand next

def more (combine : Result → Result → Result) (next : Parser Result) :
    ℕ → Result → Parser Result
  | 0, sofar, text => .ok (sofar, text)
  | fuel + 1, sofar, text =>
      match next text with
      | .ok (result, rest) => more combine next fuel (combine sofar result) rest
      | .error .mismatch => .ok (sofar, text)
      | .error (.raised error) => .error (.raised error)

/-- An operand with at least one more; each needs a character of the text. -/
def twoOrMore (combine : Result → Result → Result) (word : Text) (operand : Parser Result) :
    Parser Result := fun text => do
  let (first, rest) ← operand text
  let (second, after) ← further word operand rest
  more combine (further word operand) (rest.length - 1) (combine first second) after

/-- Behind the first operand another one is there to read. -/
def ahead (word : Text) (peek : Parser Unit) : Except Failure (Unit × Text) → Bool
  | .ok (_, rest) => (further word peek rest).isOk
  | .error _ => false

/-- A level: operands with an operator between them, or a single operand. -/
def chain (combine : Result → Result → Result) (word : Text) (peek : Parser Unit)
    (operand : Parser Result) : Parser Result := fun text =>
  if ahead word peek (peek text) then orElse (twoOrMore combine word operand) operand text
  else operand text

/-! ## Grammars -/

def Apart (left right : Text) : Prop := ¬ left <+: right ∧ ¬ right <+: left

instance (left right : Text) : Decidable (Apart left right) :=
  inferInstanceAs (Decidable (¬ left <+: right ∧ ¬ right <+: left))

/-- The terms of a notation and its operators, the loosest first. -/
structure Grammar (Term Op : Type) where
  term : Text → Option (Term × Text)
  word : Op → Text
  levels : List Op
  term_shorter : ∀ {text found rest}, term text = some (found, rest) → rest.length < text.length
  term_eq_none : ∀ {text inner}, literal ['('] text = some inner → term text = none
  words_apart : ([')'] :: levels.map word).Pairwise Apart

/-- What is done with the terms and the operators. -/
structure Actions (Term Op Result : Type) where
  operand : Term → Except Failure Result
  combine : Op → Result → Result → Result

def silent : Actions Term Op Unit where
  operand _ := .ok ()
  combine _ _ _ := ()

variable (grammar : Grammar Term Op) (actions : Actions Term Op Result)

def readTerm : Parser Result := fun text =>
  match grammar.term text with
  | none => .error .mismatch
  | some (found, rest) => do return (← actions.operand found, rest)

def readOperand (inner : Parser Result) : Parser Result :=
  orElse (readTerm grammar actions) (parenthesized inner)

def scanLevels (operand : Parser Unit) : List Op → Parser Unit
  | [] => operand
  | op :: ops =>
      chain (fun _ _ => ()) (grammar.word op) (scanLevels operand ops) (scanLevels operand ops)

def readLevels (peek : Parser Unit) (operand : Parser Result) : List Op → Parser Result
  | [] => operand
  | op :: ops =>
      chain (actions.combine op) (grammar.word op) (scanLevels grammar peek ops)
        (readLevels peek operand ops)

/-- Reads an expression with parentheses to a given depth, without acting. -/
def scan : ℕ → Parser Unit
  | 0 => fun _ => .error .mismatch
  | depth + 1 => scanLevels grammar (readOperand grammar silent (scan depth)) grammar.levels

/-- Reads an expression with parentheses to a given depth. -/
def read : ℕ → Parser Result
  | 0 => fun _ => .error .mismatch
  | depth + 1 =>
      readLevels grammar actions (readOperand grammar silent (scan grammar depth))
        (readOperand grammar actions (read depth)) grammar.levels

/-! ## Expressions -/

/-- An expression; the operators associate to the left. -/
inductive Tree (Term Op : Type) where
  | leaf (term : Term)
  | node (op : Op) (left right : Tree Term Op)

def Tree.eval : Tree Term Op → Except Failure Result
  | .leaf term => actions.operand term
  | .node op left right => do return actions.combine op (← left.eval) (← right.eval)

/-- A text begins with an expression of some levels of operators and leaves the rest.  With no
level it is a term or stands in parentheses. -/
inductive Reads : List Op → Text → Tree Term Op → Text → Prop
  | leaf {text found rest} : grammar.term text = some (found, rest) →
      Reads [] text (.leaf found) rest
  | parenthesized {text inner tree after rest} : literal ['('] text = some inner →
      Reads grammar.levels inner tree after → literal [')'] after = some rest →
      Reads [] text tree rest
  | single {op ops text tree rest} : Reads ops text tree rest → Reads (op :: ops) text tree rest
  | chained {op ops text left mid next right rest} : Reads (op :: ops) text left mid →
      literal (grammar.word op) mid = some next → Reads ops next right rest →
      Reads (op :: ops) text (.node op left right) rest

variable {grammar} {actions} {word text rest next mid after : Text} {result sofar : Result}
  {op : Op} {ops : List Op} {tree left right : Tree Term Op} {depth fuel : ℕ}
  {operand inner : Parser Result} {peek : Parser Unit} {combine : Result → Result → Result}

theorem skipBlanks_length (text : Text) : (skipBlanks text).length ≤ text.length :=
  (List.dropWhile_suffix _).length_le

theorem literal_eq_some :
    literal word text = some rest ↔ skipBlanks text = word ++ rest := by
  rw [literal]
  constructor
  · intro hliteral
    split at hliteral
    · rename_i hword
      obtain ⟨after, hafter⟩ := hword
      rw [← hafter, List.drop_left, Option.some.injEq] at hliteral
      rw [← hafter, hliteral]
    · contradiction
  · intro hword
    rw [if_pos ⟨rest, hword.symm⟩, hword, List.drop_left]

theorem literal_length (hliteral : literal word text = some rest) :
    rest.length + word.length ≤ text.length := by
  have hlength := congrArg List.length (literal_eq_some.mp hliteral)
  rw [List.length_append] at hlength
  have hskip := skipBlanks_length text
  omega

theorem literal_eq_none {other : Text} (hliteral : literal word text = some rest)
    (hapart : Apart word other) : literal other text = none := by
  rw [Option.eq_none_iff_forall_ne_some]
  intro found hfound
  have hword : word <+: skipBlanks text := ⟨rest, (literal_eq_some.mp hliteral).symm⟩
  have hother : other <+: skipBlanks text := ⟨found, (literal_eq_some.mp hfound).symm⟩
  rcases List.prefix_or_prefix_of_prefix hword hother with hprefix | hprefix
  · exact hapart.1 hprefix
  · exact hapart.2 hprefix

theorem Reads.shorter (hreads : Reads grammar ops text tree rest) :
    rest.length < text.length := by
  induction hreads with
  | leaf hterm => exact grammar.term_shorter hterm
  | parenthesized hopen _ hclose ih =>
    have hopen := literal_length hopen
    have hclose := literal_length hclose
    simp only [List.length_singleton] at hopen hclose
    omega
  | single _ ih => exact ih
  | chained _ hword _ ihleft ihright =>
    have hword := literal_length hword
    omega

/-! ## Soundness -/

variable (grammar actions) in
/-- What the parser reads is an expression, and the result is what that comes to. -/
def Sound (ops : List Op) (parser : Parser Result) : Prop :=
  ∀ text result rest, parser text = .ok (result, rest) →
    ∃ tree, Reads grammar ops text tree rest ∧ tree.eval actions = .ok result

theorem orElse_eq_ok {first second : Parser Result}
    (hread : orElse first second text = .ok (result, rest)) :
    first text = .ok (result, rest) ∨ second text = .ok (result, rest) := by
  rw [orElse] at hread
  split at hread
  · exact .inr hread
  · exact .inl hread

theorem further_eq_ok (hread : further word operand text = .ok (result, rest)) :
    ∃ next, literal word text = some next ∧ operand next = .ok (result, rest) := by
  rw [further] at hread
  split at hread
  · exact absurd hread error_ne_ok
  · rename_i next hword
    exact ⟨next, hword, hread⟩

theorem parenthesized_eq_ok (hread : parenthesized inner text = .ok (result, rest)) :
    ∃ next after, literal ['('] text = some next ∧ inner next = .ok (result, after) ∧
      literal [')'] after = some rest := by
  rw [parenthesized] at hread
  split at hread
  · exact absurd hread error_ne_ok
  · rename_i next hopen
    obtain ⟨⟨found, after⟩, hinner, hrest⟩ := bind_eq_ok hread
    dsimp only at hrest
    split at hrest
    · exact absurd hrest error_ne_ok
    · rename_i hclose
      obtain ⟨rfl, rfl⟩ := Prod.mk.inj (Except.ok.inj hrest)
      exact ⟨next, after, hopen, hinner, hclose⟩

theorem readOperand_sound (hinner : Sound grammar actions grammar.levels inner) :
    Sound grammar actions [] (readOperand grammar actions inner) := by
  intro text result rest hread
  rcases orElse_eq_ok hread with hread | hread
  · rw [readTerm] at hread
    split at hread
    · exact absurd hread error_ne_ok
    · rename_i found after hterm
      obtain ⟨value, hvalue, hrest⟩ := bind_eq_ok hread
      obtain ⟨rfl, rfl⟩ := Prod.mk.inj (Except.ok.inj hrest)
      exact ⟨.leaf found, .leaf hterm, hvalue⟩
  · obtain ⟨next, after, hopen, hread, hclose⟩ := parenthesized_eq_ok hread
    obtain ⟨tree, htree, heval⟩ := hinner next result after hread
    exact ⟨tree, .parenthesized hopen htree hclose, heval⟩

theorem eval_node {first second : Result} (hleft : left.eval actions = .ok first)
    (hright : right.eval actions = .ok second) :
    (Tree.node op left right).eval actions = .ok (actions.combine op first second) := by
  rw [Tree.eval, hleft, hright]
  rfl

theorem further_sound {first second : Result} (hoperand : Sound grammar actions ops operand)
    (hleft : Reads grammar (op :: ops) text left mid) (hfirst : left.eval actions = .ok first)
    (hread : further (grammar.word op) operand mid = .ok (second, rest)) :
    ∃ tree, Reads grammar (op :: ops) text tree rest ∧
      tree.eval actions = .ok (actions.combine op first second) := by
  obtain ⟨next, hword, hread⟩ := further_eq_ok hread
  obtain ⟨right, hright, hsecond⟩ := hoperand next second rest hread
  exact ⟨.node op left right, .chained hleft hword hright, eval_node hfirst hsecond⟩

theorem more_sound {first : Result} (hoperand : Sound grammar actions ops operand)
    (hleft : Reads grammar (op :: ops) text left mid) (hfirst : left.eval actions = .ok first)
    (hread : more (actions.combine op) (further (grammar.word op) operand) fuel first mid =
      .ok (result, rest)) :
    ∃ tree, Reads grammar (op :: ops) text tree rest ∧ tree.eval actions = .ok result := by
  induction fuel generalizing left mid first with
  | zero =>
    obtain ⟨rfl, rfl⟩ := Prod.mk.inj (Except.ok.inj hread)
    exact ⟨left, hleft, hfirst⟩
  | succ fuel ih =>
    rw [more] at hread
    split at hread
    · rename_i second after hsecond
      obtain ⟨tree, htree, heval⟩ := further_sound hoperand hleft hfirst hsecond
      exact ih htree heval hread
    · obtain ⟨rfl, rfl⟩ := Prod.mk.inj (Except.ok.inj hread)
      exact ⟨left, hleft, hfirst⟩
    · exact absurd hread error_ne_ok

theorem chain_sound (hoperand : Sound grammar actions ops operand) :
    Sound grammar actions (op :: ops)
      (chain (actions.combine op) (grammar.word op) peek operand) := by
  intro text result rest hread
  have hsingle : operand text = .ok (result, rest) →
      ∃ tree, Reads grammar (op :: ops) text tree rest ∧ tree.eval actions = .ok result := by
    intro hread
    obtain ⟨tree, htree, heval⟩ := hoperand text result rest hread
    exact ⟨tree, .single htree, heval⟩
  rw [chain] at hread
  split at hread
  · rcases orElse_eq_ok hread with hread | hread
    · obtain ⟨⟨first, mid⟩, hfirst, hread⟩ := bind_eq_ok hread
      obtain ⟨⟨second, after⟩, hsecond, hread⟩ := bind_eq_ok hread
      obtain ⟨left, hleft, heval⟩ := hoperand text first mid hfirst
      obtain ⟨tree, htree, heval⟩ := further_sound hoperand (.single hleft) heval hsecond
      exact more_sound hoperand htree heval hread
    · exact hsingle hread
  · exact hsingle hread

theorem readLevels_sound (hoperand : Sound grammar actions [] operand) (ops : List Op) :
    Sound grammar actions ops (readLevels grammar actions peek operand ops) := by
  induction ops with
  | nil => exact hoperand
  | cons op ops ih => exact chain_sound ih

variable (grammar actions) in
theorem read_sound (depth : ℕ) :
    Sound grammar actions grammar.levels (read grammar actions depth) := by
  induction depth with
  | zero => exact fun _ _ _ hread => absurd hread error_ne_ok
  | succ depth ih => exact readLevels_sound (readOperand_sound ih) grammar.levels

/-! ## Completeness -/

variable (grammar) in
def Ends (ops : List Op) (rest : Text) : Prop :=
  ∀ op ∈ ops, literal (grammar.word op) rest = none

variable (grammar actions) in
/-- Expressions of a length are read to their end. -/
def Complete (ops : List Op) (length : ℕ) (parser : Parser Result) : Prop :=
  ∀ text tree rest result, Reads grammar ops text tree rest → tree.eval actions = .ok result →
    Ends grammar ops rest → text.length ≤ length → parser text = .ok (result, rest)

variable (grammar) in
def Step (op : Op) (ops : List Op) (start next : Tree Term Op × Text) : Prop :=
  ∃ after right, literal (grammar.word op) start.2 = some after ∧
    Reads grammar ops after right next.2 ∧ next.1 = .node op start.1 right

theorem Reads.steps (hreads : Reads grammar (op :: ops) text tree rest) :
    ∃ first mid, Reads grammar ops text first mid ∧
      Relation.ReflTransGen (Step grammar op ops) (first, mid) (tree, rest) := by
  generalize hlevels : op :: ops = levels at hreads
  induction hreads with
  | leaf _ => cases hlevels
  | parenthesized _ _ _ _ => cases hlevels
  | single hreads _ =>
    obtain ⟨rfl, rfl⟩ := List.cons.inj hlevels
    exact ⟨_, _, hreads, .refl⟩
  | chained _ hword hright ihleft _ =>
    obtain ⟨first, mid, hfirst, hsteps⟩ := ihleft hlevels
    obtain ⟨rfl, rfl⟩ := List.cons.inj hlevels
    exact ⟨first, mid, hfirst, hsteps.tail ⟨_, _, hword, hright, rfl⟩⟩

theorem ends_of_steps {start : Tree Term Op × Text}
    (hapart : ∀ other ∈ ops, Apart (grammar.word op) (grammar.word other))
    (hsteps : Relation.ReflTransGen (Step grammar op ops) start (tree, rest))
    (hends : Ends grammar (op :: ops) rest) : Ends grammar ops start.2 := by
  rcases hsteps.cases_head with rfl | ⟨next, ⟨after, right, hword, -, -⟩, -⟩
  · exact fun other hother => hends other (List.mem_cons_of_mem _ hother)
  · exact fun other hother => literal_eq_none hword (hapart other hother)

theorem eval_node_eq_ok (heval : (Tree.node op left right).eval actions = .ok result) :
    ∃ first second, left.eval actions = .ok first ∧ right.eval actions = .ok second ∧
      result = actions.combine op first second := by
  rw [Tree.eval] at heval
  obtain ⟨first, hfirst, heval⟩ := bind_eq_ok heval
  obtain ⟨second, hsecond, heval⟩ := bind_eq_ok heval
  exact ⟨first, second, hfirst, hsecond, (Except.ok.inj heval).symm⟩

theorem eval_silent (tree : Tree Term Op) : tree.eval silent = .ok () := by
  induction tree with
  | leaf term => rfl
  | node op left right ihleft ihright => rw [Tree.eval, ihleft, ihright]; rfl

theorem further_of_literal (hword : literal word text = some next) :
    further word operand text = operand next := by
  rw [further, hword]

theorem further_of_ends (hends : Ends grammar (op :: ops) rest) :
    further (grammar.word op) operand rest = .error .mismatch := by
  rw [further, hends op List.mem_cons_self]

theorem more_of_mismatch {next : Parser Result} (hnext : next rest = .error .mismatch) :
    more combine next fuel sofar rest = .ok (sofar, rest) := by
  cases fuel with
  | zero => rfl
  | succ fuel => rw [more, hnext]

section Levels

variable {length : ℕ} (hapart : ∀ other ∈ ops, Apart (grammar.word op) (grammar.word other))
  (hoperand : Complete grammar actions ops length operand)
include hapart hoperand

theorem more_complete {start : Tree Term Op × Text}
    (hsteps : Relation.ReflTransGen (Step grammar op ops) start (tree, rest))
    (heval : tree.eval actions = .ok result) (hends : Ends grammar (op :: ops) rest)
    (hlength : start.2.length ≤ length) :
    ∃ first, start.1.eval actions = .ok first ∧ ∀ fuel, start.2.length ≤ fuel →
      more (actions.combine op) (further (grammar.word op) operand) fuel first start.2 =
        .ok (result, rest) := by
  induction hsteps using Relation.ReflTransGen.head_induction_on with
  | refl => exact ⟨result, heval, fun fuel _ => more_of_mismatch (further_of_ends hends)⟩
  | @head start next hstep hsteps ih =>
    obtain ⟨after, right, hword, hright, hnode⟩ := hstep
    have hshort := literal_length hword
    have hshorter := hright.shorter
    obtain ⟨both, hboth, hmore⟩ := ih (by omega)
    rw [hnode] at hboth
    obtain ⟨first, second, hfirst, hsecond, rfl⟩ := eval_node_eq_ok hboth
    refine ⟨first, hfirst, fun fuel hfuel => ?_⟩
    have hread : operand after = .ok (second, next.2) :=
      hoperand after right next.2 second hright hsecond (ends_of_steps hapart hsteps hends)
        (by omega)
    obtain ⟨fuel, rfl⟩ : ∃ less, fuel = less + 1 := ⟨fuel - 1, by omega⟩
    rw [more, further_of_literal hword, hread]
    exact hmore fuel (by omega)

theorem chain_complete (hpeek : Complete grammar silent ops length peek) :
    Complete grammar actions (op :: ops) length
      (chain (actions.combine op) (grammar.word op) peek operand) := by
  intro text tree rest result hreads heval hends hlength
  obtain ⟨leaf, mid, hleaf, hsteps⟩ := hreads.steps
  have hmid : mid.length ≤ length := hleaf.shorter.le.trans hlength
  obtain ⟨first, hfirst, -⟩ := more_complete hapart hoperand hsteps heval hends hmid
  have hendsMid : Ends grammar ops mid := ends_of_steps hapart hsteps hends
  have hread : operand text = .ok (first, mid) :=
    hoperand text leaf mid first hleaf hfirst hendsMid hlength
  have hpeeked : peek text = .ok ((), mid) :=
    hpeek text leaf mid () hleaf (eval_silent leaf) hendsMid hlength
  rcases hsteps.cases_head with hsame |
    ⟨⟨tree', after⟩, ⟨next, right, hword, hright, hnode⟩, hsteps⟩
  · -- a single operand
    obtain ⟨rfl, rfl⟩ := Prod.mk.inj hsame
    have hahead : ahead (grammar.word op) peek (peek text) = false := by
      rw [hpeeked, ahead]
      exact congrArg Except.isOk (further_of_ends hends)
    obtain rfl : first = result := Except.ok.inj (hfirst.symm.trans heval)
    rw [chain, hahead, if_neg Bool.false_ne_true, hread]
  · have hnext : next.length ≤ mid.length := (Nat.le_add_right _ _).trans (literal_length hword)
    have hafter : after.length < next.length := hright.shorter
    have hendsAfter : Ends grammar ops after := ends_of_steps hapart hsteps hends
    have hahead : ahead (grammar.word op) peek (peek text) = true := by
      have hpeekNext : peek next = .ok ((), after) :=
        hpeek next right after () hright (eval_silent right) hendsAfter (hnext.trans hmid)
      rw [hpeeked, ahead, further_of_literal hword, hpeekNext]
      rfl
    obtain ⟨both, hboth, hmore⟩ := more_complete hapart hoperand hsteps heval hends
      (hafter.le.trans (hnext.trans hmid))
    obtain rfl : tree' = .node op leaf right := hnode
    obtain ⟨first', second, hfirst', hsecond, rfl⟩ := eval_node_eq_ok hboth
    obtain rfl : first = first' := Except.ok.inj (hfirst.symm.trans hfirst')
    have hreadNext : operand next = .ok (second, after) :=
      hoperand next right after second hright hsecond hendsAfter (hnext.trans hmid)
    have htwo : twoOrMore (actions.combine op) (grammar.word op) operand text =
        .ok (result, rest) := by
      rw [twoOrMore, hread]
      simp only [bind, Except.bind]
      rw [further_of_literal hword, hreadNext]
      exact hmore (mid.length - 1) (by dsimp only; omega)
    rw [chain, hahead, if_pos rfl, orElse, htwo]

end Levels

theorem scanLevels_eq (ops : List Op) :
    scanLevels grammar peek ops = readLevels grammar silent peek peek ops := by
  induction ops with
  | nil => rfl
  | cons op ops ih =>
    rw [scanLevels, readLevels, ih]

theorem readLevels_complete {length : ℕ} (hpeek : Complete grammar silent [] length peek)
    (hoperand : Complete grammar actions [] length operand)
    (hapart : (ops.map grammar.word).Pairwise Apart) :
    Complete grammar actions ops length (readLevels grammar actions peek operand ops) := by
  induction ops generalizing Result with
  | nil => exact hoperand
  | cons op ops ih =>
    rw [List.map_cons, List.pairwise_cons] at hapart
    have hothers : ∀ other ∈ ops, Apart (grammar.word op) (grammar.word other) :=
      fun other hother => hapart.1 _ (List.mem_map_of_mem hother)
    have hscan : Complete grammar silent ops length (scanLevels grammar peek ops) := by
      rw [scanLevels_eq]
      exact ih hpeek hapart.2
    exact chain_complete hothers (ih hoperand hapart.2) hscan

theorem ends_of_close (hclose : literal [')'] after = some rest) :
    Ends grammar grammar.levels after := by
  intro op hop
  have hapart := (List.pairwise_cons.mp grammar.words_apart).1 _ (List.mem_map_of_mem hop)
  exact literal_eq_none hclose hapart

theorem readOperand_complete {length : ℕ}
    (hinner : Complete grammar actions grammar.levels length inner) :
    Complete grammar actions [] (length + 1) (readOperand grammar actions inner) := by
  intro text tree rest result hreads heval _ hlength
  cases hreads with
  | leaf hterm =>
    have hread : readTerm grammar actions text = .ok (result, rest) := by
      rw [Tree.eval] at heval
      rw [readTerm, hterm]
      simp only [heval]
      rfl
    rw [readOperand, orElse, hread]
  | @parenthesized text next tree after rest hopen hnext hclose =>
    have hread : readTerm grammar actions text = .error .mismatch := by
      rw [readTerm, grammar.term_eq_none hopen]
    have hshort := literal_length hopen
    rw [List.length_singleton] at hshort
    have hinside : inner next = .ok (result, after) :=
      hinner next tree after result hnext heval (ends_of_close hclose) (by omega)
    rw [readOperand, orElse, hread]
    simp only [parenthesized, hopen, hinside, bind, Except.bind, hclose]

theorem scan_eq (depth : ℕ) : scan grammar depth = read grammar silent depth := by
  induction depth with
  | zero => rfl
  | succ depth ih => rw [scan, read, scanLevels_eq, ih]

theorem read_zero : Complete grammar actions grammar.levels 0 (read grammar actions 0) := by
  intro text tree rest result hreads _ _ hlength
  have hshorter := hreads.shorter
  omega

variable (grammar actions) in
theorem read_complete (depth : ℕ) :
    Complete grammar actions grammar.levels depth (read grammar actions depth) := by
  induction depth generalizing Result with
  | zero => exact read_zero
  | succ depth ih =>
    have hapart := (List.pairwise_cons.mp grammar.words_apart).2
    rw [read, scan_eq]
    exact readLevels_complete (readOperand_complete (ih silent)) (readOperand_complete (ih actions))
      hapart

/-! ## Going on behind an operand -/

/-- How a level goes on behind its first operand. -/
def goOn (combine : Result → Result → Result) (word : Text) (operand : Parser Result)
    (ahead : Bool) (sofar : Result) : Parser Result := fun rest =>
  if ahead then more combine (further word operand) rest.length sofar rest else .ok (sofar, rest)

section Resuming

variable (grammar actions) (peek : Parser Unit) (operand : Parser Result)

/-- Where a look ahead comes to behind an operand. -/
def scanBehind : List Op → Text → Except Failure (Unit × Text)
  | [], rest => .ok ((), rest)
  | op :: ops, rest => do
      let (_, mid) ← scanBehind ops rest
      goOn (fun _ _ => ()) (grammar.word op) (scanLevels grammar peek ops)
        (ahead (grammar.word op) (scanLevels grammar peek ops) (.ok ((), mid))) () mid

/-- How reading goes on behind an operand, with the result so far. -/
def readBehind : List Op → Result → Text → Except Failure (Result × Text)
  | [], sofar, rest => .ok (sofar, rest)
  | op :: ops, sofar, rest => do
      let (sofar, mid) ← readBehind ops sofar rest
      goOn (actions.combine op) (grammar.word op) (readLevels grammar actions peek operand ops)
        (ahead (grammar.word op) (scanLevels grammar peek ops) (scanBehind grammar peek ops rest))
        sofar mid

end Resuming

theorem more_ne_mismatch {next : Parser Result} :
    more combine next fuel sofar text ≠ .error .mismatch := by
  induction fuel generalizing sofar text with
  | zero => exact error_ne_ok.symm
  | succ fuel ih =>
    rw [more]
    split
    · exact ih
    · exact error_ne_ok.symm
    · exact fun hsame => nomatch hsame

variable (combine word) in
theorem twoOrMore_of_ok (hread : operand text = .ok (sofar, rest)) :
    twoOrMore combine word operand text =
      (further word operand rest).bind fun (second, after) =>
        more combine (further word operand) (rest.length - 1) (combine sofar second) after := by
  rw [twoOrMore, hread]
  rfl

theorem length_of_further (hword : word ≠ [])
    (hmatches : further word operand rest ≠ .error .mismatch) : ∃ fuel, rest.length = fuel + 1 := by
  cases hliteral : literal word rest with
  | none => exact absurd (by rw [further, hliteral]) hmatches
  | some next =>
    have hlength := literal_length hliteral
    have hpositive := List.length_pos_iff.mpr hword
    exact ⟨rest.length - 1, by omega⟩

theorem chain_of_ok (hword : word ≠ []) (hread : operand text = .ok (sofar, rest)) :
    chain combine word peek operand text =
      goOn combine word operand (ahead word peek (peek text)) sofar rest := by
  rw [chain, goOn]
  split
  · rw [orElse, twoOrMore_of_ok word combine hread]
    cases hnext : further word operand rest with
    | error failure =>
      cases failure with
      | mismatch => exact hread.trans (more_of_mismatch hnext).symm
      | raised error =>
        have hmatches : further word operand rest ≠ .error .mismatch := by
          rw [hnext]
          exact fun hsame => nomatch hsame
        obtain ⟨fuel, hfuel⟩ := length_of_further hword hmatches
        rw [hfuel, more, hnext]
        rfl
    | ok found =>
      have hmatches : further word operand rest ≠ .error .mismatch := by
        rw [hnext]
        exact error_ne_ok.symm
      obtain ⟨fuel, hfuel⟩ := length_of_further hword hmatches
      rw [hfuel, more, hnext, Nat.add_sub_cancel]
      simp only [Except.bind]
      split
      · rename_i hmore
        exact absurd hmore more_ne_mismatch
      · rfl
  · exact hread

theorem chain_of_error {failure : Failure} (hread : operand text = .error failure) :
    chain combine word peek operand text = .error failure := by
  rw [chain]
  split
  · have htwo : twoOrMore combine word operand text = .error failure := by
      rw [twoOrMore, hread]
      rfl
    rw [orElse, htwo]
    cases failure with
    | mismatch => exact hread
    | raised error => rfl
  · exact hread

theorem word_ne_nil (hop : op ∈ grammar.levels) : grammar.word op ≠ [] := by
  intro hnil
  have hapart := (List.pairwise_cons.mp grammar.words_apart).1 _ (List.mem_map_of_mem hop)
  rw [hnil] at hapart
  exact hapart.2 List.nil_prefix

theorem scanBehind_eq (hpeek : peek text = .ok ((), rest))
    (hops : ∀ op ∈ ops, grammar.word op ≠ []) :
    scanLevels grammar peek ops text = scanBehind grammar peek ops rest := by
  induction ops with
  | nil => exact hpeek
  | cons op ops ih =>
    obtain ⟨hword, hops⟩ := List.forall_mem_cons.mp hops
    have ih := ih hops
    rw [scanLevels, scanBehind]
    cases hscan : scanLevels grammar peek ops text with
    | error failure =>
      rw [chain_of_error hscan, ← ih, hscan]
      rfl
    | ok found =>
      rw [chain_of_ok hword hscan, ← ih, hscan]
      rfl

theorem readBehind_eq (hpeek : peek text = .ok ((), rest))
    (hread : operand text = .ok (sofar, rest)) (hops : ∀ op ∈ ops, grammar.word op ≠ []) :
    readLevels grammar actions peek operand ops text =
      readBehind grammar actions peek operand ops sofar rest := by
  induction ops with
  | nil => exact hread
  | cons op ops ih =>
    obtain ⟨hword, hops⟩ := List.forall_mem_cons.mp hops
    have ih := ih hops
    have hscan := scanBehind_eq hpeek hops
    rw [readLevels, readBehind]
    cases hlevel : readLevels grammar actions peek operand ops text with
    | error failure =>
      rw [chain_of_error hlevel, ← ih, hlevel]
      rfl
    | ok found =>
      rw [chain_of_ok hword hlevel, ← ih, hlevel, hscan]
      rfl

theorem readLevels_of_error {failure : Failure} (hread : operand text = .error failure)
    (ops : List Op) : readLevels grammar actions peek operand ops text = .error failure := by
  induction ops with
  | nil => exact hread
  | cons op ops ih => exact chain_of_error ih

theorem goOn_ne_mismatch {ahead : Bool} :
    goOn combine word operand ahead sofar rest ≠ .error .mismatch := by
  rw [goOn]
  split
  · exact more_ne_mismatch
  · exact error_ne_ok.symm

theorem readBehind_ne_mismatch :
    readBehind grammar actions peek operand ops sofar rest ≠ .error .mismatch := by
  induction ops with
  | nil => exact error_ne_ok.symm
  | cons op ops ih =>
    rw [readBehind]
    cases hlevel : readBehind grammar actions peek operand ops sofar rest with
    | error failure => exact fun hsame => ih (hlevel.trans hsame)
    | ok found => exact goOn_ne_mismatch

theorem readBehind_nil (hops : ∀ op ∈ ops, grammar.word op ≠ []) :
    readBehind grammar actions peek operand ops sofar [] = .ok (sofar, []) := by
  induction ops with
  | nil => rfl
  | cons op ops ih =>
    rw [readBehind, ih (List.forall_mem_cons.mp hops).2]
    show goOn _ _ _ _ sofar [] = _
    rw [goOn]
    split
    · rfl
    · rfl

section Parentheses

variable (grammar actions) (depth : ℕ)

/-- How reading goes on behind an expression in parentheses. -/
def goesOn (result : Result) (rest : Text) : Except Failure (Result × Text) :=
  readBehind grammar actions (readOperand grammar silent (scan grammar depth))
    (readOperand grammar actions (read grammar actions depth)) grammar.levels result rest

variable {grammar actions depth}

/-- A text that begins with an expression in parentheses is read through these, and then goes
on. -/
theorem read_parenthesized (hopen : literal ['('] text = some next)
    (htree : Reads grammar grammar.levels next tree after)
    (hclose : literal [')'] after = some rest)
    (heval : tree.eval actions = .ok result) (hdepth : text.length ≤ depth + 1) :
    read grammar actions (depth + 1) text = goesOn grammar actions depth result rest := by
  have hreads : Reads grammar [] text tree rest := .parenthesized hopen htree hclose
  have hnone : Ends grammar [] rest := fun _ hop => absurd hop List.not_mem_nil
  rw [read, goesOn]
  apply readBehind_eq
  · rw [scan_eq]
    exact readOperand_complete (read_complete grammar silent depth) text tree rest () hreads
      (eval_silent tree) hnone hdepth
  · exact readOperand_complete (read_complete grammar actions depth) text tree rest result hreads
      heval hnone hdepth
  · exact fun op hop => word_ne_nil hop

theorem close_unique {tree' : Tree Term Op} {after' rest' : Text}
    (hopen : literal ['('] text = some next)
    (htree : Reads grammar grammar.levels next tree after)
    (hclose : literal [')'] after = some rest)
    (htree' : Reads grammar grammar.levels next tree' after')
    (hclose' : literal [')'] after' = some rest') : rest = rest' := by
  have hread := fun tree rest (hreads : Reads grammar [] text tree rest) =>
    readOperand_complete (read_complete grammar silent text.length) text tree rest () hreads
      (eval_silent tree) (fun _ hop => absurd hop List.not_mem_nil) (Nat.le_succ _)
  have hrest := hread tree rest (.parenthesized hopen htree hclose)
  have hrest' := hread tree' rest' (.parenthesized hopen htree' hclose')
  exact (Prod.mk.inj (Except.ok.inj (hrest.symm.trans hrest'))).2

theorem parenthesized_of_read {after : Text} (hopen : literal ['('] text = some next)
    (hread : read grammar actions (depth + 1) text = .ok (result, after)) :
    ∃ tree first closing rest, Reads grammar grammar.levels next tree closing ∧
      literal [')'] closing = some rest ∧ tree.eval actions = .ok first := by
  cases hoperand : readOperand grammar actions (read grammar actions depth) text with
  | error failure =>
    rw [read, readLevels_of_error hoperand] at hread
    exact absurd hread error_ne_ok
  | ok found =>
    obtain ⟨tree, htree, heval⟩ :=
      readOperand_sound (read_sound grammar actions depth) text found.1 found.2 hoperand
    cases htree with
    | leaf hterm =>
      rw [grammar.term_eq_none hopen] at hterm
      contradiction
    | parenthesized hopen' htree hclose =>
      obtain rfl := Option.some.inj (hopen.symm.trans hopen')
      exact ⟨tree, found.1, _, _, htree, hclose, heval⟩

end Parentheses

end Forail.InfixNotation

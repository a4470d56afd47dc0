import Mathlib.Logic.Function.Basic

/-!
# Copies of a stored row

Clients load a row, decide on their copy and then store fields of it.  The row
may change between the two steps, so a decision is only as good as the copy is
current.
-/

namespace Forail.Copies

variable {Client Row : Type*}

structure Stored (Client Row : Type*) where
  row : Row
  copies : Client → Option Row

namespace Stored

def fresh (row : Row) : Stored Client Row where
  row := row
  copies := fun _ => none

variable [DecidableEq Client]

def load (state : Stored Client Row) (client : Client) : Stored Client Row :=
  { state with copies := Function.update state.copies client (some state.row) }

/-- The client stores a row and goes on with `copy`. -/
def store (state : Stored Client Row) (client : Client) (row : Row) (copy : Option Row) :
    Stored Client Row where
  row := row
  copies := Function.update state.copies client copy

omit [DecidableEq Client] in
/-- The row has not settled since the client loaded it. -/
def Current (settled : Row → Prop) (state : Stored Client Row) (client : Client) : Prop :=
  ∀ copy, state.copies client = some copy → settled state.row → settled copy

omit [DecidableEq Client] in
/-- A client that acts on a current copy that has not settled acts on a row that
has not settled. -/
theorem Current.not_settled {settled : Row → Prop} {state : Stored Client Row} {client : Client}
    {copy : Row} (hcurrent : state.Current settled client)
    (hcopy : state.copies client = some copy) (hunsettled : ¬ settled copy) :
    ¬ settled state.row := fun hsettled =>
  hunsettled (hcurrent copy hcopy hsettled)

theorem current_load (settled : Row → Prop) (state : Stored Client Row) (client : Client) :
    (state.load client).Current settled client := by
  intro copy hcopy hsettled
  simp only [load, Function.update_self] at hcopy
  exact Option.some.inj hcopy ▸ hsettled

end Stored

end Forail.Copies

import Lifecycle.Store.Row

/-!
The table of tokens: what waits to be resumed, and what of it is due.
-/

namespace Lifecycle.Store

/-- The tokens, in the order in which they were written. -/
abbrev Tokens := List TokenRow

namespace Tokens

/-- Due earlier, or as early and written earlier. -/
def dueBefore : TokenRow → TokenRow → Bool := Cell.leBy (·.resumeAt) (·.createdAt.le ·.createdAt)

/-- The first `limit` tokens that are due at `now`, the earliest first. -/
def due (ts : Tokens) (now : Int) (limit : Nat) : List TokenRow :=
  ((ts.filter (·.resumeAt.le (.int now))).mergeSort dueBefore).take limit

/-- The table without the token `id`, and whether it was there. -/
def claim (ts : Tokens) (id : String) : Bool × Tokens := (ts.any (·.id == some id), ts.filter (·.id != some id))

/-- The tokens of one execution, the earliest first. -/
def ofExecution (ts : Tokens) (executionId : String) : List TokenRow :=
  (ts.filter (·.executionId == executionId)).mergeSort fun a b => a.resumeAt.le b.resumeAt

end Tokens

end Lifecycle.Store

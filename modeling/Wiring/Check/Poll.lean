import Wiring.Error

/-!
# Cancellation during a check

A check looks at its token before each item that it handles, so a cancelled check fails unless there
is nothing to do.
-/

namespace Wiring

/-- The result of handling the items under a token that is cancelled or not. -/
def pollEach {α β : Type} (cancelled : Bool) (items : List α) (result : β) : Except Error β :=
  if cancelled && !items.isEmpty then .error .cancelled else .ok result

end Wiring

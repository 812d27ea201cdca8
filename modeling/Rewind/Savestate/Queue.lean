import Rewind.Savestate.Request

/-!
The queue of pending requests. It takes requests only while the machine runs, and the newest
stands in front.
-/

namespace Rewind.Savestate

/-- Pending requests, newest first. -/
structure Queue where
  /-- Whether the machine runs. -/
  launched : Bool := false
  pending : List Request := []

namespace Queue

/-- Says whether the machine runs; when it stops, nothing stays pending. -/
def setLaunched (q : Queue) (launched : Bool) : Queue :=
  ⟨launched, if launched then q.pending else []⟩

/-- Puts a request in front. -/
def enqueue (q : Queue) (r : Request) : Except Error Queue :=
  if q.launched then .ok { q with pending := r :: q.pending } else .error .coreNotLaunched

/-- The queue with nothing pending. -/
def clear (q : Queue) : Queue := { q with pending := [] }

end Queue

end Rewind.Savestate

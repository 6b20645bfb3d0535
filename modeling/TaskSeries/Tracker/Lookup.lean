import TaskSeries.Store.Basic

/-!
Finding the task that a text addresses: by its full id in any spelling, or by a beginning of the
written form that no other stored id shares.
-/

namespace TaskSeries

open TaskSeries.Text

/-- The fewest bytes that a beginning must have. -/
def shortestStart : Nat := 4

/-- The stored task that a text addresses. -/
def Store.find (s : Store) (token : String) : Except Fault Task :=
  let token := trim token
  match TaskId.ofText? token with
  | some id =>
    match s.get? id with
    | .error f => .error (.store f)
    | .ok none => .error (.taskNotFound token)
    | .ok (some t) => .ok t
  | none =>
    if token.utf8ByteSize < shortestStart then .error (.taskNotFound token)
    else match s.withStart token with
      | .error f => .error (.store f)
      | .ok [] => .error (.taskNotFound token)
      | .ok [t] => .ok t
      | .ok _ => .error (.ambiguousId token)

end TaskSeries

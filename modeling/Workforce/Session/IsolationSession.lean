import Workforce.Isolation
import Workforce.Session.Verdict

/-!
# Sessions with an isolated handler

A session calls one handler again and again, and runs the routine of each call or
drops it unrun.
-/

namespace Workforce

/-- What a handler is asked to do. -/
inductive Behaviour
  /-- Panics at the call. -/
  | panicsAtCall (payload : Payload)
  /-- Panics while it runs. -/
  | panics (payload : Payload)
  /-- Never gets through. -/
  | hangs
  /-- Gets through. -/
  | runs (text : String)
deriving DecidableEq, Inhabited

/-- A call in a session. -/
structure CallRequest where
  behaviour : Behaviour
  /-- How often the routine gives way first. -/
  yields : Nat := 0
  /-- Whether the routine is dropped unrun. -/
  dropped : Bool := false
deriving DecidableEq, Inhabited

/-- What a call came to. -/
inductive CallReply
  | verdict (verdict : Verdict)
  | panicked (payload : Payload)

/-- What is shown after a call. -/
structure CallView where
  reply : CallReply
  /-- How often the handler was entered so far. -/
  calls : Nat
  notes : List String

/-- A session with a handler. -/
structure IsolationSession where
  handler : Handler CallRequest
  calls : Nat := 0

namespace CallRequest

/-- The handler that does what it is asked to do. -/
def perform : Handler CallRequest := fun request =>
  { entered := 1
    started :=
      match request.behaviour with
      | .panicsAtCall payload => .error payload
      | .panics payload => .ok (Routine.after (.panics payload) request.yields)
      | .hangs => .ok (Routine.after .hangs request.yields)
      | .runs text => .ok (Routine.after (.note (.ran text) .done) request.yields) }

end CallRequest

namespace IsolationSession

/-- A session with a handler that is isolated so many times. -/
def new (times : Nat) : IsolationSession where
  handler := Handler.isolatedTimes CallRequest.perform times

/-- What a run came to. -/
def replyOf : Outcome → CallReply
  | .finished => .verdict .done
  | .pending => .verdict .pending
  | .panicked payload => .panicked payload

/-- Calls the handler. -/
def step (session : IsolationSession) (request : CallRequest) : CallView × IsolationSession :=
  let call := session.handler request
  let session := { session with calls := session.calls + call.entered }
  let shown (reply : CallReply) (notes : List Note) : CallView × IsolationSession :=
    ({ reply, calls := session.calls, notes := notes.map Note.text }, session)
  match call.started with
  | .error payload => shown (.panicked payload) []
  | .ok routine =>
    if request.dropped then shown (.verdict .dropped) []
    else shown (replyOf routine.run.outcome) routine.run.notes

end IsolationSession

end Workforce

import Loac.Program

/-!
# Replies

A dispatched reply owes its caller one response.  It pays when the handler's
future returns, if completion commits before a hard mode does, and with an
error when it is dropped before.
-/

namespace Loac

open Interleave Interleave.Prog

variable {V : Type}

/--
Notifies one response observer without blaming its waker on the actor.  A
value that finds no receiver is dropped.
-/
def notifyResponse (id : Nat) (response : Response V) : P V Unit := do
  if ← mail (.respond id response) then
    containUnwind (callUser .responseWaker)
  else
    match response with
    | .ok _ => dropUserValue (callUser .value)
    | .error _ => return ()

namespace DispatchReply

/-- Commits handler failure before making its dispatch error observable. -/
def fail : P V CallError := do
  transact .beginFailure
  callFailure .dispatching

def complete (reply : DispatchReply) (response : Option V) : P V Unit :=
  match reply with
  | .caller id => do
      match ← mail (.beginCompletion id) with
      | .ok () => notifyResponse id (.ok response)
      | .error error => do
          notifyResponse id (.error error)
          dropUserValue (callUser .value)
  | .oneWay id => do
      let _ ← mail (.beginCompletion id)
      dropUserValue (callUser .value)

def drop (reply : DispatchReply) : P V Unit :=
  match reply with
  | .caller id => do
      let error ← fail
      notifyResponse id (.error error)
  | .oneWay _ => do
      let _ ← fail
      return ()

end DispatchReply

/-!
## Scheduled futures
-/

def CompleteReply.poll (key : Key) : P V Bool := do
  match ← runUser (.replyPoll key) with
  | none => return false
  | some value =>
      match ← sched (.takeReply key) with
      | some reply =>
          reply.complete (some value)
          return true
      | none => .throw

/-- The final value goes to a receiver that is not contained here. -/
def FinishStream.poll (key : Key) : P V Bool := do
  match ← runUser (.replyPoll key) with
  | none => return false
  | some _ =>
      let final ← sched (.takeFinal key)
      onlyIf final (callUser .finalSend)
      return true

namespace ScheduledFuture

/-- Registers the actor task, then polls with the reply's stable waker. -/
def pollWithTask (key : Key) (scheduled : ScheduledFuture) : P V Bool := do
  sched (.register key)
  match scheduled.future with
  | .completeReply _ => CompleteReply.poll key
  | .finishStream _ => FinishStream.poll key

/--
The fields drop in the order of their declaration: a reply reports its
cancellation before the handler's future goes, and the sender of a final value
goes after it.
-/
def drop (key : Key) (cleared : Bool) (scheduled : ScheduledFuture) : P V Unit :=
  match scheduled.future with
  | .completeReply (some reply) => do
      reply.drop
      callUser (.replyDrop key cleared)
  | .completeReply none => callUser (.replyDrop key cleared)
  | .finishStream true =>
      onExit (callUser (.replyDrop key cleared)) (callUser .finalSend)
  | .finishStream false => callUser (.replyDrop key cleared)

end ScheduledFuture

end Loac

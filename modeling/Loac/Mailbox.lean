import Loac.Scheduling.Queue

/-!
# The mailbox

An accepted envelope is either moved into execution or discarded.  Every kind
of envelope owns what happens to it in both cases.
-/

namespace Loac

open Interleave Interleave.Prog

variable {V : Type}

/-!
## Dispatch by reply kind
-/

/--
Schedules a handler.  A panic of its construction drops the reply that the
builder owns and goes on.
-/
def scheduleReply (reply : DispatchReply) : P V Unit :=
  Queue.schedule fun key => do
    match ← (callUser (.construct key)).attempt with
    | some () => return .completeReply (some reply)
    | none =>
        reply.drop
        .throw

def SingleKind.dispatch (reply : DispatchReply) : P V Unit :=
  scheduleReply reply

/-- The stream's handle is the response, so it completes before the handler. -/
def StreamKind.dispatch (reply : DispatchReply) : P V Unit := do
  reply.complete none
  Queue.schedule fun key => do
    callUser (.construct key)
    return .finishStream true

/-!
## Envelopes
-/

namespace CallEnvelope

def reject (envelope : Envelope) (error : CallError) : P V Unit := do
  notifyResponse envelope.id (.error error)
  dropUserValue (callUser .message)

/-- Only calls can be abandoned; one-way envelopes have no receiver. -/
def dispatch (kind : DispatchReply -> P V Unit) (envelope : Envelope) :
    P V Unit := do
  if ← mail (.replyIsClosed envelope) then
    reject envelope (← queuedFailure)
  else
    match ← mail (.beginDispatch envelope) with
    | .error error => do
        notifyResponse envelope.id (.error error)
        dropUserValue (callUser .message)
    | .ok () => kind (.caller envelope.id)

def discard (envelope : Envelope) : P V Unit := do
  reject envelope (← queuedFailure)

end CallEnvelope

namespace SendEnvelope

def dispatch (envelope : Envelope) : P V Unit := do
  match ← mail (.beginDispatch envelope) with
  | .error _ => dropUserValue (callUser .message)
  | .ok () => SingleKind.dispatch (.oneWay envelope.id)

def discard (_ : Envelope) : P V Unit :=
  dropUserValue (callUser .message)

end SendEnvelope

namespace StreamToEnvelope

def reject (envelope : Envelope) (error : CallError) : P V Unit := do
  onlyIf envelope.kind.hasReceiver (notifyResponse envelope.id (.error error))
  dropUserValue (callUser .message)
  dropUserValue (callUser .writer)

/-- The reply of an envelope, whose response channel is optional. -/
def reply (envelope : Envelope) : DispatchReply :=
  if envelope.kind.hasReceiver then
    .caller envelope.id
  else
    .oneWay envelope.id

def isClosed (envelope : Envelope) : P V Bool :=
  if envelope.kind.hasReceiver then
    mail (.replyIsClosed envelope)
  else
    return false

def dispatch (envelope : Envelope) : P V Unit := do
  if ← isClosed envelope then
    reject envelope (← queuedFailure)
  else
    match ← mail (.beginDispatch envelope) with
    | .error error => do
        onlyIf envelope.kind.hasReceiver
          (notifyResponse envelope.id (.error error))
        dropUserValue (callUser .message)
        dropUserValue (callUser .writer)
    | .ok () => scheduleReply (reply envelope)

def discard (envelope : Envelope) : P V Unit := do
  reject envelope (← queuedFailure)

end StreamToEnvelope

namespace Envelope

def dispatch (envelope : Envelope) : P V Unit :=
  match envelope.kind with
  | .call => CallEnvelope.dispatch SingleKind.dispatch envelope
  | .stream => CallEnvelope.dispatch StreamKind.dispatch envelope
  | .send => SendEnvelope.dispatch envelope
  | .callTo => StreamToEnvelope.dispatch envelope
  | .sendTo => StreamToEnvelope.dispatch envelope

/-- Rejects one accepted entry without invoking its handler. -/
def discard (envelope : Envelope) : P V Unit :=
  match envelope.kind with
  | .call => CallEnvelope.discard envelope
  | .stream => CallEnvelope.discard envelope
  | .send => SendEnvelope.discard envelope
  | .callTo => StreamToEnvelope.discard envelope
  | .sendTo => StreamToEnvelope.discard envelope

end Envelope

/-!
## The inbox
-/

namespace ActorInbox

def close : P V Unit :=
  mail .close

def isEmpty : P V Bool :=
  mail .isEmpty

/-- Discards one accepted envelope through its lifecycle boundary. -/
def tryDiscard : P V Bool := do
  match ← mail .tryRecv with
  | none => return false
  | some envelope =>
      envelope.discard
      return true

def drop : P V Unit := do
  close
  iter () fun _ => do
    if ← tryDiscard then
      again ()
    else
      done ()

end ActorInbox

end Loac

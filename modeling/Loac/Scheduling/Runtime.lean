import Loac.Mailbox

/-!
# Scheduler turns

One turn visits the lanes in a circle, from the lane after the one that was
served last, and stops at the first lane that has something.
-/

namespace Loac

open Interleave Interleave.Prog

variable {V : Type}

inductive SchedulerTurn where
  | lifecycleHint
  | progress
  | child (event : ChildExit)
  | inboxClosed
deriving DecidableEq

abbrev Poll (α : Type) : Type :=
  Option α

inductive Visit where
  | nothing
  | selected (turn : SchedulerTurn)
  /-- The turn ends inside the lane. -/
  | leave (turn : Poll SchedulerTurn)
deriving DecidableEq

def hasReplies : P V Bool := do
  return !(← sched .isEmpty)

def hasCapacity (A : ActorConfig) (active : Nat) : Bool :=
  match A.limit with
  | some n => active < n
  | none => true

def hasDispatchCapacity (A : ActorConfig) : P V Bool := do
  let leased ← Queue.isLeased
  let active ← sched .length
  return !leased && hasCapacity A active

def pollChild : P V (Poll SchedulerTurn) := do
  match ← kin .pollExit with
  | some event => return some (.child event)
  | none => return none

/-!
## Lanes
-/

def mailboxLane (A : ActorConfig) (turn : TurnContext) (start : ReplyLane) :
    P V Visit :=
  iter 0 fun dispatched => do
    match ← mail (.pollRecv turn) with
    | .envelope envelope => do
        envelope.dispatch
        if ← differs turn.expectedMode then
          sched (.setCursor ReplyLane.mailbox.next)
          done (.leave (some .lifecycleHint))
        else if dispatched + 1 = A.mailboxDispatchBudget then
          done (.selected .progress)
        else if ← hasDispatchCapacity A then
          again (dispatched + 1)
        else
          done (.selected .progress)
    | .closed => done (.selected .inboxClosed)
    | .pending =>
        if dispatched > 0 ∧ start = .reply then
          if ← hasReplies then
            done (.selected .progress)
          else
            done .nothing
        else
          done .nothing

def replyLane (turn : TurnContext) : P V Visit := do
  match ← Queue.poll turn with
  | .pending => return .nothing
  | .progress => return .selected .progress
  | .leased => return .leave none
  | .budgetExhausted =>
      sched (.setCursor ReplyLane.reply.next)
      return .leave none

def childExitLane : P V Visit := do
  match ← pollChild with
  | some turn => return .selected turn
  | none => return .nothing

def visit (A : ActorConfig) (turn : TurnContext) (start lane : ReplyLane) :
    P V Visit :=
  match lane with
  | .mailbox => do
      let capacity ← hasDispatchCapacity A
      if turn.receiveMessages && capacity then
        mailboxLane A turn start
      else
        return .nothing
  | .reply => do
      if ← hasReplies then
        replyLane turn
      else
        return .nothing
  | .childExit => childExitLane

/-!
## Turns
-/

def pollLanes (A : ActorConfig) (turn : TurnContext) (start : ReplyLane) :
    P V (Poll SchedulerTurn) :=
  iter start fun lane => do
    if ← differs turn.expectedMode then
      done (some .lifecycleHint)
    else
      match ← visit A turn start lane with
      | .leave result => done result
      | .selected selected => do
          sched (.setCursor lane.next)
          done (some selected)
      | .nothing =>
          if lane.next = start then
            sched (.setCursor start.next)
            done none
          else
            again lane.next

namespace DisabledRuntime

/-- Disabled has no mailbox or reply lanes. -/
def pollTurn (turn : TurnContext) : P V (Poll SchedulerTurn) := do
  if ← differs turn.expectedMode then
    return some .lifecycleHint
  else
    pollChild

end DisabledRuntime

namespace MailboxRuntime

def pollTurn (A : ActorConfig) (turn : TurnContext) :
    P V (Poll SchedulerTurn) := do
  if ← differs turn.expectedMode then
    return some .lifecycleHint
  else if ← Queue.isLeased then
    match ← Queue.poll turn with
    | .progress => return some .progress
    | _ => return none
  else
    let start ← sched .cursor
    pollLanes A turn start

def pollActorReplies (turn : TurnContext) : P V (Poll Unit) := do
  match ← Queue.poll turn with
  | .progress => return some ()
  | _ => return none

end MailboxRuntime

/-! The profile of the actor selects its runtime. -/

def isIdle (A : ActorConfig) : P V Bool :=
  match A.mailbox with
  | some _ => sched .isEmpty
  | none => return true

def pollTurn (A : ActorConfig) (turn : TurnContext) : P V (Poll SchedulerTurn) :=
  match A.mailbox with
  | some _ => MailboxRuntime.pollTurn A turn
  | none => DisabledRuntime.pollTurn turn

def pollActorReplies (A : ActorConfig) (turn : TurnContext) : P V (Poll Unit) :=
  match A.mailbox with
  | some _ => MailboxRuntime.pollActorReplies turn
  | none => return none

def clear (A : ActorConfig) : P V Unit :=
  match A.mailbox with
  | some _ => Queue.clear
  | none => return ()

end Loac

import Loac.Runtime.Shutdown

/-!
# The actor loop

An actor is initialized, takes turns while it runs, and ends through one of
the shutdowns.
-/

namespace Loac

open Interleave Interleave.Prog

variable {V : Type}

/-!
## Turns
-/

/--
Lifecycle notifications, especially Kill, preempt the fair scheduler turn.
-/
def actorTurn (A : ActorConfig) (turn : TurnContext) : P V SchedulerTurn := do
  match ← select (.turn turn.expectedMode) () (pollOnce (pollTurn A turn)) with
  | .inl () => return .lifecycleHint
  | .inr result => return result

inductive DrainTurn where
  | scheduled (turn : SchedulerTurn)
  | repliesFinished
deriving DecidableEq

def drainTurn (A : ActorConfig) (receiveMessages : Bool) : P V DrainTurn := do
  let idle ← isIdle A
  if !receiveMessages && idle then
    return .repliesFinished
  else
    let turn ← actorTurn A
      { receiveMessages := receiveMessages, expectedMode := .draining }
    return .scheduled turn

def runChildExitHook (event : ChildExit) : P V (Work Unit) :=
  awaitActorWork (.hook event.child) ()
    (fun _ => pollUser (.hookPoll event.child))
    (callUser (.hookDrop event.child))

def handleChildExit (event : ChildExit) : P V (Work Unit) := do
  if ← kin (.reap event) then
    if ← transact .beginChildHook then
      runChildExitHook event
    else
      return .complete ()
  else
    return .complete ()

/-!
## Drain
-/

def drainRound (A : ActorConfig) (inboxDrained : Bool) :
    P V (Bool ⊕ Option ExitStatus) := do
  let empty ← ActorInbox.isEmpty
  let inboxDrained := inboxDrained || empty
  match ← (drainTurn A (!inboxDrained)).attempt with
  | none =>
      containPanic
      done (some (← failActor A))
  | some .repliesFinished => done none
  | some (.scheduled .lifecycleHint) => again inboxDrained
  | some (.scheduled .progress) => again inboxDrained
  | some (.scheduled (.child event)) => do
      match ← handleChildExit event with
      | .complete () => again inboxDrained
      | .killed => done (some (← killActor A))
      | .panicked => do
          transact .beginFailure
          done (some (← failActor A))
      | .dropPanicked () => do
          transact .beginFailure
          done (some (← failActor A))
  | some (.scheduled .inboxClosed) => again true

def drainLoop (A : ActorConfig) (inboxDrained : Bool) :
    P V (Option ExitStatus) :=
  iter inboxDrained fun inboxDrained => do
    match ← mode with
    | .killing => done (some (← killActor A))
    | .failing => done (some (← failActor A))
    | .exited status => done (some status)
    | .aborting => done (some (.new .aborted .unconfirmed))
    | _ => drainRound A inboxDrained

def drainActor (A : ActorConfig) : P V ExitStatus := do
  ActorInbox.close
  match ← drainLoop A (← ActorInbox.isEmpty) with
  | some status => return status
  | none => do
      terminate A .drained (← gracefulFinish .drain .drained)

/-!
## Running
-/

def shutdownActor (A : ActorConfig) (shutdown : Shutdown)
    (follow : P V ExitStatus) : P V ExitStatus := do
  match ← (callUser (.onShutdown shutdown)).attempt with
  | some () => follow
  | none =>
      containPanic
      failActor A

def runningRound (A : ActorConfig) : P V (Unit ⊕ ExitStatus) := do
  let turn : TurnContext := { receiveMessages := true, expectedMode := .running }
  match ← (actorTurn A turn).attempt with
  | none =>
      containPanic
      done (← failActor A)
  | some .lifecycleHint => again ()
  | some .progress => again ()
  | some (.child event) => do
      match ← handleChildExit event with
      | .complete () => again ()
      | .killed => done (← killActor A)
      | .panicked => do
          transact .beginFailure
          done (← failActor A)
      | .dropPanicked () => do
          transact .beginFailure
          done (← failActor A)
  | some .inboxClosed => do
      perform (.reach .inboxClosed)
      transact .beginFailure
      done (← failActor A)

def runningLoop (A : ActorConfig) : P V ExitStatus :=
  iter () fun _ => do
    match ← mode with
    | .running => runningRound A
    | .draining => done (← shutdownActor A .drain (drainActor A))
    | .stopping => done (← shutdownActor A .stop (stopActor A))
    | .killing => done (← killActor A)
    | .failing => done (← failActor A)
    | .exited status => done status
    | .aborting => done (.new .aborted .unconfirmed)

/-!
## Frames

What a frame still owns is dropped when it ends, in every way it can end.
-/

namespace RunningActor

/-- Scheduled futures drop before the actor, and the actor before its children. -/
def drop : P V Unit := do
  Queue.drop
  onExit (callUser (.actor false)) ChildSet.drop

end RunningActor

def dropInitialized : P V Unit :=
  onExit RunningActor.drop ActorInbox.drop

def dropUninitialized : P V Unit := do
  Queue.drop
  ActorInbox.drop
  ChildSet.drop

/-- The frame of a task that was never polled, which still owns the arguments. -/
def dropUnpolled : P V Unit :=
  onExit (callUser .args) do
    ChildSet.drop
    ActorInbox.drop
    Queue.drop

/-!
## The actor task's future
-/

def runInit : P V (Work Unit) := do
  if ← transact .beginInitialization then
    match ← (callUser .initCall).attempt with
    | some () =>
        awaitActorWork .init () (fun _ => pollUser .initPoll) (callUser .initDrop)
    | none =>
        containPanic
        return .panicked
  else
    dropUserValue (callUser .args)
    return .killed

def runActor (A : ActorConfig) : P V ExitStatus := do
  match ← runInit with
  | .complete () => onExit (runningLoop A) dropInitialized
  | .killed => onExit killUninitialized dropUninitialized
  | .panicked => onExit failUninitialized dropUninitialized
  | .dropPanicked () =>
      -- Descendant cancellation must precede arbitrary actor drop code.
      onExit
        (do
          ChildSet.requestAll .kill
          dropUserValue (callUser (.actor true))
          failUninitialized)
        dropUninitialized

end Loac

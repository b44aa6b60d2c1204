import Loac.Runtime.Task

/-!
# Shutdown

The ways in which an initialized or uninitialized actor ends.  Each of them
returns the status that the actor proposes for itself.
-/

namespace Loac

open Interleave Interleave.Prog

variable {V : Type}

/-!
## Children
-/

namespace ChildSet

def requestAll (shutdown : Shutdown) : P V Unit := do
  forEach (← kin .actors) fun key => kin (.request key shutdown)

def pollWait : List Key -> P V (List Key ⊕ Unit)
  | [] => do
      kin .clear
      return .inr ()
  | key :: rest => do
      if ← kin (.wait key) then
        pollWait rest
      else
        return .inl (key :: rest)

def waitAll (site : Site) : P V Unit := do
  iter (← kin .actors) fun keys => do
    match ← pollWait keys with
    | .inl keys' => do
        suspend site
        again keys'
    | .inr () => done ()

def terminalStatus (reason : ExitReason) : P V ExitStatus := do
  return .new reason (← kin .subtree)

def drop : P V Unit := do
  forEach (← kin .actors) fun key => kin (.request key .kill)

end ChildSet

/-!
## Discarding the queue
-/

def teardownDropBudget : Nat := 16

inductive DiscardOutcome where
  | complete
  | modeChanged
deriving DecidableEq, Repr

def closeAndDiscard (initialized : Bool) (expectedMode : Mode) :
    P V DiscardOutcome := do
  ActorInbox.close
  iter 0 fun dropped => do
    if ← differs expectedMode then
      done .modeChanged
    else if ← ActorInbox.tryDiscard then
      if ← differs expectedMode then
        done .modeChanged
      else if dropped + 1 = teardownDropBudget then
        -- `yield_now` wakes the task before it suspends it.
        perform .wakeTask
        suspend (.discard initialized)
        again 0
      else
        again (dropped + 1)
    else
      done .complete

def closeDiscarded (initialized : Bool) (expectedMode : Mode) : P V Unit :=
  iter expectedMode fun expectedMode => do
    match ← closeAndDiscard initialized expectedMode with
    | .complete => done ()
    | .modeChanged => again (← mode)

/-!
## Hard teardown
-/

def killActor (A : ActorConfig) : P V ExitStatus := do
  ActorInbox.close
  ChildSet.requestAll .kill
  clear A
  closeDiscarded true .killing
  perform (.reach .hardWait)
  ChildSet.waitAll (.waitAll true)
  ChildSet.terminalStatus .killed

def failWith (A : ActorConfig) (reason : ExitReason) : P V ExitStatus := do
  ActorInbox.close
  ChildSet.requestAll .kill
  clear A
  closeDiscarded true (← mode)
  perform (.reach .hardWait)
  ChildSet.waitAll (.waitAll true)
  ChildSet.terminalStatus reason

def failActor (A : ActorConfig) : P V ExitStatus := do
  transact .beginFailure
  match ← mode with
  | .killing => failWith A .killed
  | .aborting => failWith A .aborted
  | .exited status => return status
  | _ => failWith A .panicked

def killUninitialized : P V ExitStatus := do
  ActorInbox.close
  ChildSet.requestAll .kill
  closeDiscarded false .killing
  ChildSet.waitAll (.waitAll false)
  ChildSet.terminalStatus .killed

def failUninitializedWith (reason : ExitReason) : P V ExitStatus := do
  ActorInbox.close
  ChildSet.requestAll .kill
  closeDiscarded false (← mode)
  ChildSet.waitAll (.waitAll false)
  ChildSet.terminalStatus reason

def failUninitialized : P V ExitStatus := do
  transact .beginFailure
  match ← mode with
  | .killing => failUninitializedWith .killed
  | .aborting => failUninitializedWith .aborted
  | .exited status => return status
  | _ => failUninitializedWith .panicked

/-!
## Graceful shutdown
-/

def finishChildren (shutdown : Shutdown) :
    Option (List Key) -> P V (Option (List Key) ⊕ Unit)
  | none => do
      ChildSet.requestAll shutdown
      finishChildrenWait (← kin .actors)
  | some keys => finishChildrenWait keys
where
  finishChildrenWait (keys : List Key) : P V (Option (List Key) ⊕ Unit) := do
    match ← ChildSet.pollWait keys with
    | .inl keys' => return .inl (some keys')
    | .inr () => return .inr ()

def gracefulFinish (shutdown : Shutdown) (reason : ExitReason) :
    P V (Work Unit) := do
  perform (.reach (.gracefulFinish shutdown))
  match ← awaitActorWork .children none (finishChildren shutdown)
      (return ()) with
  | .complete () =>
      awaitActorWork (.onStop reason) () (fun _ => pollUser (.stopPoll reason))
        (callUser (.stopDrop reason))
  | work => return work

/-- Ends an actor whose graceful shutdown is over. -/
def terminate (A : ActorConfig) (reason : ExitReason) :
    Work Unit -> P V ExitStatus
  | .complete () => ChildSet.terminalStatus reason
  | .killed => killActor A
  | .panicked => failActor A
  | .dropPanicked () => failActor A

def finishRepliesTurn (A : ActorConfig) : P V Unit := do
  let turn : TurnContext := { receiveMessages := false, expectedMode := .stopping }
  let _ ← select .finishReplies () (pollOnce (pollActorReplies A turn))
  return ()

def finishReplies (A : ActorConfig) : P V (Work Unit) :=
  iter () fun _ => do
    if ← isIdle A then
      done (.complete ())
    else
      match ← mode with
      | .killing => done .killed
      | .failing => done .panicked
      | .aborting => done .killed
      | .exited _ => done .killed
      | _ => do
          match ← (finishRepliesTurn A).attempt with
          | some () => again ()
          | none =>
              containPanic
              done .panicked

/-- The part of a stop that follows the discarded queue. -/
def stopReplies (A : ActorConfig) : P V ExitStatus := do
  match ← finishReplies A with
  | .complete () => do
      terminate A .stopped (← gracefulFinish .stop .stopped)
  | .killed => killActor A
  | .panicked => failActor A
  | .dropPanicked () => failActor A

def stopActor (A : ActorConfig) : P V ExitStatus := do
  match ← closeAndDiscard true .stopping with
  | .complete => stopReplies A
  | .modeChanged =>
      match ← mode with
      | .killing => killActor A
      | .failing => failActor A
      | _ => do
          perform (.reach .impossibleMode)
          .throw

end Loac

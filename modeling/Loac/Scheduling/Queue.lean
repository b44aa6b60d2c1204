import Loac.Reply

/-!
# The ready queue

One drain polls the replies whose keys were queued, up to a budget.  While a
lease is held, its holder is the only reply that is polled.
-/

namespace Loac

open Interleave Interleave.Prog

variable {V : Type}

def activePollBudget : Nat := 16

inductive ReplyPoll where
  | pending
  | progress
  | leased
  | budgetExhausted
deriving DecidableEq, Repr

namespace Queue

def isLeased : P V Bool := do
  return (← sched .held).isSome

/--
Builds one reply under a key that exists before the reply does, and marks its
first poll ready.
-/
def schedule (build : Key -> P V ReplyFuture) : P V Unit := do
  let key ← sched .reserve
  let future ← build key
  sched (.markReady key)
  sched (.place key future)

def remove (key : Key) : P V Unit := do
  match ← sched (.remove key) with
  | some scheduled => dropUserValue (scheduled.drop key false)
  | none => return ()

/-- Removes one reply and releases any forgotten lease. -/
def complete (key : Key) : P V Unit := do
  remove key
  let held ← sched .held
  onlyIf (held = some key) (sched .forceRelease)

def pollLeased (turn : TurnContext) (key : Key) : P V ReplyPoll := do
  match ← sched (.find key) with
  | none =>
      sched .forceRelease
      return .progress
  | some scheduled =>
      if ← sched (.takeReady key) then
        let ready ← scheduled.pollWithTask key
        let held ← sched .held
        if ← differs turn.expectedMode then
          return .progress
        else if ready then
          complete key
          return .progress
        else if held = some key then
          return .leased
        else
          return .progress
      else
        return .pending

/--
The loop of one drain.  It returns whether a reply completed, and nothing when
a reply took the lease.
-/
def drain (turn : TurnContext) : P V (Option Bool) :=
  iter (0, false) fun (polled, completed) => do
    if polled < activePollBudget then
      if ← differs turn.expectedMode then
        done (some completed)
      else
        match ← sched .popReady with
        | none => done (some completed)
        | some key =>
            match ← sched (.find key) with
            | none => again (polled, completed)
            | some scheduled =>
                if ← sched (.takeReady key) then
                  let ready ← scheduled.pollWithTask key
                  if ready then
                    complete key
                    again (polled + 1, true)
                  else if (← sched .held).isSome then
                    done none
                  else
                    again (polled + 1, completed)
                else
                  again (polled, completed)
    else
      done (some completed)

def pollReady (turn : TurnContext) : P V ReplyPoll := do
  match ← drain turn with
  | none => return .leased
  | some completed =>
      if ← differs turn.expectedMode then
        return .progress
      else if ← sched (.readyIsEmpty turn) then
        if completed then
          return .progress
        else
          return .pending
      else
        -- A continuation wake must not unwind the actor task.
        perform .wakeTask
        return .budgetExhausted

def poll (turn : TurnContext) : P V ReplyPoll := do
  match ← sched .held with
  | some key => pollLeased turn key
  | none => pollReady turn

def clear : P V Unit := do
  iter () fun _ => do
    match ← sched .drain with
    | some (key, scheduled) =>
        dropUserValue (scheduled.drop key true)
        again ()
    | none => done ()
  sched .forceRelease

/-- Automatic teardown has no lifecycle handle. -/
def drop : P V Unit := do
  iter () fun _ => do
    match ← sched .drain with
    | some (key, scheduled) =>
        containUnwind (scheduled.drop key false)
        again ()
    | none => done ()
  sched .forceRelease

end Queue

end Loac

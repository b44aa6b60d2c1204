import Loac.Scheduling.Runtime

/-!
# Waiting

The actor task waits in biased selects: a lifecycle notification is looked at
before the other side is polled.  Dropping a select drops its waiter.
-/

namespace Loac

open Interleave Interleave.Prog

variable {V : Type}

/--
Waits for a notification or for the other side, whose state changes from poll
to poll.  The result is the state that is left when the notification came.
-/
def select {β γ : Type} (site : Site) (start : β) (poll : β -> P V (β ⊕ γ)) :
    P V (β ⊕ γ) :=
  onExit
    (iter start fun b => do
      if ← perform .pollNotified then
        done (.inl b)
      else
        match ← poll b with
        | .inl b' => do
            suspend site
            again b'
        | .inr c => done (.inr c))
    (perform .dropNotified)

/-- A poll without state, as one side of a select. -/
def pollOnce {γ : Type} (poll : P V (Poll γ)) (_ : Unit) : P V (Unit ⊕ γ) := do
  match ← poll with
  | none => return .inl ()
  | some c => return .inr c

/-!
## Lifecycle work
-/

inductive Work (γ : Type) where
  | complete (value : γ)
  | killed
  | panicked
  /-- The ready output still belongs to the lifecycle owner. -/
  | dropPanicked (value : γ)

namespace ActorWorkGuard

def dropFuturePanicked (drop : P V Unit) : P V Bool := do
  match ← drop.attempt with
  | some () => return false
  | none =>
      containPanic
      return true

def poll {β γ : Type} (future : β -> P V (β ⊕ γ)) (drop : P V Unit) (b : β) :
    P V (β ⊕ Work γ) := do
  match ← (future b).attempt with
  | some (.inl b') => return .inl b'
  | some (.inr output) =>
      if ← dropFuturePanicked drop then
        return .inr (.dropPanicked output)
      else
        return .inr (.complete output)
  | none =>
      containPanic
      let _ ← dropFuturePanicked drop
      return .inr .panicked

end ActorWorkGuard

def awaitActorWork {β γ : Type} (site : Site) (start : β)
    (future : β -> P V (β ⊕ γ)) (drop : P V Unit) : P V (Work γ) :=
  iter start fun b => do
    if (← mode).isHard then
      let _ ← ActorWorkGuard.dropFuturePanicked drop
      done .killed
    else
      match ← select site b (ActorWorkGuard.poll future drop) with
      | .inl b' => again b'
      | .inr work => done work

end Loac

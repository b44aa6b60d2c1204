import Loac.Runtime.ActorLoop

/-!
# The life of an actor

An actor exists from the moment its address does.  Its spawner may be dropped
before the task starts, the task may end, and the executor may drop the task
wherever it is suspended.
-/

namespace Loac

open Interleave Interleave.Prog

variable {V : Type}

/-!
## Publication
-/

namespace ExitGuard

def publish (A : ActorConfig) (proposed : ExitStatus) : P V Unit := do
  let status ← transact (.finish proposed)
  onlyIf A.parent (perform (.publish status))

/-- An unfinished guard marks abort before it publishes. -/
def drop (A : ActorConfig) : P V Unit := do
  transact .beginAbort
  publish A (.new .aborted .unconfirmed)

end ExitGuard

namespace ActorTask

def dropFrame : Site -> P V Unit
  | .start => dropUnpolled
  | .init => do
      let _ ← ActorWorkGuard.dropFuturePanicked (callUser .initDrop)
      dropUninitialized
  | .turn _ => dropInitialized
  | .hook child => do
      let _ ← ActorWorkGuard.dropFuturePanicked (callUser (.hookDrop child))
      dropInitialized
  | .discard initialized =>
      if initialized then dropInitialized else dropUninitialized
  | .finishReplies => dropInitialized
  | .children => dropInitialized
  | .onStop reason => do
      let _ ← ActorWorkGuard.dropFuturePanicked (callUser (.stopDrop reason))
      dropInitialized
  | .waitAll initialized =>
      if initialized then dropInitialized else dropUninitialized

/-- Aborting records a local abort before frame destruction. -/
def drop (A : ActorConfig) (site : Site) : P V Unit := do
  transact .beginAbort
  perform .dropNotified
  dropUserValue (dropFrame site)
  ExitGuard.drop A

/--
Polls the future to its end.  A poll that unwinds makes the executor drop the
task, whose future then owns nothing any more.
-/
def poll (A : ActorConfig) : P V Unit := do
  match ← (runActor A).attempt with
  | some status => ExitGuard.publish A status
  | none =>
      perform (.reach .unwound)
      transact .beginAbort
      ExitGuard.drop A

def run (A : ActorConfig) : P V Unit := do
  perform .start
  suspend .start
  poll A

end ActorTask

/-!
## Spawning
-/

namespace ActorSpawner

/-- Dropping an unstarted spawner requests Kill and drops what it opened. -/
def drop : P V Unit := do
  let _ ← transact (.request .kill)
  ActorInbox.drop
  Queue.drop
  ChildSet.drop

end ActorSpawner

/-- A child is registered before its task starts, so nobody can drop it first. -/
def lifetime (A : ActorConfig) : P V Unit := do
  if A.parent then
    ActorTask.run A
  else if ← perform .spawn then
    ActorTask.run A
  else
    ActorSpawner.drop

/-!
## The machine

The executor may drop the task wherever it is suspended.
-/

def cancel (A : ActorConfig) {α : Type} : Op V α -> Input V -> Option (P V Unit)
  | .suspend site, .abort => some (ActorTask.drop A site)
  | _, _ => none

def machine (V : Type) (A : ActorConfig) :
    Machine (Op V) (World V) (Input V) EnvAct Unit where
  exec := Op.exec A
  env := EnvAct.exec A
  cancel := cancel A

/-- The machine performs an operation as the actor task does. -/
theorem machine_exec {A : ActorConfig} {α : Type} {op : Op V α}
    {input : Input V} {w w' : World V} {a : α}
    (h : (machine V A).exec op input w = some (w', a)) :
    op.exec A input w = some (w', a) := h

abbrev ActorState (V : Type) : Type 1 :=
  Config (Op V) (World V) Unit

def isOver {V : Type} (c : ActorState V) : Bool :=
  match c.prog with
  | .pure _ => true
  | .throw => true
  | _ => false

/-- The place of the source that the task has come to, if it is marked. -/
def point {V : Type} (c : ActorState V) : Option Point :=
  match c.prog with
  | .act (.reach p) _ => some p
  | _ => none

def suspendedAt {V : Type} (c : ActorState V) : Option Site :=
  match c.prog with
  | .act (.suspend site) _ => some site
  | _ => none

/-- The actor whose address was just handed out. -/
def initial (V : Type) (A : ActorConfig) : ActorState V where
  state := .new V
  prog := lifetime A

abbrev Reachable (A : ActorConfig) (c : ActorState V) : Prop :=
  Machine.Reaches (machine V A) Machine.Anything (initial V A) c

end Loac

import Loac.Mailbox.Control
import Loac.Scheduling.State

/-!
# Direct children

A parent keeps the registrations of the children it still owns.  Whatever a
child does is decided by its own gate, so of a child the parent sees the mode
and the exit event that the child sends after it published its status.
-/

namespace Loac

structure Child where
  mode : Mode
  /-- The exit events sent to the parent, the latest first. -/
  published : List ExitStatus
deriving DecidableEq

structure ChildExit where
  child : Key
  status : ExitStatus
deriving DecidableEq

structure Kin where
  /-- The retained registrations. -/
  actors : List Key
  /-- Every child ever registered has a key below this one. -/
  next : Key
  children : Key -> Child
  subtree : SubtreeStatus
  events : List ChildExit
  /-- The events taken from the receiver whose children are not reaped. -/
  hand : List ChildExit
  /-- The registrations given up after their children were waited for. -/
  cleared : List Key
  /-- The actor task is registered with the event receiver. -/
  waker : Bool
  /-- The child whose mode the actor task watches. -/
  watch : Option Key

/-- A spawn beyond the limit, which gives back what it was given. -/
structure Full (T : Type) where
  value : T
deriving DecidableEq, Repr

/-- A child whose configuration was opened. -/
structure PreparedActor (Args Options : Type) where
  args : Args
  options : Options
deriving DecidableEq, Repr

inductive ChildAct where
  | request (shutdown : Shutdown)
  | beginFailure
  | beginAbort
  | finish (proposed : ExitStatus)
deriving DecidableEq

def ChildAct.next : ChildAct -> Mode -> Mode
  | .request shutdown, mode => ((Transaction.request shutdown).run mode).1
  | .beginFailure, mode => (Transaction.beginFailure.run mode).1
  | .beginAbort, mode => (Transaction.beginAbort.run mode).1
  | .finish proposed, mode => ((Transaction.finish proposed).run mode).1

theorem ChildAct.next_advances (act : ChildAct) (mode : Mode) :
    act.next mode = mode ∨ mode.Advances (act.next mode) := by
  cases act with
  | request shutdown => exact Transaction.run_advances _ mode
  | beginFailure => exact Transaction.run_advances _ mode
  | beginAbort => exact Transaction.run_advances _ mode
  | finish proposed => exact Transaction.run_advances _ mode

namespace Kin

def new : Kin where
  actors := []
  next := 0
  children := fun _ => { mode := .running, published := [] }
  subtree := .terminated
  events := []
  hand := []
  cleared := []
  waker := false
  watch := none

def setChild (kin : Kin) (key : Key) (child : Child) : Kin :=
  { kin with children := Function.update kin.children key child }

/-- Registers a child, whose task starts at once. -/
def spawn (kin : Kin) : Kin :=
  { kin.setChild kin.next { mode := .running, published := [] } with
    actors := kin.actors ++ [kin.next]
    next := kin.next + 1 }

/-- Lets a value pass while a finite limit leaves room for a registration. -/
def admitChild {T : Type} (kin : Kin) (limit : Option Nat) (value : T) :
    Except (Full T) T :=
  match limit with
  | some n =>
      if kin.actors.length < n then .ok value else .error { value := value }
  | none => .ok value

/-- A child moves its own mode, and whether the actor task watched it. -/
def advance (kin : Kin) (key : Key) (next : Mode) : Kin × Bool :=
  if (kin.children key).mode = next then
    (kin, false)
  else if kin.watch = some key then
    ({ kin.setChild key { kin.children key with mode := next } with
      watch := none }, true)
  else
    (kin.setChild key { kin.children key with mode := next }, false)

/-- A child that published its status sends its exit event, once. -/
def publish (kin : Kin) (key : Key) : Option Kin :=
  match (kin.children key).mode, (kin.children key).published with
  | .exited status, [] =>
      some { kin.setChild key { kin.children key with published := [status] } with
        events := kin.events ++ [{ child := key, status := status }]
        waker := false }
  | _, _ => none

def pollExit (kin : Kin) (reception : Reception) : Kin × Option ChildExit :=
  if reception = .refused then
    (kin, none)
  else
    match kin.events with
    | [] => ({ kin with waker := true }, none)
    | event :: rest =>
        ({ kin with events := rest, hand := event :: kin.hand }, some event)

def note (kin : Kin) (status : ExitStatus) : Kin :=
  match status.subtree with
  | .unconfirmed => { kin with subtree := .unconfirmed }
  | .terminated => kin

def reap (kin : Kin) (event : ChildExit) : Kin × Bool :=
  if event.child ∈ kin.actors then
    ({ kin.note event.status with
      actors := kin.actors.filter (fun key => key ≠ event.child)
      hand := kin.hand.erase event }, true)
  else
    ({ kin with hand := kin.hand.erase event }, false)

def request (kin : Kin) (key : Key) (shutdown : Shutdown) : Kin :=
  (kin.advance key ((ChildAct.request shutdown).next (kin.children key).mode)).1

/-- Polls the wait for one child and keeps its subtree status. -/
def wait (kin : Kin) (key : Key) : Kin × Bool :=
  match (kin.children key).mode with
  | .exited status => ({ kin.note status with watch := none }, true)
  | _ => ({ kin with watch := some key }, false)

end Kin

/-!
Spawning a child gives the registrations, the children whose configuration was
opened for it, and its key or what was refused.
-/

namespace ActorScope

variable {Args Options : Type}

def spawnChildWith (limit : Option Nat) (kin : Kin) (args : Args)
    (options : Options) :
    Kin × List (PreparedActor Args Options) ×
      Except (Full (Args × Options)) Key :=
  match kin.admitChild limit (args, options) with
  | .ok (args, options) =>
      (kin.spawn, [{ args := args, options := options }], .ok kin.next)
  | .error full => (kin, [], .error full)

def spawnChild (limit : Option Nat) (kin : Kin) (args : Args)
    (default : Options) :
    Kin × List (PreparedActor Args Options) × Except (Full Args) Key :=
  match kin.admitChild limit args with
  | .ok args =>
      (kin.spawn, [{ args := args, options := default }], .ok kin.next)
  | .error full => (kin, [], .error full)

end ActorScope

inductive KinOp : Type -> Type where
  | pollExit : KinOp (Option ChildExit)
  | reap (event : ChildExit) : KinOp Bool
  | actors : KinOp (List Key)
  | request (key : Key) (shutdown : Shutdown) : KinOp Unit
  | wait (key : Key) : KinOp Bool
  | clear : KinOp Unit
  | subtree : KinOp SubtreeStatus

def KinOp.exec {α : Type} (reception : Reception) : KinOp α -> Kin -> Kin × α
  | .pollExit, kin => kin.pollExit reception
  | .reap event, kin => kin.reap event
  | .actors, kin => (kin, kin.actors)
  | .request key shutdown, kin => (kin.request key shutdown, ())
  | .wait key, kin => kin.wait key
  | .clear, kin =>
      ({ kin with actors := [], cleared := kin.cleared ++ kin.actors }, ())
  | .subtree, kin => (kin, kin.subtree)

/-- Whether the receiver refuses the poll, which wakes the task. -/
def KinOp.refuses {α : Type} : KinOp α -> Reception -> Bool
  | .pollExit, reception => reception = .refused
  | _, _ => false

end Loac

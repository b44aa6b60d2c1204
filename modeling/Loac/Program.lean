import Loac.World

/-!
# Programs of the actor task

The building blocks that every part of the actor task uses: transactions, user
code, and the boundaries at which a panic of user code is contained.
-/

namespace Loac

open Interleave Interleave.Prog

/-- Code that the actor task runs. -/
abbrev P (V : Type) : Type -> Type 1 :=
  Prog (Op V)

variable {V : Type}

def transact {α : Type} (t : Transaction α) : P V α :=
  perform (.transact t)

def mode : P V Mode :=
  perform .mode

def differs (expected : Mode) : P V Bool :=
  perform (.differs expected)

def sched {α : Type} (op : SchedOp α) : P V α :=
  perform (.sched op)

def mail {α : Type} (op : MailOp V α) : P V α :=
  perform (.mail op)

def kin {α : Type} (op : KinOp α) : P V α :=
  perform (.kin op)

def suspend (site : Site) : P V Unit :=
  perform (.suspend site)

/-!
## User code

User code runs until it returns or panics.  The poll of a future returns
nothing as long as the future is pending.
-/

def runUser (site : UserSite) : P V (Option V) :=
  iter () fun _ => do
    match ← perform (.user site) with
    | .continues => again ()
    | .returns value => done value
    | .panics => .throw

def callUser (site : UserSite) : P V Unit := do
  let _ ← runUser site
  return ()

/-- Polls a user future whose value the runtime does not look at. -/
def pollUser (site : UserSite) : P V (Unit ⊕ Unit) := do
  match ← runUser site with
  | none => return .inl ()
  | some _ => return .inr ()

/-!
## Containment
-/

def containPanic : P V Unit :=
  transact .beginFailure

/-- Drops one actor-owned user value without unwinding through the runtime. -/
def dropUserValue (value : P V Unit) : P V Unit := do
  match ← value.attempt with
  | some () => return ()
  | none => containPanic

/-- Runs one callback without unwinding and without blaming the actor. -/
def containUnwind (contained : P V Unit) : P V Unit := do
  let _ ← contained.attempt
  return ()

def callFailure (phase : CallPhase) : P V CallError := do
  return callFailureFor (← mode) phase

/-- Reports failure for work that never left mailbox ownership. -/
def queuedFailure : P V CallError :=
  callFailure .queued

end Loac

import Loac.Containment.Works
import Loac.Frames
import Loac.Interleave.History

/-!
# The life of a guarded future

A guarded future is polled until it returns or panics, and dropped once.  The
log of all steps of user code, with the values they returned, tells how far the
future has come.
-/

namespace Loac

open Interleave Interleave.Prog

variable {V α : Type}

/-- The steps of user code, the latest first, and whether a hard mode was read. -/
structure Log (V : Type) where
  steps : List (UserSite × UserStep V)
  hard : Bool

def record : {α : Type} -> Op V α -> α -> Log V -> Log V
  | _, .user site, step, log => { log with steps := (site, step) :: log.steps }
  | _, .mode, mode, log => { log with hard := log.hard || mode.isHard }
  | _, _, _, log => log

abbrev logged (V : Type) (A : ActorConfig) :
    Machine (Op V) (World V × Log V) (Input V) EnvAct Unit :=
  (machine V A).noting fun op _ => record op

/-- How far a guarded future has come. -/
inductive Stage where
  | polling
  | finished
  | dropping
  | dropped
deriving DecidableEq, Repr

namespace Stage

def after (poll drop : UserSite) (stage : Stage) (site : UserSite)
    (step : UserStep V) : Option Stage :=
  if site = poll then
    match stage, step with
    | .polling, .continues => some .polling
    | .polling, .returns none => some .polling
    | .polling, .returns (some _) => some .finished
    | .polling, .panics => some .finished
    | _, _ => none
  else if site = drop then
    match stage, step with
    | .dropped, _ => none
    | _, .continues => some .dropping
    | _, _ => some .dropped
  else
    some stage

end Stage

/--
The stage that a future has come to with the steps of a log.  There is none if
it was polled after it had finished, or dropped twice.
-/
def stageOf (poll drop : UserSite) : List (UserSite × UserStep V) -> Option Stage
  | [] => some .polling
  | (site, step) :: rest =>
      (stageOf poll drop rest).bind fun stage =>
        stage.after poll drop site step

/-- The futures that the runtime guards, with the places of their code. -/
inductive Guarded : Site -> UserSite -> UserSite -> Prop where
  | init : Guarded .init .initPoll .initDrop
  | hook (child : Key) : Guarded (.hook child) (.hookPoll child) (.hookDrop child)
  | stop (reason : ExitReason) :
      Guarded (.onStop reason) (.stopPoll reason) (.stopDrop reason)

variable {site : Site} {poll drop : UserSite}

theorem Guarded.distinct (h : Guarded site poll drop) : drop ≠ poll := by
  cases h <;> intro heq <;> cases heq

def pollWith {γ : Type} (pass : V -> γ) (site : UserSite) : P V (Unit ⊕ γ) := do
  match ← runUser site with
  | none => return .inl ()
  | some value => return .inr (pass value)

end Loac

import Loac.World

/-!
# The order of user code

The user code of an actor runs in an order that an automaton describes.  An
actor is initialized; then handlers are constructed, replies are polled and
hooks of children run, each of them alone; then the shutdown hook runs, after
which no hook runs any more and only a drain constructs handlers; then the stop
hook runs with the reason that the shutdown leads to.  Values are dropped in
between and at the end.
-/

namespace Loac

/-- How far the user code of an actor has come. -/
inductive Phase where
  | fresh
  /-- Inside the call that makes the future of `init`. -/
  | calling
  | initializing
  | running
  /-- A child was released for its exit event, and the gate was not asked. -/
  | released (child : Key)
  /-- The gate lets the hook of the child begin. -/
  | admitted (child : Key)
  | hooking (child : Key)
  /-- Inside the shutdown hook. -/
  | shutting (shutdown : Shutdown)
  | ending (shutdown : Shutdown)
  | stopping (reason : ExitReason)
  | complete
deriving DecidableEq, Repr

def Shutdown.reason : Shutdown -> ExitReason
  | .stop => .stopped
  | .drain => .drained
  | .kill => .killed

namespace UserSite

end UserSite

namespace Phase

/-- No user code is in the middle of something. -/
def lax : Phase -> Bool
  | .calling => false
  | .released _ => false
  | .admitted _ => false
  | .hooking _ => false
  | .shutting _ => false
  | _ => true

def polls : Phase -> Bool
  | .running => true
  | .ending _ => true
  | _ => false

def constructs : Phase -> Bool
  | .running => true
  | .ending .drain => true
  | _ => false

def hook (phase : Phase) (child : Key) (outcome : Outcome) : Option Phase :=
  if phase = .admitted child ∨ phase = .hooking child then
    match outcome with
    | .continues => some (.hooking child)
    | .pending => some (.hooking child)
    | .ready => some .running
    | .panicked => some .running
  else
    none

def initCall (phase : Phase) (outcome : Outcome) : Option Phase :=
  if phase = .fresh ∨ phase = .calling then
    match outcome with
    | .continues => some .calling
    | .pending => some .initializing
    | .ready => some .initializing
    | .panicked => some .complete
  else
    none

def initPoll (phase : Phase) (outcome : Outcome) : Option Phase :=
  if phase = .initializing then
    match outcome with
    | .continues => some .initializing
    | .pending => some .initializing
    | .ready => some .running
    | .panicked => some .complete
  else
    none

def onShutdown (phase : Phase) (shutdown : Shutdown) (outcome : Outcome) :
    Option Phase :=
  if (phase = .running ∨ phase = .shutting shutdown) ∧ shutdown ≠ .kill then
    match outcome with
    | .continues => some (.shutting shutdown)
    | .pending => some (.ending shutdown)
    | .ready => some (.ending shutdown)
    | .panicked => some .complete
  else
    none

/-- Whether the stop hook may run with this reason. -/
def stops (phase : Phase) (reason : ExitReason) : Bool :=
  match phase with
  | .ending shutdown => shutdown.reason = reason
  | .stopping reason' => reason' = reason
  | _ => false

def stopPoll (phase : Phase) (reason : ExitReason) (outcome : Outcome) :
    Option Phase :=
  if phase.stops reason then
    match outcome with
    | .continues => some (.stopping reason)
    | .pending => some (.stopping reason)
    | .ready => some .complete
    | .panicked => some .complete
  else
    none

/-- A value is dropped.  The hook's own future ends the hook. -/
def retire (phase : Phase) (site : UserSite) : Option Phase :=
  match phase, site with
  | .admitted child, .hookDrop child' =>
      if child = child' then some .running else none
  | .hooking child, .hookDrop child' =>
      if child = child' then some .running else none
  | phase, _ => if phase.lax then some phase else none

def user (phase : Phase) (site : UserSite) (outcome : Outcome) : Option Phase :=
  match site with
  | .initCall => phase.initCall outcome
  | .initPoll => phase.initPoll outcome
  | .construct _ => if phase.constructs then some phase else none
  | .replyPoll _ => if phase.polls then some phase else none
  | .hookPoll child => phase.hook child outcome
  | .onShutdown shutdown => phase.onShutdown shutdown outcome
  | .stopPoll reason => phase.stopPoll reason outcome
  | site => phase.retire site

def step (phase : Phase) : Entry -> Option Phase
  | .user site outcome => phase.user site outcome
  | .reaped child =>
      match phase with
      | .running => some (.released child)
      | .ending shutdown => some (.ending shutdown)
      | _ => none
  | .hookGate opened =>
      match phase, opened with
      | .released child, true => some (.admitted child)
      | .released _, false => some .running
      | .ending shutdown, false => some (.ending shutdown)
      | _, _ => none

/-- The phase that a course leads to, unless it is out of order. -/
def after : List Entry -> Option Phase
  | [] => some .fresh
  | entry :: rest => (after rest).bind (fun phase => phase.step entry)

theorem after_cons {entry : Entry} {course : List Entry} {phase : Phase}
    (h : after course = some phase) :
    after (entry :: course) = phase.step entry := by
  rw [after, h]
  rfl

end Phase

end Loac

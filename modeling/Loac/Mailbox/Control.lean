import Loac.Lifecycle

/-!
# The lifecycle gate

One value, the mode, decides every lifecycle question of an actor.  It only
changes in transactions, which run one at a time, and a transaction that
changes it leaves a hint for the actor task.  The hint is a notification with
one stored permit.
-/

namespace Loac

inductive Mode where
  | running
  | draining
  | stopping
  | killing
  | failing
  | aborting
  | exited (status : ExitStatus)
deriving DecidableEq

inductive CallPhase where
  | queued
  | dispatching
deriving DecidableEq, Repr

namespace Mode

/-- The modes in which no user work is retained any more. -/
def isHard : Mode -> Bool
  | .killing => true
  | .failing => true
  | .aborting => true
  | .exited _ => true
  | _ => false

def isExited : Mode -> Bool
  | .exited _ => true
  | _ => false

end Mode

/-!
## Transactions
-/

inductive Transaction : Type -> Type where
  | beginChildHook : Transaction Bool
  | beginInitialization : Transaction Bool
  | request (shutdown : Shutdown) : Transaction ShutdownStatus
  | beginFailure : Transaction Unit
  | beginAbort : Transaction Unit
  | finish (proposed : ExitStatus) : Transaction ExitStatus
  | beginDispatch : Transaction (Except CallError Unit)
  | beginCompletion : Transaction (Except CallError Unit)

def callFailureFor (mode : Mode) (phase : CallPhase) : CallError :=
  let reason : ExitReason :=
    match mode with
    | .stopping => if phase = .queued then .stopped else .panicked
    | .killing => .killed
    | .failing => .panicked
    | .aborting => .aborted
    | .exited status => status.reason
    | .running => .panicked
    | .draining => .panicked
  match phase with
  | .queued => .beforeDispatch reason
  | .dispatching => .duringDispatch reason

def beginChildHook (mode : Mode) : Mode × Bool :=
  (mode, mode = .running)

def beginInitialization (mode : Mode) : Mode × Bool :=
  match mode with
  | .running => (mode, true)
  | .draining => (mode, true)
  | .stopping => (mode, true)
  | _ => (mode, false)

def request (mode : Mode) (shutdown : Shutdown) : Mode × ShutdownStatus :=
  match mode, shutdown with
  | .exited status, _ => (mode, .exited status)
  | .running, .stop => (.stopping, .requested)
  | .running, .drain => (.draining, .requested)
  | .running, .kill => (.killing, .requested)
  | .draining, .kill => (.killing, .requested)
  | .stopping, .kill => (.killing, .requested)
  | .draining, _ => (mode, .inProgress .drain)
  | .stopping, _ => (mode, .inProgress .stop)
  | .killing, _ => (mode, .inProgress .kill)
  | .failing, _ => (mode, .inProgress .kill)
  | .aborting, _ => (mode, .inProgress .kill)

def beginFailure (mode : Mode) : Mode :=
  match mode with
  | .running => .failing
  | .draining => .failing
  | .stopping => .failing
  | _ => mode

def beginAbort (mode : Mode) : Mode :=
  match mode with
  | .exited _ => mode
  | _ => .aborting

def finishReason (mode : Mode) (proposed : ExitReason) : ExitReason :=
  match mode, proposed with
  | _, .aborted => .aborted
  | .aborting, _ => .aborted
  | .killing, _ => .killed
  | .failing, _ => .panicked
  | _, reason => reason

def finish (mode : Mode) (proposed : ExitStatus) : Mode × ExitStatus :=
  match mode with
  | .exited status => (mode, status)
  | _ =>
      let status :=
        ExitStatus.new (finishReason mode proposed.reason) proposed.subtree
      (.exited status, status)

def beginDispatch (mode : Mode) : Mode × Except CallError Unit :=
  match mode with
  | .running => (mode, .ok ())
  | .draining => (mode, .ok ())
  | _ => (mode, .error (callFailureFor mode .queued))

def beginCompletion (mode : Mode) : Mode × Except CallError Unit :=
  match mode with
  | .running => (mode, .ok ())
  | .draining => (mode, .ok ())
  | .stopping => (mode, .ok ())
  | _ => (mode, .error (callFailureFor mode .dispatching))

def Transaction.run {α : Type} : Transaction α -> Mode -> Mode × α
  | .beginChildHook, mode => Loac.beginChildHook mode
  | .beginInitialization, mode => Loac.beginInitialization mode
  | .request shutdown, mode => Loac.request mode shutdown
  | .beginFailure, mode => (Loac.beginFailure mode, ())
  | .beginAbort, mode => (Loac.beginAbort mode, ())
  | .finish proposed, mode => Loac.finish mode proposed
  | .beginDispatch, mode => Loac.beginDispatch mode
  | .beginCompletion, mode => Loac.beginCompletion mode

/-!
## The order of modes

A transaction either leaves the mode alone or moves it forward.  Only the task
of the actor itself aborts or exits; everybody else can merely press for it.
-/

/-- The mode changes that a shutdown request or a failure makes. -/
inductive Mode.Presses : Mode -> Mode -> Prop where
  | stop : Presses .running .stopping
  | drain : Presses .running .draining
  | kill {mode : Mode} : mode.isHard = false -> Presses mode .killing
  | fail {mode : Mode} : mode.isHard = false -> Presses mode .failing

/-- The mode changes that some transaction makes. -/
inductive Mode.Advances : Mode -> Mode -> Prop where
  | press {mode next : Mode} : mode.Presses next -> Advances mode next
  | abort {mode : Mode} : (forall status, mode ≠ .exited status) ->
      Advances mode .aborting
  | exit {mode : Mode} {status : ExitStatus} :
      (forall status, mode ≠ .exited status) -> Advances mode (.exited status)

theorem request_presses (mode : Mode) (shutdown : Shutdown) :
    (request mode shutdown).1 = mode ∨
      mode.Presses (request mode shutdown).1 := by
  cases mode <;> cases shutdown <;> first
    | exact Or.inl rfl
    | exact Or.inr .stop
    | exact Or.inr .drain
    | exact Or.inr (.kill rfl)

theorem beginFailure_presses (mode : Mode) :
    beginFailure mode = mode ∨ mode.Presses (beginFailure mode) := by
  cases mode <;> first
    | exact Or.inl rfl
    | exact Or.inr (.fail rfl)

theorem Transaction.run_advances {α : Type} (t : Transaction α) (mode : Mode) :
    (t.run mode).1 = mode ∨ mode.Advances (t.run mode).1 := by
  cases t with
  | beginChildHook => exact Or.inl rfl
  | beginInitialization => cases mode <;> exact Or.inl rfl
  | request shutdown => exact (request_presses mode shutdown).imp_right .press
  | beginFailure => exact (beginFailure_presses mode).imp_right .press
  | beginAbort =>
      cases mode <;> first
        | exact Or.inl rfl
        | exact Or.inr (.abort (by simp))
  | finish proposed =>
      cases mode <;> first
        | exact Or.inl rfl
        | exact Or.inr (.exit (by simp))
  | beginDispatch => cases mode <;> exact Or.inl rfl
  | beginCompletion => cases mode <;> exact Or.inl rfl

theorem Mode.Presses.soft {mode next : Mode} (h : mode.Presses next) :
    mode.isHard = false := by
  cases h with
  | stop => rfl
  | drain => rfl
  | kill hsoft => exact hsoft
  | fail hsoft => exact hsoft

theorem Mode.Advances.ne_running {mode next : Mode}
    (h : mode.Advances next) : next ≠ .running := by
  cases h with
  | press h => cases h <;> simp
  | abort _ => simp
  | exit _ => simp

theorem Mode.Advances.isHard {mode next : Mode} (h : mode.Advances next)
    (hhard : mode.isHard = true) : next.isHard = true := by
  cases h with
  | press h =>
      rw [h.soft] at hhard
      cases hhard
  | abort _ => rfl
  | exit _ => rfl

theorem Mode.Advances.from_running {mode next : Mode}
    (h : mode.Advances next) (hsoft : next.isHard = false) :
    mode = .running := by
  cases h with
  | press h =>
      cases h with
      | stop => rfl
      | drain => rfl
      | kill _ => cases hsoft
      | fail _ => cases hsoft
  | abort _ => cases hsoft
  | exit _ => cases hsoft

theorem Mode.Advances.not_exited {mode next : Mode}
    (h : mode.Advances next) (status : ExitStatus) :
    mode ≠ .exited status := by
  cases h with
  | press h =>
      intro heq
      have hsoft := h.soft
      rw [heq] at hsoft
      cases hsoft
  | abort hne => exact hne status
  | exit hne => exact hne status

theorem Mode.Presses.tentative {mode next : Mode}
    (h : mode.Presses next) :
    next ≠ .aborting ∧ next.isExited = false := by
  cases h <;> exact ⟨by simp, rfl⟩

theorem beginFailure_isHard (mode : Mode) : (beginFailure mode).isHard = true := by
  cases mode <;> rfl

theorem request_kill_isHard (mode : Mode) :
    (request mode .kill).1.isHard = true := by
  cases mode <;> rfl

/-- What must have been committed for a reason to be given. -/
def Justified (committed : List Mode) : ExitReason -> Prop
  | .stopped => .stopping ∈ committed
  | .drained => .draining ∈ committed
  | .killed => .killing ∈ committed
  | .panicked => .failing ∈ committed
  | .aborted => .aborting ∈ committed

theorem Justified.mono {committed committed' : List Mode} {reason : ExitReason}
    (hsub : forall mode, mode ∈ committed -> mode ∈ committed')
    (h : Justified committed reason) : Justified committed' reason := by
  cases reason <;> exact hsub _ h

/-!
## Notification

The actor task is the only waiter.  A notification that reaches the waiter is
passed on when the waiter is dropped before it consumed it.
-/

structure Notify where
  /-- A stored notification. -/
  permit : Bool
  /-- The registered waiter, and whether it was notified. -/
  waiter : Option Bool
deriving DecidableEq, Repr

namespace Notify

def new : Notify where
  permit := false
  waiter := none

def notifyOne (notify : Notify) : Notify :=
  match notify.waiter with
  | some false => { notify with waiter := some true }
  | _ => { notify with permit := true }

def wakes (notify : Notify) : Bool :=
  notify.waiter = some false

/-- Polls the waiter, which registers itself the first time. -/
def poll (notify : Notify) : Notify × Bool :=
  match notify.waiter with
  | some true => ({ notify with waiter := none }, true)
  | some false => (notify, false)
  | none =>
      if notify.permit then
        ({ notify with permit := false }, true)
      else
        ({ notify with waiter := some false }, false)

def dropWaiter (notify : Notify) : Notify :=
  match notify.waiter with
  | some true => { permit := true, waiter := none }
  | _ => { notify with waiter := none }

def pending (notify : Notify) : Bool :=
  notify.permit || notify.waiter = some true

end Notify

structure Control where
  mode : Mode
  /-- The modes that were committed, the latest first. -/
  committed : List Mode
  actorWake : Notify
deriving DecidableEq

namespace Control

def new : Control where
  mode := .running
  committed := [.running]
  actorWake := .new

def commit (control : Control) (next : Mode) : Control :=
  if control.mode = next then
    control
  else
    { mode := next
      committed := next :: control.committed
      actorWake := control.actorWake.notifyOne }

def transact {α : Type} (control : Control) (t : Transaction α) : Control × α :=
  (control.commit (t.run control.mode).1, (t.run control.mode).2)

def wakes (control : Control) (next : Mode) : Bool :=
  control.mode ≠ next && control.actorWake.wakes

theorem commit_self (control : Control) : control.commit control.mode = control :=
  if_pos rfl

@[simp] theorem commit_mode (control : Control) (next : Mode) :
    (control.commit next).mode = next := by
  unfold commit
  by_cases h : control.mode = next
  · rw [if_pos h, h]
  · rw [if_neg h]

end Control

end Loac

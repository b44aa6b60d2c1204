import Loac.Interleave.Prog
import Loac.Mailbox.Transport
import Loac.Supervision

/-!
# One actor and everything around it

The state of one actor is spread over its gate, its scheduler, its mailbox and
its children.  The actor task works on it one operation at a time.  In between
clients send messages, wakers of replies are invoked, owners request shutdown,
and children run their own lives.

User code that the actor task executes is one operation after another as well.
It may take and drop the lease of its reply, spawn children where it has the
scope for it, return, or panic.  Whatever else it does is what any other thread
could do.
-/

namespace Loac

open Interleave

structure ActorConfig where
  /-- The transport, unless the actor has no mailbox. -/
  mailbox : Option Transport
  /-- The limit of active replies, if it is finite. -/
  limit : Option Nat
  limitPositive : forall n, limit = some n -> 0 < n
  mailboxDispatchBudget : Nat
  budgetPositive : 0 < mailboxDispatchBudget
  /-- The children profile: disabled, unbounded, or bounded by a limit. -/
  children : Option (Option Nat)
  /-- Whether the actor is the child of another one. -/
  parent : Bool

/-- The places at which the actor task runs user code. -/
inductive UserSite where
  | args
  | initCall
  | initPoll
  | initDrop
  /-- The actor value, dropped inside a containment boundary or with its frame. -/
  | actor (contained : Bool)
  | onShutdown (shutdown : Shutdown)
  | hookPoll (child : Key)
  | hookDrop (child : Key)
  | stopPoll (reason : ExitReason)
  | stopDrop (reason : ExitReason)
  | construct (key : Key)
  | replyPoll (key : Key)
  /-- The future of a reply, dropped by a teardown that clears the queue or not. -/
  | replyDrop (key : Key) (cleared : Bool)
  | message
  | writer
  | value
  | finalSend
  /-- The waker of a caller that waits for its response. -/
  | responseWaker
  /-- The waker of a client that waits for capacity. -/
  | capacityWaker
  /-- The waker of somebody who watches the mode. -/
  | modeWaker
deriving DecidableEq, Repr

namespace UserSite

/-- Whether it is the waker of somebody else, whose panics blame nobody. -/
def foreign : UserSite -> Bool
  | .responseWaker => true
  | .capacityWaker => true
  | .modeWaker => true
  | _ => false

/-- The reply whose access handle is in reach. -/
def cx : UserSite -> Option Key
  | .construct key => some key
  | .replyPoll key => some key
  | .replyDrop key _ => some key
  | _ => none

/-- Whether the scope that spawns children is in reach. -/
def scope : UserSite -> Bool
  | .initCall => true
  | .initPoll => true
  | .initDrop => true
  | .hookPoll _ => true
  | .hookDrop _ => true
  | .construct _ => true
  | .replyPoll _ => true
  | .replyDrop _ _ => true
  | _ => false

end UserSite

inductive UserStep (V : Type) where
  | continues
  /-- A poll that returns nothing is pending. -/
  | returns (value : Option V)
  | panics

/-- How a step of user code ends. -/
inductive Outcome where
  | continues
  | pending
  | ready
  | panicked
deriving DecidableEq, Repr

def UserStep.outcome {V : Type} : UserStep V -> Outcome
  | .continues => .continues
  | .returns none => .pending
  | .returns (some _) => .ready
  | .panics => .panicked

/-- The places at which the actor task is suspended. -/
inductive Site where
  | start
  | init
  /-- A turn, for as long as the mode is the one it expects. -/
  | turn (expectedMode : Mode)
  | hook (child : Key)
  | discard (initialized : Bool)
  | finishReplies
  | children
  | onStop (reason : ExitReason)
  | waitAll (initialized : Bool)
deriving DecidableEq

/-- Places of the source that no operation marks. -/
inductive Point where
  /-- Hard teardown starts to wait for the children. -/
  | hardWait
  | gracefulFinish (shutdown : Shutdown)
  /-- A running actor finds its inbox closed. -/
  | inboxClosed
  /-- The discard of a stop observes a mode that it excludes. -/
  | impossibleMode
  /-- A panic leaves the poll of the actor task. -/
  | unwound
deriving DecidableEq, Repr

/-- What the actor task did that its user code can tell. -/
inductive Entry where
  | user (site : UserSite) (outcome : Outcome)
  /-- The registration of a child is released for its exit event. -/
  | reaped (child : Key)
  /-- The gate lets the hook of a child begin, or it does not. -/
  | hookGate (opened : Bool)
deriving DecidableEq, Repr

structure Life where
  started : Bool
  /-- The user code that panicked, the latest first. -/
  panics : List UserSite
  /-- The exit events sent to the parent, the latest first. -/
  exits : List ExitStatus
  /-- The course of the actor task, the latest entry first. -/
  course : List Entry
deriving DecidableEq

namespace Life

def note (life : Life) (entry : Entry) : Life :=
  { life with course := entry :: life.course }

def noteTransaction (life : Life) {α : Type} : Transaction α -> α -> Life
  | .beginChildHook, opened => life.note (.hookGate opened)
  | _, _ => life

def noteKin (life : Life) {α : Type} : KinOp α -> α -> Life
  | .reap event, true => life.note (.reaped event.child)
  | _, _ => life

/-- Everything but the course is the same. -/
structure Continues (life life' : Life) : Prop where
  started : life'.started = life.started
  panics : life'.panics = life.panics
  exits : life'.exits = life.exits

theorem noteTransaction_continues (life : Life) {α : Type} (t : Transaction α)
    (a : α) : life.Continues (life.noteTransaction t a) := by
  cases t <;> exact ⟨rfl, rfl, rfl⟩

theorem noteKin_continues (life : Life) {α : Type} (op : KinOp α) (a : α) :
    life.Continues (life.noteKin op a) := by
  unfold noteKin
  split <;> exact ⟨rfl, rfl, rfl⟩

end Life

structure World (V : Type) where
  control : Control
  /-- A wake of the actor task is outstanding. -/
  task : Bool
  sched : Sched
  mail : Mail V
  kin : Kin
  life : Life

def World.new (V : Type) : World V where
  control := .new
  task := false
  sched := .new
  mail := .new
  kin := .new
  life := { started := false, panics := [], exits := [], course := [] }

/-!
## Operations of the actor task
-/

inductive Op (V : Type) : Type -> Type 1 where
  | mode : Op V Mode
  /-- Whether the mode is another one than the caller works for. -/
  | differs (expected : Mode) : Op V Bool
  | transact {α : Type} (t : Transaction α) : Op V α
  | pollNotified : Op V Bool
  | dropNotified : Op V Unit
  | wakeTask : Op V Unit
  | suspend (site : Site) : Op V Unit
  | reach (point : Point) : Op V Unit
  | user (site : UserSite) : Op V (UserStep V)
  | sched {α : Type} (op : SchedOp α) : Op V α
  | mail {α : Type} (op : MailOp V α) : Op V α
  | kin {α : Type} (op : KinOp α) : Op V α
  /-- Spawns the actor of an unstarted spawner, or drops the spawner. -/
  | spawn : Op V Bool
  | start : Op V Unit
  /--
  Sends the exit event.  The waker of the parent's task, which the executor owns,
  does not panic here.
  -/
  | publish (status : ExitStatus) : Op V Unit

inductive UserAct (V : Type) where
  | acquireLease
  | releaseLease
  | spawnChild
  | returns (value : Option V)
  | panics

inductive Input (V : Type) where
  | next
  | early
  /-- The cooperative budget of the task is used up. -/
  | exhausted
  /-- A foreign waker that the operation invokes panics. -/
  | wakerPanics
  | user (act : UserAct V)
  | spawn (started : Bool)
  | abort

namespace Input

variable {V : Type}

def reception : Input V -> Reception
  | .early => .early
  | .exhausted => .refused
  | _ => .regular

def wakerPanicked : Input V -> Bool
  | .wakerPanics => true
  | _ => false

end Input

/--
A foreign waker panics in the operation that invokes it.  The runtime contains
the panic where it does so, in the transactions and in the wakers that clients
leave with a transport.  When it wakes its own task, it contains a panic of that
waker as well, which leaves nothing behind.
-/
def Life.invoke (life : Life) (waker : UserSite) (panicked : Bool) : Life :=
  { life with panics := if panicked then waker :: life.panics else life.panics }

@[simp, grind =] theorem Life.invoke_course (life : Life) (waker : UserSite)
    (panicked : Bool) : (life.invoke waker panicked).course = life.course := rfl

namespace World

variable {V : Type}

def transact {α : Type} (w : World V) (t : Transaction α) : World V × α :=
  ({ w with
    control := (w.control.transact t).1
    task := w.task || w.control.wakes (t.run w.control.mode).1 },
    (w.control.transact t).2)

/-- Wakes the actor task if the flag says that a waker was registered. -/
def wakeIf (w : World V) (registered : Bool) : World V :=
  { w with task := w.task || registered }

def recordReturn (w : World V) (site : UserSite) (value : Option V) : World V :=
  match site, value with
  | .replyPoll key, some v =>
      let log :=
        match (w.sched.items.get? key).bind ScheduledFuture.reply with
        | some (.caller id) => (id, v) :: w.mail.returned
        | _ => w.mail.returned
      { w with
        sched := w.sched.setReturned key
        mail := { w.mail with returned := log } }
  | _, _ => w

def userStep (A : ActorConfig) (w : World V) (site : UserSite) :
    UserAct V -> Option (World V × UserStep V)
  | .acquireLease =>
      match site.cx with
      | some key =>
          some ({ w with
            sched := { w.sched with lease := some key }
            life := w.life.note (.user site .continues) }, .continues)
      | none => none
  | .releaseLease =>
      match site.cx with
      | some _ =>
          some ({ w with
            sched := { w.sched with lease := none }
            life := w.life.note (.user site .continues) }, .continues)
      | none => none
  | .spawnChild =>
      match A.children, site.scope with
      | some limit, true =>
          -- A refused spawn leaves the registrations as they are.
          some ({ w with
            kin := (ActorScope.spawnChild limit w.kin () ()).1
            life := w.life.note (.user site .continues) }, .continues)
      | _, _ => none
  | .returns value =>
      some ({ w.recordReturn site value with
        life := w.life.note (.user site (UserStep.returns value).outcome) },
        .returns value)
  | .panics =>
      some ({ w with
        life := { w.life.note (.user site .panicked) with
          panics := site :: w.life.panics } }, .panics)

end World

/-- Whether the operation may hand capacity to the clients that wait for it. -/
def MailOp.frees {V α : Type} : MailOp V α -> Bool
  | .close => true
  | .pollRecv _ => true
  | .tryRecv => true
  | _ => false

def Op.exec {V α : Type} (A : ActorConfig) :
    Op V α -> Input V -> World V -> Option (World V × α)
  | .mode, _, w => some (w, w.control.mode)
  | .differs expected, _, w => some (w, w.control.mode ≠ expected)
  | .transact t, input, w =>
      let r := w.transact t
      some ({ r.1 with
        life := (w.life.noteTransaction t r.2).invoke .modeWaker
          input.wakerPanicked }, r.2)
  | .pollNotified, _, w =>
      let (notify, notified) := w.control.actorWake.poll
      some ({ w with control := { w.control with actorWake := notify } }, notified)
  | .dropNotified, _, w =>
      let notify := w.control.actorWake.dropWaiter
      some ({ w with control := { w.control with actorWake := notify } }, ())
  | .wakeTask, _, w => some (w.wakeIf true, ())
  | .suspend _, _, w =>
      if w.task then
        some ({ w with task := false }, ())
      else
        none
  | .reach _, _, w => some (w, ())
  | .user site, .user act, w => w.userStep A site act
  | .user _, _, _ => none
  | .sched op, _, w =>
      some ({ w with sched := (op.exec w.sched).1 }, (op.exec w.sched).2)
  | .mail op, input, w =>
      let transport := A.mailbox.getD .unbounded
      let r := op.exec transport w.control.mode input.reception w.mail
      some ({ w with
        task := op.refuses input.reception || w.task
        mail := r.1
        life := w.life.invoke .capacityWaker
          (op.frees && input.wakerPanicked) }, r.2)
  | .kin op, input, w =>
      let r := op.exec input.reception w.kin
      some ({ w with
        task := op.refuses input.reception || w.task
        kin := r.1
        life := w.life.noteKin op r.2 }, r.2)
  | .spawn, .spawn started, w => some (w, started)
  | .spawn, _, _ => none
  | .start, _, w =>
      some ({ w.wakeIf true with life := { w.life with started := true } }, ())
  | .publish status, _, w =>
      some ({ w with life := { w.life with exits := status :: w.life.exits } }, ())

/-!
## Steps of the environment
-/

inductive EnvAct where
  | request (shutdown : Shutdown)
  /-- Some other thread commits the failure of the actor. -/
  | fail
  | wakeTask
  | reserve
  | release
  /-- A client that finds the transport or the gate closed gives up. -/
  | refuse
  | admitEnvelope (kind : Kind)
  | abandon (id : Nat)
  | notifySwap (key : Key)
  | notifyPush (index : Nat)
  | notifyWake (index : Nat)
  | child (key : Key) (act : ChildAct)
  | childPublish (key : Key)
deriving DecidableEq

def EnvAct.exec {V : Type} (A : ActorConfig) :
    EnvAct -> World V -> Option (World V)
  | .request shutdown, w => some (w.transact (.request shutdown)).1
  | .fail, w => some (w.transact .beginFailure).1
  | .wakeTask, w => some (w.wakeIf true)
  | .reserve, w =>
      match A.mailbox with
      | some transport =>
          (w.mail.reserve transport).map (fun mail => { w with mail := mail })
      | none => none
  | .release, w =>
      w.mail.release.map (fun mail =>
        { w with mail := mail }.wakeIf (w.mail.waker && !mail.waker))
  | .refuse, w =>
      if A.mailbox.isSome && (w.mail.closed || w.control.mode ≠ .running) then
        some { w with mail := w.mail.refuse }
      else
        none
  | .admitEnvelope kind, w =>
      (w.mail.admitEnvelope w.control.mode kind).map (fun mail =>
        { w with mail := mail }.wakeIf (w.mail.waker && !mail.waker))
  | .abandon id, w => some { w with mail := w.mail.abandon id }
  | .notifySwap key, w =>
      if key < w.sched.items.next then
        some { w with sched := w.sched.notifySwap key }
      else
        none
  | .notifyPush index, w =>
      (w.sched.notifyPush index).map (fun sched => { w with sched := sched })
  | .notifyWake index, w =>
      (w.sched.notifyWake index).map (fun r =>
        { w with sched := r.1 }.wakeIf r.2)
  | .child key act, w =>
      if key < w.kin.next then
        let r := w.kin.advance key (act.next (w.kin.children key).mode)
        some ({ w with kin := r.1 }.wakeIf r.2)
      else
        none
  | .childPublish key, w =>
      if key < w.kin.next then
        (w.kin.publish key).map (fun kin =>
          { w with kin := kin }.wakeIf w.kin.waker)
      else
        none

end Loac

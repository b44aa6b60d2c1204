import Loac.Interleave.Slots
import Loac.Mailbox.Control

/-!
# Scheduler state

Replies live in a slot map.  A wake of a reply sets its ready flag, queues its
key if the flag was clear, and then wakes the actor task through the waker the
last poll left behind.  The three steps are taken apart here, because other
threads take them.  The scheduler polls the replies whose keys it finds in the
ready queue, and only the holder of the lease while there is one.
-/

namespace Loac

open Interleave

abbrev Key := Nat

inductive ReplyLane where
  | mailbox
  | reply
  | childExit
deriving DecidableEq, Repr

def ReplyLane.next : ReplyLane -> ReplyLane
  | .mailbox => .reply
  | .reply => .childExit
  | .childExit => .mailbox

structure TurnContext where
  receiveMessages : Bool
  expectedMode : Mode
deriving DecidableEq

inductive Reception where
  | regular
  /-- An inbox that merely conforms to the laws reports its closure already. -/
  | early
  /--
  The cooperative budget of the task is used up.  Whatever is queued, the poll
  is pending and wakes the task.
  -/
  | refused
deriving DecidableEq, Repr

inductive DispatchReply where
  | caller (id : Nat)
  | oneWay (id : Nat)
deriving DecidableEq, Repr

def DispatchReply.id : DispatchReply -> Nat
  | .caller id => id
  | .oneWay id => id

/-- The runtime part of a scheduled future, around the handler's own future. -/
inductive ReplyFuture where
  | completeReply (reply : Option DispatchReply)
  | finishStream (finalTx : Bool)
deriving DecidableEq, Repr

structure ScheduledFuture where
  future : ReplyFuture
  /-- The handler's future has returned its value. -/
  returned : Bool
deriving DecidableEq, Repr

def ScheduledFuture.reply (scheduled : ScheduledFuture) : Option DispatchReply :=
  match scheduled.future with
  | .completeReply reply => reply
  | .finishStream _ => none

/-!
The wake state of a reply outlives the reply, because wakers do.  Polls are
counted when they take the ready flag, and the wakes that set the flag are
counted apart from the one that came with the dispatch.
-/

structure ReplyWake where
  ready : Bool
  /-- A waker of the actor task is registered. -/
  task : Bool
  polls : Nat
  sets : Nat
  marks : Nat
deriving DecidableEq, Repr

def ReplyWake.new : ReplyWake where
  ready := false
  task := false
  polls := 0
  sets := 0
  marks := 0

structure NotifyCall where
  key : Key
  /-- The key still has to be queued. -/
  push : Bool
  /-- The polls of the reply that had begun when the flag was set. -/
  seen : Nat
deriving DecidableEq, Repr

structure Sched where
  items : Slots ScheduledFuture
  ready : List Key
  lease : Option Key
  cursor : ReplyLane
  wakes : Key -> ReplyWake
  calls : List NotifyCall
  finished : List NotifyCall

namespace Sched

def new : Sched where
  items := .empty
  ready := []
  lease := none
  cursor := .mailbox
  wakes := fun _ => .new
  calls := []
  finished := []

def setWake (sched : Sched) (key : Key) (wake : ReplyWake) : Sched :=
  { sched with wakes := Function.update sched.wakes key wake }

/-!
## Steps of the actor task
-/

/-- Marks the implicit first poll of a dispatched reply. -/
def markReady (sched : Sched) (key : Key) : Sched :=
  if (sched.wakes key).ready then
    sched
  else
    { sched.setWake key { sched.wakes key with
        ready := true, marks := (sched.wakes key).marks + 1 } with
      ready := sched.ready ++ [key] }

def takeReady (sched : Sched) (key : Key) : Sched × Bool :=
  if (sched.wakes key).ready then
    (sched.setWake key { sched.wakes key with
      ready := false, polls := (sched.wakes key).polls + 1 }, true)
  else
    (sched, false)

def register (sched : Sched) (key : Key) : Sched :=
  sched.setWake key { sched.wakes key with task := true }

def popReady (sched : Sched) : Sched × Option Key :=
  match sched.ready with
  | [] => (sched, none)
  | key :: rest => ({ sched with ready := rest }, some key)

def remove (sched : Sched) (key : Key) : Sched × Option ScheduledFuture :=
  ({ sched with items := sched.items.remove key }, sched.items.get? key)

def drain (sched : Sched) : Sched × Option (Key × ScheduledFuture) :=
  match sched.items.entries with
  | [] => (sched, none)
  | entry :: _ =>
      ({ sched with items := sched.items.remove entry.1 }, some entry)

def takeReply (sched : Sched) (key : Key) : Sched × Option DispatchReply :=
  match sched.items.get? key with
  | some { future := .completeReply reply, .. } =>
      ({ sched with items := sched.items.modify key fun scheduled =>
          { scheduled with future := .completeReply none } }, reply)
  | _ => (sched, none)

def takeFinal (sched : Sched) (key : Key) : Sched × Bool :=
  match sched.items.get? key with
  | some { future := .finishStream finalTx, .. } =>
      ({ sched with items := sched.items.modify key fun scheduled =>
          { scheduled with future := .finishStream false } }, finalTx)
  | _ => (sched, false)

/-- Records that the handler's future has returned. -/
def setReturned (sched : Sched) (key : Key) : Sched :=
  { sched with items := sched.items.modify key fun scheduled =>
      { scheduled with returned := true } }

/-!
## Steps of a wake
-/

def notifySwap (sched : Sched) (key : Key) : Sched :=
  if (sched.wakes key).ready then
    { sched with
      calls := sched.calls ++
        [{ key := key, push := false, seen := (sched.wakes key).polls }] }
  else
    { sched.setWake key { sched.wakes key with
        ready := true, sets := (sched.wakes key).sets + 1 } with
      calls := sched.calls ++
        [{ key := key, push := true, seen := (sched.wakes key).polls }] }

def notifyPush (sched : Sched) (index : Nat) : Option Sched :=
  match sched.calls[index]? with
  | some { key, push := true, seen } =>
      some { sched with
        calls := sched.calls.set index { key, push := false, seen }
        ready := sched.ready ++ [key] }
  | _ => none

/-- The last step of a wake, and whether it found a waker to wake. -/
def notifyWake (sched : Sched) (index : Nat) : Option (Sched × Bool) :=
  match sched.calls[index]? with
  | some { key, push := false, seen } =>
      some ({ sched.setWake key { sched.wakes key with task := false } with
        calls := sched.calls.eraseIdx index
        finished := { key, push := false, seen } :: sched.finished },
        (sched.wakes key).task)
  | _ => none

end Sched

/-!
## Operations
-/

inductive SchedOp : Type -> Type where
  | held : SchedOp (Option Key)
  | forceRelease : SchedOp Unit
  | length : SchedOp Nat
  | isEmpty : SchedOp Bool
  | cursor : SchedOp ReplyLane
  | setCursor (lane : ReplyLane) : SchedOp Unit
  | reserve : SchedOp Key
  | markReady (key : Key) : SchedOp Unit
  | place (key : Key) (future : ReplyFuture) : SchedOp Unit
  | find (key : Key) : SchedOp (Option ScheduledFuture)
  | takeReady (key : Key) : SchedOp Bool
  | register (key : Key) : SchedOp Unit
  | popReady : SchedOp (Option Key)
  | readyIsEmpty (turn : TurnContext) : SchedOp Bool
  | remove (key : Key) : SchedOp (Option ScheduledFuture)
  | drain : SchedOp (Option (Key × ScheduledFuture))
  | takeReply (key : Key) : SchedOp (Option DispatchReply)
  | takeFinal (key : Key) : SchedOp Bool

def SchedOp.exec {α : Type} : SchedOp α -> Sched -> Sched × α
  | .held, sched => (sched, sched.lease)
  | .forceRelease, sched => ({ sched with lease := none }, ())
  | .length, sched => (sched, sched.items.length)
  | .isEmpty, sched => (sched, sched.items.isEmpty)
  | .cursor, sched => (sched, sched.cursor)
  | .setCursor lane, sched => ({ sched with cursor := lane }, ())
  | .reserve, sched =>
      ({ sched.setWake sched.items.next .new with
        items := sched.items.reserve }, sched.items.next)
  | .markReady key, sched => (sched.markReady key, ())
  | .place key future, sched =>
      ({ sched with
        items := sched.items.place key { future := future, returned := false } },
        ())
  | .find key, sched => (sched, sched.items.get? key)
  | .takeReady key, sched => sched.takeReady key
  | .register key, sched => (sched.register key, ())
  | .popReady, sched => sched.popReady
  | .readyIsEmpty _, sched => (sched, sched.ready.isEmpty)
  | .remove key, sched => sched.remove key
  | .drain, sched => sched.drain
  | .takeReply key, sched => sched.takeReply key
  | .takeFinal key, sched => sched.takeFinal key

end Loac

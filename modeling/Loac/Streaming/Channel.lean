import Loac.Interleave.Logic
import Loac.Lifecycle

/-!
# Streamed replies

A handler of a stream writes items into a bounded channel and sends its final
value through another one.  The caller reads the items, one by one or not at
all, and finishes.  The handler and the caller run on tasks of their own.
-/

namespace Loac

open Interleave Interleave.Prog

variable {T F α : Type}

def itemSlots : Nat := 8

inductive StreamOut where
  | held
  /-- The writer was leaked, and its sender stays open. -/
  | forgotten
  | dropped
deriving DecidableEq, Repr

inductive Handling (F : Type) where
  | running
  | returned (value : F)
  /-- The future was dropped before it returned. -/
  | dropped
deriving DecidableEq, Repr

/-- A future that is dropped while it runs does not return any more. -/
def Handling.abandon : Handling F -> Handling F
  | .running => .dropped
  | handling => handling

inductive FinalChannel (F : Type) where
  | waiting
  | sent (value : F)
  /-- The sender is gone. -/
  | closed
deriving DecidableEq, Repr

inductive ItemPoll (T : Type) where
  | item (item : T)
  /-- All senders are gone, and the channel is empty. -/
  | ended
  | pending
deriving DecidableEq, Repr

inductive ItemAnswer (T : Type) where
  /-- There is no answer if the caller dropped the future of `recv`. -/
  | recv (answer : Option (Option T))
  | poll (poll : ItemPoll T)
deriving DecidableEq, Repr

def ItemAnswer.item : ItemAnswer T -> Option T
  | .recv (some (some item)) => some item
  | .poll (.item item) => some item
  | _ => none

def ItemAnswer.isEnd : ItemAnswer T -> Bool
  | .recv (some none) => true
  | .poll .ended => true
  | _ => false

structure Exchange (T F : Type) where
  /-- The items in the channel, the oldest first. -/
  items : List T
  /-- The item of a write that was not completed. -/
  write : Option T
  /-- The write waits for a free slot. -/
  blocked : Bool
  out : StreamOut
  handling : Handling F
  final : FinalChannel F
  /-- The caller holds its receivers. -/
  held : Bool
  itemWaker : Bool
  finalWaker : Bool
  /-- The task of the caller was woken. -/
  task : Bool
  /-- The caller finishes the reply. -/
  finishing : Bool
  written : List T
  /-- The items that left the channel before the caller finished. -/
  received : List T
  /-- What the caller was given, the oldest first. -/
  heard : List (ItemAnswer T)
  discarded : List T
  /-- What the caller did to finish since there is a final value, or none. -/
  steps : Nat
deriving DecidableEq, Repr

namespace Exchange

def new : Exchange T F where
  items := []
  write := none
  blocked := false
  out := .held
  handling := .running
  final := .waiting
  held := true
  itemWaker := false
  finalWaker := false
  task := false
  finishing := false
  written := []
  received := []
  heard := []
  discarded := []
  steps := 0

/-!
## Wakers
-/

def wakeItems (s : Exchange T F) : Exchange T F :=
  { s with task := s.task || s.itemWaker, itemWaker := false }

def wakeFinal (s : Exchange T F) : Exchange T F :=
  { s with task := s.task || s.finalWaker, finalWaker := false }

def isDecided (s : Exchange T F) : Bool :=
  match s.final with
  | .waiting => false
  | _ => true

/-- Counts one operation of a caller that could be done. -/
def count (s : Exchange T F) : Exchange T F :=
  if s.finishing && s.isDecided then { s with steps := s.steps + 1 } else s

/-!
## The caller
-/

/-- An item leaves the channel, and the waiting write is woken. -/
def pop (s : Exchange T F) (item : T) (rest : List T) : Exchange T F :=
  if s.finishing then
    { s with items := rest, blocked := false, discarded := s.discarded ++ [item] }
  else
    { s with items := rest, blocked := false, received := s.received ++ [item] }

end Exchange

inductive FinalPoll (F : Type) where
  | value (value : F)
  | lost
  | pending
deriving DecidableEq, Repr

namespace Exchange

def pollRecv (s : Exchange T F) : Exchange T F × ItemPoll T :=
  match s.items with
  | item :: rest => (s.pop item rest, .item item)
  | [] =>
      match s.out with
      | .dropped => (s, .ended)
      | _ => ({ s with itemWaker := true }, .pending)

def tryRecv (s : Exchange T F) : Exchange T F × Option T :=
  match s.items with
  | item :: rest => (s.pop item rest, some item)
  | [] => (s, none)

def pollFinal (s : Exchange T F) : Exchange T F × FinalPoll F :=
  match s.final with
  | .sent value => (s, .value value)
  | .closed => (s, .lost)
  | .waiting => ({ s with finalWaker := true }, .pending)

/-- The receivers go, with what is in the channel, and a write is woken. -/
def dropReply (s : Exchange T F) : Exchange T F :=
  { s with held := false, blocked := false, items := [],
           discarded := s.discarded ++ s.items }

end Exchange

inductive CallerAct where
  | recv
  /-- A single poll of the stream of items. -/
  | pollNext
  | finish
  | drop
deriving DecidableEq, Repr

inductive StreamOp (T F : Type) : Type -> Type 1 where
  | next : StreamOp T F CallerAct
  /-- The caller is given what it asked for. -/
  | hear (heard : ItemAnswer T) : StreamOp T F Unit
  | pollRecv : StreamOp T F (ItemPoll T)
  | tryRecv : StreamOp T F (Option T)
  | pollFinal : StreamOp T F (FinalPoll F)
  /-- The branch that a poll of `select!` starts with. -/
  | branch : StreamOp T F Bool
  /-- The future is pending, until it is polled again or dropped. -/
  | suspend : StreamOp T F Bool
  | dropReply : StreamOp T F Unit

inductive StreamInput where
  | act (act : CallerAct)
  | branch (itemFirst : Bool)
  | resume
  /-- The caller drops the future that it awaits. -/
  | cancel
deriving DecidableEq, Repr

def StreamOp.exec : StreamOp T F α -> StreamInput -> Exchange T F ->
    Option (Exchange T F × α)
  | .next, .act chosen, s =>
      some ({ s with finishing := chosen = .finish }, chosen)
  | .next, _, _ => none
  | .hear heard, _, s => some ({ s with heard := s.heard ++ [heard] }, ())
  | .pollRecv, _, s => some s.count.pollRecv
  | .tryRecv, _, s => some s.count.tryRecv
  | .pollFinal, _, s => some s.count.pollFinal
  | .branch, .branch itemFirst, s => some (s.count, itemFirst)
  | .branch, _, _ => none
  | .suspend, .resume, s =>
      if s.task then some ({ s.count with task := false }, true) else none
  | .suspend, .cancel, s => some (s.count, false)
  | .suspend, _, _ => none
  | .dropReply, _, s => some (s.count.dropReply, ())

/-!
## The handler
-/

inductive HandlerAct (T F : Type) where
  /-- A write begins. -/
  | write (item : T)
  /-- The future of a write is polled. -/
  | pollWrite
  | cancelWrite
  | dropWriter
  | forgetWriter
  /-- The future of the handler returns, and the final value is sent. -/
  | returns (value : F)
  /-- The future of the handler is dropped, with what it still holds. -/
  | dropFuture
  /-- The sender of the final value is dropped after the future. -/
  | dropFinal
  /-- Something else wakes the task of the caller. -/
  | wakeCaller
deriving DecidableEq, Repr

namespace Exchange

def isRunning (s : Exchange T F) : Bool :=
  match s.handling with
  | .running => true
  | _ => false

/-- The write gets a slot, waits for one, or finds the channel closed. -/
def pollWrite (s : Exchange T F) (item : T) : Exchange T F :=
  if s.held = false then
    { s with write := none, blocked := false }
  else if s.items.length < itemSlots then
    { s.wakeItems with items := s.items ++ [item], written := s.written ++ [item],
                       write := none, blocked := false }
  else
    { s with blocked := true }

def dropWriter (s : Exchange T F) : Exchange T F :=
  { s.wakeItems with out := .dropped, write := none, blocked := false }

/-- A future that is dropped takes its write and its writer along. -/
def dropFuture (s : Exchange T F) : Exchange T F :=
  if s.out = .held then
    { s.dropWriter with handling := s.handling.abandon }
  else
    { s with handling := s.handling.abandon }

end Exchange

def HandlerAct.exec : HandlerAct T F -> Exchange T F -> Option (Exchange T F)
  | .write item, s =>
      if s.isRunning ∧ s.out = .held ∧ s.write = none then
        some { s with write := some item }
      else
        none
  | .pollWrite, s =>
      match s.write with
      | some item => some (s.pollWrite item)
      | none => none
  | .cancelWrite, s =>
      if s.isRunning then some { s with write := none, blocked := false } else none
  | .dropWriter, s =>
      if s.out = .held ∧ s.write = none then some s.dropWriter else none
  | .forgetWriter, s =>
      if s.out = .held ∧ s.write = none then some { s with out := .forgotten }
      else none
  | .returns value, s =>
      if s.isRunning then
        some { s.wakeFinal with handling := .returned value, final := .sent value,
                                write := none, blocked := false }
      else
        none
  | .dropFuture, s => some s.dropFuture
  | .dropFinal, s =>
      match s.handling with
      | .dropped => some { s.wakeFinal with final := .closed }
      | _ => none
  | .wakeCaller, s => some { s with task := true }

/-!
## Reading the reply
-/

abbrev Caller (T F : Type) : Type -> Type 1 :=
  Prog (StreamOp T F)

namespace StreamReply

/-- Receives the next item, unless the caller drops the future before. -/
def recv : Caller T F (Option (Option T)) :=
  iter () fun _ => do
    match ← perform .pollRecv with
    | .item item => done (some (some item))
    | .ended => done (some none)
    | .pending =>
        if ← perform .suspend then
          again ()
        else
          done none

inductive Selected (F : Type) where
  | item
  | ended
  | result (result : Except CallError F)

def itemBranch : Caller T F (Option (Selected F)) := do
  match ← perform .pollRecv with
  | .item _ => return some .item
  | .ended => return some .ended
  | .pending => return none

def resultBranch : Caller T F (Option (Selected F)) := do
  match ← perform .pollFinal with
  | .value value => return some (.result (.ok value))
  | .lost => return some (.result (.error .responseLost))
  | .pending => return none

/-- Each poll begins with a branch chosen at random. -/
def select : Caller T F (Option (Selected F)) :=
  iter () fun _ => do
    let itemFirst ← perform .branch
    match ← if itemFirst then itemBranch else resultBranch with
    | some selected => done (some selected)
    | none =>
        match ← if itemFirst then resultBranch else itemBranch with
        | some selected => done (some selected)
        | none =>
            if ← perform .suspend then
              again ()
            else
              done none

def awaitFinal : Caller T F (Option (Except CallError F)) :=
  iter () fun _ => do
    match ← perform .pollFinal with
    | .value value => done (some (.ok value))
    | .lost => done (some (.error .responseLost))
    | .pending =>
        if ← perform .suspend then
          again ()
        else
          done none

def drainItems : Caller T F Unit :=
  iter () fun _ => do
    match ← perform .tryRecv with
    | some _ => again ()
    | none => done ()

def finish : Caller T F (Option (Except CallError F)) := do
  let result ← iter () fun _ => do
    match ← select with
    | none => done none
    | some .item => again ()
    | some .ended => do
        let result ← awaitFinal
        done result
    | some (.result result) => do
        drainItems
        done (some result)
  perform .dropReply
  return result

end StreamReply

/-- A caller uses its reply as it likes, and gives it up at last. -/
def caller : Caller T F (Option (Except CallError F)) :=
  iter () fun _ => do
    match ← perform .next with
    | .recv => do
        let answer ← StreamReply.recv
        perform (.hear (.recv answer))
        again ()
    | .pollNext => do
        let poll ← perform .pollRecv
        perform (.hear (.poll poll))
        again ()
    | .finish => do
        let result ← StreamReply.finish
        done result
    | .drop => do
        perform .dropReply
        done none

def streaming (T F : Type) :
    Machine (StreamOp T F) (Exchange T F) StreamInput (HandlerAct T F)
      (Option (Except CallError F)) where
  exec := StreamOp.exec
  env := HandlerAct.exec
  cancel := fun _ _ => none

end Loac

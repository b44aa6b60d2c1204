import Loac.Runtime.Lifetime

/-!
# Addresses

An address sends messages.  A message is enqueued in two steps: its client
reserves a place in the transport and then commits to it while the lifecycle
gate is open.  A client that finds no place may wait for one, and gives up when
the mode changes.

Clients watch the mode through receivers of their own.  A transaction that
changes the mode first stores it and then notifies whoever is registered, so a
notification can be under way while the change is already visible.
-/

namespace Loac

open Interleave Interleave.Prog

inductive TryReserveError where
  | full
  | closed
deriving DecidableEq, Repr

inductive ReservePoll where
  | pending
  | reserved
  | closed
deriving DecidableEq, Repr

inductive Admission where
  | accepted (id : Nat)
  | rejected
  | backendClosed
deriving DecidableEq, Repr

inductive CapacityReservation where
  | reserved
  | closed
  | transportClosed
deriving DecidableEq, Repr

/-!
## Operations
-/

/-- What a client learns that decides how it answers. -/
inductive Observation where
  | reservation (error : TryReserveError)
  | running (running : Bool)
deriving DecidableEq, Repr

structure Station where
  /-- How many mode changes its receiver has seen, if it has one. -/
  seen : Option Nat
  /-- The next notification wakes its task. -/
  registered : Bool
  /-- A wake of its task is outstanding. -/
  task : Bool
  /-- A reservation is held. -/
  permit : Bool
  /-- What was observed, the latest first. -/
  observed : List Observation
  /-- The envelope that was enqueued. -/
  enqueued : Option Envelope
  /-- The mode was `running` when the operation started. -/
  opened : Bool
deriving DecidableEq

namespace Station

def new (opened : Bool) : Station where
  seen := none
  registered := false
  task := false
  permit := false
  observed := []
  enqueued := none
  opened := opened

def observe (station : Station) (observation : Observation) : Station :=
  { station with observed := observation :: station.observed }

def hear (station : Station) : Station :=
  { station with
    registered := false
    task := station.task || station.registered }

def wake (station : Station) : Station :=
  { station with task := true }

end Station

structure View (V : Type) where
  world : World V
  /-- The mode changes whose notification is under way. -/
  notices : Nat
  station : Station

def Control.changes (control : Control) : Nat :=
  control.committed.length

namespace View

variable {V : Type}

/-- The world becomes another one.  Every mode change will be notified. -/
def evolve (v : View V) (w : World V) : View V :=
  { v with
    world := w
    notices := v.notices + (w.control.changes - v.world.control.changes) }

def act (A : ActorConfig) (v : View V) (e : EnvAct) : Option (View V) :=
  (e.exec A v.world).map v.evolve

def setStation (v : View V) (station : Station) : View V :=
  { v with station := station }

end View

inductive ClientOp : Type -> Type 1 where
  | tryReserve : ClientOp (Except TryReserveError Unit)
  | isRunning : ClientOp Bool
  | subscribeMode : ClientOp Unit
  | pollReserveOwned : ClientOp ReservePoll
  | pollChanged : ClientOp Bool
  | suspend : ClientOp Unit
  /-- Drops both futures that a waiting client selects from. -/
  | dropSelect : ClientOp Unit
  | admitKind (kind : Kind) : ClientOp Admission
  /-- Drops a reservation that was not used. -/
  | release : ClientOp Unit
  | beginFailure : ClientOp Unit

inductive ClientInput where
  | next
  | grant
  | deny
  | cancel
deriving DecidableEq, Repr

def View.askReservation {V α : Type} (A : ActorConfig) (v : View V)
    (input : ClientInput) (granted : α) (denied closed : View V × α) :
    Option (View V × α) :=
  match A.mailbox with
  | none => none
  | some transport =>
      if v.world.mail.closed then
        some closed
      else
        match input with
        | .grant =>
            (v.act A .reserve).map (fun v' =>
              (v'.setStation { v.station with permit := true }, granted))
        | .deny =>
            -- A free place may have been promised to a client that waits.
            if transport = .unbounded then none else some denied
        | _ => none

def ClientOp.exec {V α : Type} (A : ActorConfig) :
    ClientOp α -> ClientInput -> View V -> Option (View V × α)
  | .tryReserve, input, v =>
      let failed (error : TryReserveError) : View V × Except TryReserveError Unit :=
        (v.setStation (v.station.observe (.reservation error)), .error error)
      v.askReservation A input (.ok ()) (failed .full) (failed .closed)
  | .isRunning, _, v =>
      let running : Bool := v.world.control.mode = .running
      some (v.setStation (v.station.observe (.running running)), running)
  | .subscribeMode, _, v =>
      some (v.setStation { v.station with
        seen := some v.world.control.changes }, ())
  | .pollReserveOwned, input, v =>
      v.askReservation A input .reserved (v, .pending) (v, .closed)
  | .pollChanged, _, v =>
      if v.station.seen = some v.world.control.changes then
        some (v.setStation { v.station with registered := true }, false)
      else
        some (v.setStation { v.station with
          seen := some v.world.control.changes
          registered := false }, true)
  | .suspend, _, v =>
      if v.station.task then
        some (v.setStation { v.station with task := false }, ())
      else
        none
  | .dropSelect, _, v =>
      some (v.setStation { v.station with registered := false }, ())
  | .admitKind kind, _, v =>
      if v.world.control.mode = .running then
        if v.world.mail.closed then
          -- Enqueueing fails and uses the reservation up.
          (v.act A .release).map (fun v' =>
            (v'.setStation { v.station with permit := false }, .backendClosed))
        else
          let envelope : Envelope := { id := v.world.mail.nextId, kind := kind }
          (v.act A (.admitEnvelope kind)).map (fun v' =>
            (v'.setStation { v.station with
              permit := false
              enqueued := some envelope }, .accepted envelope.id))
      else
        (v.act A (.admitEnvelope kind)).map (fun v' => (v', .rejected))
  | .release, _, v =>
      (v.act A .release).map (fun v' =>
        (v'.setStation { v.station with permit := false }, ()))
  | .beginFailure, _, v => (v.act A .fail).map (fun v' => (v', ()))

/-!
## Admission
-/

abbrev C : Type -> Type 1 :=
  Prog ClientOp

def failTransportClosed {α : Type} : C α := do
  -- Dropping the value can merely commit the failure again.
  perform .beginFailure
  .throw

/-- Commits a reserved mailbox slot while admission remains open. -/
def admitReserved (kind : Kind) : C (Except Unit Nat) := do
  match ← perform (.admitKind kind) with
  | .accepted id => return .ok id
  | .rejected => return .error ()
  | .backendClosed => failTransportClosed

def admitInputs {T : Type} (kind : Kind) (inputs : T) : C (Except T Nat) := do
  match ← admitReserved kind with
  | .ok id => return .ok id
  | .error () => do
      perform .release
      return .error inputs

def selectReservation (_ : Unit) : C (Unit ⊕ CapacityReservation) := do
  match ← perform .pollReserveOwned with
  | .reserved => done .reserved
  | .closed => done .transportClosed
  | .pending => do
      if ← perform .pollChanged then
        done .closed
      else
        perform .suspend
        again ()

def reserveOwnedCapacity : C CapacityReservation := do
  perform .subscribeMode
  if ← perform .isRunning then
    let reservation ← iter () selectReservation
    perform .dropSelect
    match reservation with
    | .transportClosed => do
        if ← perform .isRunning then
          return .transportClosed
        else
          return .closed
    | reservation => return reservation
  else
    return .closed

/-!
## Sending
-/

inductive TryErrorKind where
  | full
  | closed
deriving DecidableEq, Repr

structure TryError (M : Type) where
  kind : TryErrorKind
  message : M

structure SendError (M : Type) where
  message : M

structure SendToError (M W : Type) where
  message : M
  out : W

structure ReplyReceiver where
  id : Nat
deriving DecidableEq, Repr

/-- How a handler replies to a message, which the type of the message says. -/
inductive ReplyKind where
  | single
  | stream
deriving DecidableEq, Repr

def ReplyKind.call : ReplyKind -> Kind
  | .single => .call
  | .stream => .stream

namespace ActorRef

variable {M W T : Type}

def admitCall (kind : ReplyKind) (message : M) : C (Except M Nat) :=
  admitInputs kind.call message

def admitSend (message : M) : C (Except M Nat) :=
  admitInputs .send message

def admitStreamCall (message : M) (out : W) : C (Except (M × W) Nat) :=
  admitInputs .callTo (message, out)

def admitStreamSend (message : M) (out : W) : C (Except (M × W) Nat) :=
  admitInputs .sendTo (message, out)

/-- Attempts admission without waiting for capacity. -/
def tryReserving (message : M) (accept : C (Except M Nat)) :
    C (Except (TryError M) Nat) := do
  match ← perform .tryReserve with
  | .error .full => do
      if ← perform .isRunning then
        return .error { kind := .full, message := message }
      else
        return .error { kind := .closed, message := message }
  | .error .closed => do
      if ← perform .isRunning then
        failTransportClosed
      else
        return .error { kind := .closed, message := message }
  | .ok () => do
      match ← accept with
      | .ok id => return .ok id
      | .error message => return .error { kind := .closed, message := message }

def whenReserved (inputs : T) (accept : C (Except T Nat)) : C (Except T Nat) := do
  match ← reserveOwnedCapacity with
  | .reserved => accept
  | .closed => return .error inputs
  | .transportClosed => failTransportClosed

/-- Attempts admission at once, and after waiting if there was no capacity. -/
def reserving (attempt : C (Except (TryError M) Nat))
    (accept : M -> C (Except M Nat)) : C (Except M Nat) := do
  match ← attempt with
  | .ok id => return .ok id
  | .error error =>
      match error.kind with
      | .closed => return .error error.message
      | .full => whenReserved error.message (accept error.message)

def tryCall (kind : ReplyKind) (message : M) :
    C (Except (TryError M) ReplyReceiver) := do
  match ← tryReserving message (admitCall kind message) with
  | .ok id => return .ok { id := id }
  | .error error => return .error error

def trySend (message : M) : C (Except (TryError M) Unit) := do
  match ← tryReserving message (admitSend message) with
  | .ok _ => return .ok ()
  | .error error => return .error error

/-- A call up to its admission; what follows awaits the response. -/
def call (kind : ReplyKind) (message : M) : C (Except CallError ReplyReceiver) := do
  match ← reserving (tryReserving message (admitCall kind message))
    (admitCall kind) with
  | .ok id => return .ok { id := id }
  | .error _ => return .error .closed

def send (message : M) : C (Except (SendError M) Unit) := do
  match ← reserving (tryReserving message (admitSend message)) admitSend with
  | .ok _ => return .ok ()
  | .error message => return .error { message := message }

/-- A call up to its admission; what follows awaits the response. -/
def callTo (message : M) (out : W) : C (Except CallError ReplyReceiver) := do
  match ← whenReserved (message, out) (admitStreamCall message out) with
  | .ok id => return .ok { id := id }
  | .error _ => return .error .closed

def sendTo (message : M) (out : W) : C (Except (SendToError M W) Unit) := do
  match ← whenReserved (message, out) (admitStreamSend message out) with
  | .ok _ => return .ok ()
  | .error (message, out) => return .error { message := message, out := out }

end ActorRef

/-!
## The operations of a client
-/

inductive Request (M W : Type) where
  | tryCall (kind : ReplyKind) (message : M)
  | trySend (message : M)
  | call (kind : ReplyKind) (message : M)
  | send (message : M)
  | callTo (message : M) (out : W)
  | sendTo (message : M) (out : W)

inductive Answer (M W : Type) where
  | tryCall (result : Except (TryError M) ReplyReceiver)
  | trySend (result : Except (TryError M) Unit)
  | call (result : Except CallError ReplyReceiver)
  | send (result : Except (SendError M) Unit)
  | callTo (result : Except CallError ReplyReceiver)
  | sendTo (result : Except (SendToError M W) Unit)
  /-- The future was dropped before it was ready. -/
  | cancelled

variable {M W : Type}

def Request.run : Request M W -> C (Answer M W)
  | .tryCall kind message => do
      return .tryCall (← ActorRef.tryCall kind message)
  | .trySend message => do
      return .trySend (← ActorRef.trySend message)
  | .call kind message => do
      return .call (← ActorRef.call kind message)
  | .send message => do
      return .send (← ActorRef.send message)
  | .callTo message out => do
      return .callTo (← ActorRef.callTo message out)
  | .sendTo message out => do
      return .sendTo (← ActorRef.sendTo message out)

namespace Answer

def accepted : Answer M W -> Bool
  | .tryCall (.ok _) => true
  | .trySend (.ok _) => true
  | .call (.ok _) => true
  | .send (.ok _) => true
  | .callTo (.ok _) => true
  | .sendTo (.ok _) => true
  | _ => false

def receiver : Answer M W -> Option ReplyReceiver
  | .tryCall (.ok receiver) => some receiver
  | .call (.ok receiver) => some receiver
  | .callTo (.ok receiver) => some receiver
  | _ => none

def isClosed : Answer M W -> Bool
  | .tryCall (.error error) => error.kind = .closed
  | .trySend (.error error) => error.kind = .closed
  | .call (.error error) => error = .closed
  | .send (.error _) => true
  | .callTo (.error error) => error = .closed
  | .sendTo (.error _) => true
  | _ => false

def isFull : Answer M W -> Bool
  | .tryCall (.error error) => error.kind = .full
  | .trySend (.error error) => error.kind = .full
  | _ => false

end Answer

def Request.waits : Request M W -> Bool
  | .tryCall _ _ => false
  | .trySend _ => false
  | .call _ _ => true
  | .send _ => true
  | .callTo _ _ => true
  | .sendTo _ _ => true

def Request.Answers : Request M W -> Answer M W -> Prop
  | .tryCall _ message, .tryCall result =>
      forall error, result = .error error -> error.message = message
  | .trySend message, .trySend result =>
      forall error, result = .error error -> error.message = message
  | .call _ _, .call result => forall error, result = .error error ->
      error = .closed
  | .send message, .send result =>
      forall error, result = .error error -> error.message = message
  | .callTo _ _, .callTo result => forall error, result = .error error ->
      error = .closed
  | .sendTo message out, .sendTo result => forall error,
      result = .error error -> error.message = message ∧ error.out = out
  | request, .cancelled => request.waits = true
  | _, _ => False

def clientCancel {α : Type} : ClientOp α -> ClientInput ->
    Option (C (Answer M W))
  | .suspend, .cancel => some do
      perform .dropSelect
      return .cancelled
  | _, _ => none

inductive ViewAct (V : Type) where
  | world (w : World V)
  | notice
  /-- The transport, or anybody else, wakes the task of the client. -/
  | wake

def ViewAct.exec {V : Type} : ViewAct V -> View V -> Option (View V)
  | .world w, v => some (v.evolve w)
  | .notice, v =>
      match v.notices with
      | 0 => none
      | notices + 1 =>
          some { v with notices := notices, station := v.station.hear }
  | .wake, v => some (v.setStation v.station.wake)

def clientMachine (V M W : Type) (A : ActorConfig) :
    Machine ClientOp (View V) ClientInput (ViewAct V) (Answer M W) where
  exec := ClientOp.exec A
  env := ViewAct.exec
  cancel := clientCancel

/-!
## An actor and its clients
-/

structure Errand (M W : Type) where
  request : Request M W
  station : Station
  prog : C (Answer M W)

namespace Errand

def new (request : Request M W) (opened : Bool) : Errand M W where
  request := request
  station := .new opened
  prog := request.run

def setStation (errand : Errand M W) (station : Station) : Errand M W :=
  { errand with station := station }

def proceed {V : Type} (errand : Errand M W)
    (c : Config ClientOp (View V) (Answer M W)) : Errand M W :=
  { errand with station := c.state.station, prog := c.prog }

def enqueued (errand : Errand M W) : Option Envelope :=
  errand.station.enqueued

end Errand

/-- An actor, and all the operations that its clients ever started. -/
structure Market (V M W : Type) where
  actor : ActorState V
  notices : Nat
  errands : List (Errand M W)

/-- The steps of an actor's environment that only its clients take. -/
def EnvAct.isClient : EnvAct -> Bool
  | .reserve => true
  | .release => true
  | .refuse => true
  | .admitEnvelope _ => true
  | _ => false

def Event.isClient {V : Type} : Event (Input V) EnvAct -> Bool
  | .env e => e.isClient
  | .actor _ => false

inductive MarketEvent (V M W : Type) where
  | actor (event : Event (Input V) EnvAct)
  | start (request : Request M W)
  | errand (index : Nat) (input : ClientInput)
  | notice
  | wake (index : Nat)

namespace Market

variable {V : Type} {A : ActorConfig}

def view (market : Market V M W) (station : Station) : View V where
  world := market.actor.state
  notices := market.notices
  station := station

def config (market : Market V M W) (errand : Errand M W) :
    Config ClientOp (View V) (Answer M W) where
  state := market.view errand.station
  prog := errand.prog

def new (V M W : Type) (A : ActorConfig) : Market V M W where
  actor := initial V A
  notices := 0
  errands := []

def step (A : ActorConfig) (market : Market V M W) :
    MarketEvent V M W -> Option (Market V M W)
  | .actor event =>
      if Event.isClient event then
        none
      else
        ((machine V A).step market.actor event).map (fun actor =>
          { market with
            actor := actor
            notices := market.notices +
              (actor.state.control.changes -
                market.actor.state.control.changes) })
  | .start request =>
      if A.mailbox.isSome then
        some { market with
          errands := market.errands ++
            [.new request (market.actor.state.control.mode = .running)] }
      else
        none
  | .errand index input =>
      match market.errands[index]? with
      | none => none
      | some errand =>
          ((clientMachine V M W A).stepActor input
            (market.config errand)).map (fun c =>
              { actor := { market.actor with state := c.state.world }
                notices := c.state.notices
                errands := market.errands.set index (errand.proceed c) })
  | .notice =>
      match market.notices with
      | 0 => none
      | notices + 1 =>
          some { market with
            notices := notices
            errands := market.errands.map (fun errand =>
              errand.setStation errand.station.hear) }
  | .wake index =>
      match market.errands[index]? with
      | none => none
      | some errand =>
          some { market with
            errands := market.errands.set index
              (errand.setStation errand.station.wake) }

inductive Runs (A : ActorConfig) (start : Market V M W) :
    Market V M W -> Prop where
  | refl : Runs A start start
  | step {market market' : Market V M W} (event : MarketEvent V M W) :
      Runs A start market -> market.step A event = some market' ->
        Runs A start market'

end Market

end Loac

import Loac.Scheduling.State

/-!
# Mailbox transports

A transport moves accepted envelopes from the clients to the actor task, in
the order in which they were enqueued.  What a transport may do beyond that
differs: the bounded one counts reservations and reports its closure only when
none is left, the unbounded one knows no reservations, and one that merely
conforms to the laws may report the closure of an empty inbox sooner or later.

The state keeps a ledger next to the queue: which envelopes were admitted,
what became of each of them, and what their callers were told.
-/

namespace Loac

inductive Transport where
  | bounded (capacity : Nat)
  | unbounded
  | conforming
deriving DecidableEq, Repr

inductive Kind where
  | call
  | stream
  | send
  | callTo
  | sendTo
deriving DecidableEq, Repr

/-- Whether a caller waits for a result. -/
def Kind.hasReceiver : Kind -> Bool
  | .call => true
  | .stream => true
  | .send => false
  | .callTo => true
  | .sendTo => false

structure Envelope where
  id : Nat
  kind : Kind
deriving DecidableEq, Repr

inductive Received where
  | envelope (envelope : Envelope)
  | closed
  | pending
deriving DecidableEq, Repr

/-- What a caller is told.  A call of a stream is answered with its handle. -/
inductive Response (V : Type) where
  | ok (value : Option V)
  | error (error : CallError)
deriving DecidableEq

structure Mail (V : Type) where
  queue : List Envelope
  closed : Bool
  reserved : Nat
  /-- The actor task is registered with the receiver. -/
  waker : Bool
  /-- The identity of the next message that a client tries to send. -/
  nextId : Nat
  /-- The accepted envelopes, in the order of their admission. -/
  admitted : List Envelope
  /-- The messages whose admission failed. -/
  refused : List Nat
  /-- The calls whose response was dropped. -/
  abandoned : List Nat
  /-- The envelopes taken out for a dispatch attempt, in that order. -/
  attempted : List Envelope
  /-- The envelopes taken out to be discarded, in that order. -/
  discarded : List Envelope
  /-- The envelopes taken out whose dispatch is not decided. -/
  hand : List Envelope
  dispatched : List Envelope
  rejected : List Envelope
  /-- The messages whose completion was committed. -/
  completed : List Nat
  /-- The values that handlers returned. -/
  returned : List (Nat × V)
  responses : List (Nat × Response V)

namespace Mail

variable {V : Type}

def new : Mail V where
  queue := []
  closed := false
  reserved := 0
  waker := false
  nextId := 0
  admitted := []
  refused := []
  abandoned := []
  attempted := []
  discarded := []
  hand := []
  dispatched := []
  rejected := []
  completed := []
  returned := []
  responses := []

/-!
## Steps of the clients
-/

def hasCapacity (mail : Mail V) : Transport -> Bool
  | .bounded capacity => mail.queue.length + mail.reserved < capacity
  | .unbounded => true
  | .conforming => true

def reserve (mail : Mail V) (transport : Transport) : Option (Mail V) :=
  if !mail.closed && mail.hasCapacity transport then
    some { mail with reserved := mail.reserved + 1 }
  else
    none

/-- Drops a reservation.  The last one of a closed transport wakes the receiver. -/
def release (mail : Mail V) : Option (Mail V) :=
  match mail.reserved with
  | 0 => none
  | reserved + 1 =>
      some { mail with
        reserved := reserved
        waker := mail.waker && !(mail.closed && reserved = 0) }

/-- One more message is handed back without an attempt to enqueue it. -/
def refuse (mail : Mail V) : Mail V :=
  { mail with
    nextId := mail.nextId + 1
    refused := mail.nextId :: mail.refused }

/--
Uses a reservation for a message of the given kind.  It is enqueued while the
mode is `running`.  Otherwise the message is handed back, and so is the
reservation, which is released by a step of its own.  An open gate in front of
a closed transport is not a step: a transport closes after the gate did.
-/
def admitEnvelope (mail : Mail V) (mode : Mode) (kind : Kind) : Option (Mail V) :=
  match mail.reserved with
  | 0 => none
  | reserved + 1 =>
      if mode = .running then
        if mail.closed then
          none
        else
          let envelope : Envelope := { id := mail.nextId, kind := kind }
          some { mail with
            queue := mail.queue ++ [envelope]
            reserved := reserved
            waker := false
            nextId := mail.nextId + 1
            admitted := mail.admitted ++ [envelope] }
      else
        some mail.refuse

def abandon (mail : Mail V) (id : Nat) : Mail V :=
  { mail with abandoned := id :: mail.abandoned }

/-!
## Steps of the actor task
-/

/-- Whether a closed and empty receiver reports its closure. -/
def settled (mail : Mail V) (reception : Reception) : Transport -> Bool
  | .bounded _ => mail.reserved = 0
  | .unbounded => true
  | .conforming => reception = .early

def pollRecv (mail : Mail V) (transport : Transport) (reception : Reception) :
    Mail V × Received :=
  if reception = .refused then
    (mail, .pending)
  else
    match mail.queue with
    | envelope :: rest =>
        ({ mail with
          queue := rest
          attempted := mail.attempted ++ [envelope]
          hand := envelope :: mail.hand }, .envelope envelope)
    | [] =>
        if mail.closed && mail.settled reception transport then
          (mail, .closed)
        else
          ({ mail with waker := true }, .pending)

/-- A poll that gives no envelope registers the task at most. -/
theorem pollRecv_idle {mail : Mail V} {transport : Transport}
    {reception : Reception}
    (h : forall e, (mail.pollRecv transport reception).2 ≠ .envelope e) :
    exists waker,
      (mail.pollRecv transport reception).1 = { mail with waker := waker } := by
  unfold pollRecv at h ⊢
  split
  · exact ⟨mail.waker, rfl⟩
  · rename_i hregular
    rw [if_neg hregular] at h
    cases hqueue : mail.queue with
    | cons envelope rest =>
        rw [hqueue] at h
        exact absurd rfl (h envelope)
    | nil =>
        dsimp only
        split
        · exact ⟨mail.waker, by rw [← hqueue]⟩
        · exact ⟨true, rfl⟩

theorem pollRecv_envelope {mail : Mail V} {transport : Transport}
    {reception : Reception} {envelope : Envelope}
    (h : (mail.pollRecv transport reception).2 = .envelope envelope) :
    exists rest, mail.queue = envelope :: rest ∧
      (mail.pollRecv transport reception).1 = { mail with
        queue := rest
        attempted := mail.attempted ++ [envelope]
        hand := envelope :: mail.hand } := by
  unfold pollRecv at h ⊢
  split at h
  · cases h
  · rename_i hregular
    rw [if_neg hregular]
    cases hqueue : mail.queue with
    | cons first rest =>
        rw [hqueue] at h
        cases h
        exact ⟨rest, rfl, rfl⟩
    | nil =>
        rw [hqueue] at h
        dsimp only at h
        split at h <;> cases h

theorem regular_of_pollRecv {mail : Mail V} {transport : Transport}
    {reception : Reception}
    (h : (mail.pollRecv transport reception).2 ≠ .pending) :
    reception ≠ .refused := by
  intro hrefused
  apply h
  rw [pollRecv, if_pos hrefused]

theorem refused_of_pollRecv {mail : Mail V} {transport : Transport}
    {reception : Reception} (hqueue : mail.queue ≠ [])
    (h : (mail.pollRecv transport reception).2 = .pending) :
    reception = .refused := by
  by_contra hregular
  rw [pollRecv, if_neg hregular] at h
  cases hmessages : mail.queue with
  | nil => exact hqueue hmessages
  | cons envelope rest =>
      rw [hmessages] at h
      cases h

theorem pollRecv_registers {mail : Mail V} {transport : Transport}
    {reception : Reception} (hregular : reception ≠ .refused)
    (h : (mail.pollRecv transport reception).2 = .pending) :
    (mail.pollRecv transport reception).1 = { mail with waker := true } ∧
      mail.queue = [] ∧ (mail.closed && mail.settled reception transport) = false := by
  have hqueue : mail.queue = [] := by
    by_contra hsome
    exact hregular (refused_of_pollRecv hsome h)
  rw [pollRecv, if_neg hregular, hqueue] at h ⊢
  dsimp only at h ⊢
  cases hsettled : mail.closed && mail.settled reception transport with
  | true =>
      rw [hsettled] at h
      cases h
  | false =>
      refine ⟨?_, rfl, rfl⟩
      rw [← hqueue]
      rfl

theorem pollRecv_closed {mail : Mail V} {transport : Transport}
    {reception : Reception}
    (h : (mail.pollRecv transport reception).2 = .closed) :
    (mail.pollRecv transport reception).1 = mail ∧ mail.queue = [] ∧
      mail.closed = true ∧ mail.settled reception transport = true := by
  unfold pollRecv at h ⊢
  by_cases hrefused : reception = .refused
  · rw [if_pos hrefused] at h
    cases h
  rw [if_neg hrefused] at h ⊢
  cases hqueue : mail.queue with
  | cons envelope rest =>
      rw [hqueue] at h
      cases h
  | nil =>
      rw [hqueue] at h
      dsimp only at h
      split at h
      · rename_i hsettled
        exact ⟨congrArg Prod.fst (if_pos hsettled), rfl,
          Bool.and_eq_true_iff.mp hsettled⟩
      · cases h

def tryRecv (mail : Mail V) : Mail V × Option Envelope :=
  match mail.queue with
  | [] => (mail, none)
  | envelope :: rest =>
      ({ mail with
        queue := rest
        discarded := mail.discarded ++ [envelope]
        rejected := envelope :: mail.rejected }, some envelope)

def reject (mail : Mail V) (envelope : Envelope) : Mail V :=
  if envelope ∈ mail.hand then
    { mail with
      hand := mail.hand.erase envelope
      rejected := envelope :: mail.rejected }
  else
    mail

/-- Whether the caller of an envelope in hand gave up, which rejects it. -/
def replyIsClosed (mail : Mail V) (envelope : Envelope) : Mail V × Bool :=
  if envelope.id ∈ mail.abandoned then
    (mail.reject envelope, true)
  else
    (mail, false)

def beginDispatch (mail : Mail V) (mode : Mode) (envelope : Envelope) :
    Mail V × Except CallError Unit :=
  match (Loac.beginDispatch mode).2 with
  | .ok () =>
      if envelope ∈ mail.hand then
        ({ mail with
          hand := mail.hand.erase envelope
          dispatched := envelope :: mail.dispatched }, .ok ())
      else
        (mail, .ok ())
  | .error error => (mail.reject envelope, .error error)

def beginCompletion (mail : Mail V) (mode : Mode) (id : Nat) :
    Mail V × Except CallError Unit :=
  match (Loac.beginCompletion mode).2 with
  | .ok () => ({ mail with completed := id :: mail.completed }, .ok ())
  | .error error => (mail, .error error)

/-- Sends a response, and whether its receiver is still there. -/
def respond (mail : Mail V) (id : Nat) (response : Response V) :
    Mail V × Bool :=
  ({ mail with responses := (id, response) :: mail.responses },
    id ∉ mail.abandoned)

end Mail

/-!
## Operations
-/

inductive MailOp (V : Type) : Type -> Type where
  | close : MailOp V Unit
  | isEmpty : MailOp V Bool
  | pollRecv (turn : TurnContext) : MailOp V Received
  | tryRecv : MailOp V (Option Envelope)
  | replyIsClosed (envelope : Envelope) : MailOp V Bool
  | beginDispatch (envelope : Envelope) : MailOp V (Except CallError Unit)
  | beginCompletion (id : Nat) : MailOp V (Except CallError Unit)
  | respond (id : Nat) (response : Response V) : MailOp V Bool

def MailOp.exec {V α : Type} (transport : Transport) (mode : Mode)
    (reception : Reception) : MailOp V α -> Mail V -> Mail V × α
  | .close, mail => ({ mail with closed := true }, ())
  | .isEmpty, mail => (mail, mail.queue.isEmpty)
  | .pollRecv _, mail => mail.pollRecv transport reception
  | .tryRecv, mail => mail.tryRecv
  | .replyIsClosed envelope, mail => mail.replyIsClosed envelope
  | .beginDispatch envelope, mail => mail.beginDispatch mode envelope
  | .beginCompletion id, mail => mail.beginCompletion mode id
  | .respond id response, mail => mail.respond id response

/-- Whether the receiver refuses the poll, which wakes the task. -/
def MailOp.refuses {V α : Type} : MailOp V α -> Reception -> Bool
  | .pollRecv _, reception => reception = .refused
  | _, _ => false

end Loac

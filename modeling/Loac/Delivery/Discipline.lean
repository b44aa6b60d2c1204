import Loac.Containment.Turns
import Loac.Delivery.Ledger
import Loac.EndOfLife.History

/-!
# What is promised to senders

Next to the ledger of the envelopes stands what their senders were told, and a
cutoff after which nothing is dispatched.  Every envelope but the last one that
was taken for dispatch was dispatched, unless its caller gave up.
-/

namespace Loac

open Interleave

variable {V α : Type} {A : ActorConfig} {w w' : World V}

def Closing (w : World V) : Prop :=
  w.control.mode ≠ .running

def Cut (w : World V) : Prop :=
  w.control.mode ≠ .running ∧ w.control.mode ≠ .draining

theorem Control.Moves.closing {control control' : Control}
    (h : control.Moves control') (hclosing : control.mode ≠ .running) :
    control'.mode ≠ .running := by
  cases h with
  | stays hmode _ => rwa [hmode]
  | advances hadvances _ => exact hadvances.ne_running

theorem Control.Moves.cut {control control' : Control}
    (h : control.Moves control')
    (hcut : control.mode ≠ .running ∧ control.mode ≠ .draining) :
    control'.mode ≠ .running ∧ control'.mode ≠ .draining := by
  refine ⟨h.closing hcut.left, ?_⟩
  cases h with
  | stays hmode _ =>
      rw [hmode]
      exact hcut.right
  | advances hadvances _ =>
      intro hdraining
      have hrunning := hadvances.from_running (by rw [hdraining]; rfl)
      exact hcut.left hrunning

def Mail.Settled (mail : Mail V) (envelope : Envelope) : Prop :=
  envelope ∈ mail.dispatched ∨
    (envelope ∈ mail.rejected ∧ envelope.kind.hasReceiver = true ∧
      envelope.id ∈ mail.abandoned)

/-- Every envelope that was taken for dispatch was decided in time. -/
def Mail.Punctual (mail : Mail V) : Prop :=
  forall envelope, envelope ∈ mail.attempted -> mail.Settled envelope

def Blames (committed : List Mode) (reason : ExitReason) : Prop :=
  Justified committed reason ∧ reason ≠ .drained

def Mail.Tells (committed : List Mode) (mail : Mail V) (id : Nat) :
    Response V -> Prop
  | .error (.beforeDispatch reason) =>
      (exists e, e ∈ mail.rejected ∧ e.id = id ∧ e.kind.hasReceiver = true) ∧
        (id ∈ mail.abandoned ∨ Blames committed reason)
  | .error (.duringDispatch reason) =>
      (exists e, e ∈ mail.dispatched ∧ e.id = id ∧
        e.kind.hasReceiver = true) ∧
        id ∉ mail.completed ∧ Blames committed reason
  | .error _ => False
  | .ok value =>
      exists e, e ∈ mail.dispatched ∧ e.id = id ∧ e.kind.hasReceiver = true ∧
        id ∈ mail.completed ∧
        match value with
        | some v => (id, v) ∈ mail.returned
        | none => e.kind = .stream

def Mail.Answered (mail : Mail V) (id : Nat) : Prop :=
  id ∈ mail.responses.map Prod.fst

structure MailInv (w : World V) : Prop where
  history : History w.control.mode w.control.committed
  conserved : w.mail.Conserved
  closed : w.mail.closed = true -> Closing w
  hand : w.mail.hand.length <= 1
  settled : forall e, e ∈ w.mail.attempted.dropLast -> w.mail.Settled e
  last : forall e, w.mail.attempted.getLast? = some e ->
    w.mail.Settled e ∨ e ∈ w.mail.hand ∨ Cut w
  exited : w.control.mode.isExited = true ->
    w.mail.queue = [] ∧ w.mail.hand = []
  told : forall id response, (id, response) ∈ w.mail.responses ->
    w.mail.Tells w.control.committed id response
  once : (w.mail.responses.map Prod.fst).Nodup
  completed : forall id, id ∈ w.mail.completed ->
    exists e, e ∈ w.mail.dispatched ∧ e.id = id

/-!
## Debts

Between taking a reply and answering it the actor task owes its caller a
response.
-/

/-- Who is owed a response by the code that is running. -/
inductive Debt where
  | nobody
  /-- The caller of a rejected envelope. -/
  | rejected (id : Nat)
  | dispatched (reply : DispatchReply)
  /-- A caller whose completion was committed. -/
  | completed (id : Nat)
deriving DecidableEq

def Debt.caller : Debt -> Option Nat
  | .nobody => none
  | .rejected id => some id
  | .dispatched (.caller id) => some id
  | .dispatched (.oneWay _) => none
  | .completed id => some id

def Backed (mail : Mail V) : DispatchReply -> Prop
  | .caller id =>
      (exists e, e ∈ mail.dispatched ∧ e.id = id ∧
        e.kind.hasReceiver = true) ∧
        ¬ mail.Answered id ∧ id ∉ mail.completed
  | .oneWay id =>
      exists e, e ∈ mail.dispatched ∧ e.id = id ∧ e.kind.hasReceiver = false

def Sched.holds (sched : Sched) (key : Key) : Option DispatchReply :=
  (sched.items.get? key).bind ScheduledFuture.reply

def Debt.Owed (w : World V) : Debt -> Prop
  | .nobody => True
  | .rejected id =>
      (exists e, e ∈ w.mail.rejected ∧ e.id = id ∧
        e.kind.hasReceiver = true) ∧ ¬ w.mail.Answered id
  | .dispatched reply =>
      Backed w.mail reply ∧ forall key id, reply = .caller id ->
        w.sched.holds key ≠ some (.caller id)
  | .completed id =>
      (exists e, e ∈ w.mail.dispatched ∧ e.id = id ∧
        e.kind.hasReceiver = true) ∧
        ¬ w.mail.Answered id ∧ id ∈ w.mail.completed

def Hardened (w : World V) : Prop :=
  exists mode, mode ∈ w.control.committed ∧
    (mode = .killing ∨ mode = .failing ∨ mode = .aborting)

/--
The books are balanced up to an envelope in hand, a debt, and a value that was
returned and not delivered yet.
-/
structure Balanced (hand : List Envelope) (debt : Debt)
    (value : Option (Nat × V)) (w : World V) : Prop where
  mode : w.control.mode.isExited = false
  inHand : w.mail.hand = hand
  owned : forall e, e ∈ w.mail.admitted -> e.kind.hasReceiver = true ->
    w.mail.Answered e.id ∨ e ∈ w.mail.queue ∨ e ∈ hand ∨
      (exists key, w.sched.holds key = some (.caller e.id)) ∨
      debt.caller = some e.id
  held : forall key reply, w.sched.holds key = some reply ->
    Backed w.mail reply
  distinct : forall key key' id, w.sched.holds key = some (.caller id) ->
    w.sched.holds key' = some (.caller id) -> key = key'
  owed : debt.Owed w
  delivered : forall id v, (id, v) ∈ w.mail.returned ->
    Hardened w ∨ (id, .ok (some v)) ∈ w.mail.responses ∨ value = some (id, v)

abbrev Settled (w : World V) : Prop :=
  Balanced [] .nobody none w

/-!
## Demands
-/

def DeliveryDemands : {α : Type} -> Op V α -> World V -> Prop
  | _, .transact (.finish _), w =>
      Closing w ∧ w.mail.queue = [] ∧ w.mail.hand = []
  | _, .suspend _, w => Settled w
  | _, .reach (.gracefulFinish .drain), w =>
      w.control.mode = .draining ->
        w.mail.discarded = [] ∧ w.mail.queue = [] ∧ w.mail.hand = [] ∧
          w.mail.Punctual
  | _, .mail .close, w => Closing w
  | _, .mail (.pollRecv _), w =>
      w.mail.discarded = [] ∧ w.mail.hand = [] ∧ w.mail.Punctual
  | _, .mail (.replyIsClosed envelope), _ => envelope.kind.hasReceiver = true
  | _, .mail (.beginCompletion id), w =>
      ¬ w.mail.Answered id ∧ exists e, e ∈ w.mail.dispatched ∧ e.id = id
  | _, .mail (.respond id response), w =>
      ¬ w.mail.Answered id ∧ w.mail.Tells w.control.committed id response
  | _, .user (.replyPoll key), w =>
      forall id, w.sched.holds key = some (.caller id) ->
        id ∉ w.mail.completed
  | _, _, _ => True

def deliveryDiscipline (V : Type) (A : ActorConfig) :
    Discipline (machine V A) where
  inv := MailInv
  admits := fun _ _ _ => True
  tolerates := fun _ _ => True
  demands := DeliveryDemands

/-!
## What is kept
-/

/-- The mailbox forgets nothing of what happened. -/
structure Mail.Grows (mail mail' : Mail V) : Prop where
  dispatched : forall e, e ∈ mail.dispatched -> e ∈ mail'.dispatched
  rejected : forall e, e ∈ mail.rejected -> e ∈ mail'.rejected
  abandoned : forall id, id ∈ mail.abandoned -> id ∈ mail'.abandoned
  completed : forall id, id ∈ mail.completed -> id ∈ mail'.completed
  returned : forall p, p ∈ mail.returned -> p ∈ mail'.returned

theorem Mail.Grows.refl (mail : Mail V) : mail.Grows mail where
  dispatched := fun _ h => h
  rejected := fun _ h => h
  abandoned := fun _ h => h
  completed := fun _ h => h
  returned := fun _ h => h

theorem Mail.Settled.mono {mail mail' : Mail V} (h : mail.Grows mail')
    {e : Envelope} (hsettled : mail.Settled e) : mail'.Settled e := by
  rcases hsettled with hdispatched | ⟨hrejected, hkind, habandoned⟩
  · exact Or.inl (h.dispatched e hdispatched)
  · exact Or.inr ⟨h.rejected e hrejected, hkind, h.abandoned e.id habandoned⟩

theorem Blames.mono {committed committed' : List Mode} {reason : ExitReason}
    (hsub : forall mode, mode ∈ committed -> mode ∈ committed')
    (h : Blames committed reason) : Blames committed' reason :=
  ⟨h.left.mono hsub, h.right⟩

theorem Mail.Tells.mono {mail mail' : Mail V} {committed committed' : List Mode}
    {id : Nat} {response : Response V} (h : mail.Grows mail')
    (hsub : forall mode, mode ∈ committed -> mode ∈ committed')
    (hcompleted : id ∉ mail.completed -> id ∉ mail'.completed)
    (htells : mail.Tells committed id response) :
    mail'.Tells committed' id response := by
  cases response with
  | error error =>
      cases error with
      | beforeDispatch reason =>
          rcases htells with ⟨⟨e, hmem, hid, hkind⟩, hreason⟩
          exact ⟨⟨e, h.rejected e hmem, hid, hkind⟩,
            hreason.imp (h.abandoned id) (Blames.mono hsub)⟩
      | duringDispatch reason =>
          rcases htells with ⟨⟨e, hmem, hid, hkind⟩, hopen, hreason⟩
          exact ⟨⟨e, h.dispatched e hmem, hid, hkind⟩, hcompleted hopen,
            hreason.mono hsub⟩
      | closed => exact htells.elim
      | responseLost => exact htells.elim
  | ok value =>
      rcases htells with ⟨e, hmem, hid, hkind, hdone, hvalue⟩
      refine ⟨e, h.dispatched e hmem, hid, hkind, h.completed id hdone, ?_⟩
      cases value with
      | some v => exact h.returned _ hvalue
      | none => exact hvalue

theorem Mail.Tells.receiver {mail : Mail V} {committed : List Mode} {id : Nat}
    {response : Response V} (hconserved : mail.Conserved)
    (h : mail.Tells committed id response) :
    exists e, e ∈ mail.admitted ∧ e.id = id ∧ e.kind.hasReceiver = true := by
  cases response with
  | error error =>
      cases error with
      | beforeDispatch reason =>
          rcases h with ⟨⟨e, hmem, hid, hkind⟩, _⟩
          exact ⟨e, hconserved.rejected_admitted hmem, hid, hkind⟩
      | duringDispatch reason =>
          rcases h with ⟨⟨e, hmem, hid, hkind⟩, _⟩
          exact ⟨e, hconserved.dispatched_admitted hmem, hid, hkind⟩
      | closed => exact h.elim
      | responseLost => exact h.elim
  | ok value =>
      rcases h with ⟨e, hmem, hid, hkind, _⟩
      exact ⟨e, hconserved.dispatched_admitted hmem, hid, hkind⟩

structure MailStep (w w' : World V) : Prop where
  control : w.control.Moves w'.control
  conserved : w'.mail.Conserved
  grows : w.mail.Grows w'.mail
  completed : forall id, id ∈ w'.mail.completed ->
    id ∈ w.mail.completed ∨
      (¬ w.mail.Answered id ∧ exists e, e ∈ w.mail.dispatched ∧ e.id = id)
  closed : w'.mail.closed = true -> w.mail.closed = true ∨ Closing w'
  hand : w'.mail.hand.length <= 1
  attempted : w'.mail.attempted = w.mail.attempted ∨
    (w.mail.Punctual ∧ exists e,
      w'.mail.attempted = w.mail.attempted ++ [e] ∧ e ∈ w'.mail.hand)
  decided : forall e, e ∈ w.mail.hand ->
    w'.mail.Settled e ∨ e ∈ w'.mail.hand ∨ Cut w'
  exited : w'.control.mode.isExited = true ->
    w'.mail.queue = [] ∧ w'.mail.hand = []
  told : w'.mail.responses = w.mail.responses ∨
    exists id response, ¬ w.mail.Answered id ∧
      w'.mail.responses = (id, response) :: w.mail.responses ∧
      w'.mail.Tells w'.control.committed id response

theorem MailInv.step (h : MailInv w) (hstep : MailStep w w') : MailInv w' where
  history := hstep.control.history h.history
  conserved := hstep.conserved
  closed := by
    intro hclosed
    cases hstep.closed hclosed with
    | inl hold => exact hstep.control.closing (h.closed hold)
    | inr hclosing => exact hclosing
  hand := hstep.hand
  settled := by
    intro e hmem
    rcases hstep.attempted with hsame | ⟨hpunctual, e', hnew, _⟩
    · rw [hsame] at hmem
      exact (h.settled e hmem).mono hstep.grows
    · rw [hnew, List.dropLast_concat] at hmem
      exact (hpunctual e hmem).mono hstep.grows
  last := by
    intro e hlast
    rcases hstep.attempted with hsame | ⟨_, e', hnew, hhand⟩
    · rw [hsame] at hlast
      rcases h.last e hlast with hsettled | hmem | hcut
      · exact Or.inl (hsettled.mono hstep.grows)
      · exact hstep.decided e hmem
      · exact Or.inr (Or.inr (hstep.control.cut hcut))
    · rw [hnew, List.getLast?_concat] at hlast
      cases hlast
      exact Or.inr (Or.inl hhand)
  exited := hstep.exited
  told := by
    have hold : forall id response, (id, response) ∈ w.mail.responses ->
        w'.mail.Tells w'.control.committed id response := by
      intro id response hmem
      have hanswered : w.mail.Answered id := List.mem_map_of_mem hmem
      exact (h.told id response hmem).mono hstep.grows
        (fun _ => hstep.control.committed) (fun hopen hdone =>
          (hstep.completed id hdone).elim hopen
            (fun hnew => hnew.left hanswered))
    intro id response hmem
    rcases hstep.told with hsame | ⟨id', response', _, hnew, htells⟩
    · rw [hsame] at hmem
      exact hold id response hmem
    · rw [hnew] at hmem
      cases List.mem_cons.mp hmem with
      | inl heq =>
          cases heq
          exact htells
      | inr hmem => exact hold id response hmem
  once := by
    rcases hstep.told with hsame | ⟨id, response, hopen, hnew, _⟩
    · rw [hsame]
      exact h.once
    · rw [hnew, List.map_cons, List.nodup_cons]
      exact ⟨hopen, h.once⟩
  completed := by
    intro id hdone
    have hmem : exists e, e ∈ w.mail.dispatched ∧ e.id = id := by
      cases hstep.completed id hdone with
      | inl hold => exact h.completed id hold
      | inr hnew => exact hnew.right
    rcases hmem with ⟨e, hmem, hid⟩
    exact ⟨e, hstep.grows.dispatched e hmem, hid⟩

theorem MailInv.quiet_step (h : MailInv w)
    (hmoves : w.control.Moves w'.control)
    (hexited : w'.control.mode.isExited = true ->
      w.mail.queue = [] ∧ w.mail.hand = [])
    {returned : List (Nat × V)}
    (hreturned : forall p, p ∈ w.mail.returned -> p ∈ returned)
    (hmail : w'.mail = { w.mail with returned := returned }) : MailInv w' := by
  apply h.step
  have hgrows : w.mail.Grows w'.mail := by
    rw [hmail]
    exact { Mail.Grows.refl w.mail with returned := hreturned }
  exact {
    control := hmoves
    conserved := by
      rw [hmail]
      exact h.conserved.keeps ⟨rfl, rfl, rfl, rfl, rfl, rfl, rfl, rfl, rfl⟩
    grows := hgrows
    completed := by
      rw [hmail]
      exact fun _ => Or.inl
    closed := by
      rw [hmail]
      exact Or.inl
    hand := by
      rw [hmail]
      exact h.hand
    attempted := by
      rw [hmail]
      exact Or.inl rfl
    decided := by
      intro e hmem
      rw [hmail]
      exact Or.inr (Or.inl hmem)
    exited := by
      intro hmode
      rw [hmail]
      exact hexited hmode
    told := by
      rw [hmail]
      exact Or.inl rfl }

end Loac

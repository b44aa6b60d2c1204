import Mathlib.Data.List.Perm.Subperm
import Loac.Capacity.Dispatch
import Loac.Delivery.Disposal

/-!
# Backpressure

A bounded mailbox never holds more messages and reservations than its capacity,
and an actor never holds more replies than its limit.  An accepted call that
was not answered is in one of the two places wherever the task is suspended, so
both bounds together limit how many callers can wait at a time.
-/

namespace Loac

open Interleave

variable {V α : Type} {A : ActorConfig} {c : ActorState V} {w w' : World V}
  {mail : Mail V} {capacity : Nat}

def Mail.Within (mail : Mail V) (capacity : Nat) : Prop :=
  mail.queue.length + mail.reserved <= capacity

/-!
## Steps
-/

/-- The actor task takes messages out of the queue and does nothing else to it. -/
theorem MailOp.within_exec (op : MailOp V α) (transport : Transport)
    (mode : Mode) (reception : Reception) (mail : Mail V) :
    (op.exec transport mode reception mail).1.queue.length <= mail.queue.length ∧
      (op.exec transport mode reception mail).1.reserved = mail.reserved := by
  cases op with
  | pollRecv turn =>
      show (mail.pollRecv transport reception).1.queue.length <= _ ∧
        (mail.pollRecv transport reception).1.reserved = _
      unfold Mail.pollRecv
      split
      · exact ⟨Nat.le_refl _, rfl⟩
      split
      · rename_i envelope rest hqueue
        rw [hqueue]
        exact ⟨Nat.le_succ _, rfl⟩
      · split <;> exact ⟨Nat.le_refl _, rfl⟩
  | tryRecv =>
      show mail.tryRecv.1.queue.length <= _ ∧ mail.tryRecv.1.reserved = _
      unfold Mail.tryRecv
      split
      · exact ⟨Nat.le_refl _, rfl⟩
      · rename_i envelope rest hqueue
        rw [hqueue]
        exact ⟨Nat.le_succ _, rfl⟩
  | _ =>
      grind [MailOp.exec, Mail.replyIsClosed, Mail.reject, Mail.beginDispatch,
        Mail.beginCompletion, Mail.respond]

theorem Mail.Within.exec {op : Op V α} {input : Input V} {a : α}
    (hwithin : w.mail.Within capacity)
    (hexec : op.exec A input w = some (w', a)) : w'.mail.Within capacity := by
  unfold Mail.Within at hwithin ⊢
  cases hmail : op.isMail with
  | false =>
      rcases Op.mail_exec hmail hexec with ⟨returned, hsame, _⟩
      rw [hsame]
      exact hwithin
  | true =>
      cases op with
      | mail op =>
          cases hexec
          have hop := op.within_exec (A.mailbox.getD .unbounded) w.control.mode
            input.reception w.mail
          exact Nat.le_trans (Nat.add_le_add hop.left (Nat.le_of_eq hop.right))
            hwithin
      | _ => cases hmail

/-- A reservation is granted only while there is room for it. -/
theorem Mail.within_reserve {mail' : Mail V}
    (hreserve : mail.reserve (.bounded capacity) = some mail') :
    mail'.Within capacity := by
  unfold Mail.reserve at hreserve
  split at hreserve
  · rename_i hroom
    cases hreserve
    rw [Bool.and_eq_true] at hroom
    have hlt : mail.queue.length + mail.reserved < capacity :=
      of_decide_eq_true hroom.right
    exact hlt
  · cases hreserve

theorem Mail.Within.release {mail' : Mail V} (h : mail.Within capacity)
    (hrelease : mail.release = some mail') : mail'.Within capacity := by
  unfold Mail.Within at h ⊢
  unfold Mail.release at hrelease
  split at hrelease
  · cases hrelease
  · rename_i reserved hreserved
    cases hrelease
    show mail.queue.length + reserved <= capacity
    omega

theorem Mail.Within.enqueue {mail' : Mail V} {mode : Mode} {kind : Kind}
    (h : mail.Within capacity)
    (haccept : mail.admitEnvelope mode kind = some mail') :
    mail'.Within capacity := by
  unfold Mail.Within at h ⊢
  unfold Mail.admitEnvelope at haccept
  split at haccept
  · cases haccept
  · rename_i reserved hreserved
    split at haccept
    · split at haccept
      · cases haccept
      · cases haccept
        simp only [List.length_append, List.length_singleton]
        omega
    · cases haccept
      exact h

theorem Mail.Within.env {e : EnvAct}
    (hmailbox : A.mailbox = some (.bounded capacity))
    (h : w.mail.Within capacity) (henv : e.exec A w = some w') :
    w'.mail.Within capacity := by
  cases e with
  | reserve =>
      rw [EnvAct.exec, hmailbox] at henv
      rcases Option.map_eq_some_iff.mp henv with ⟨mail, hreserve, hw'⟩
      subst hw'
      exact Mail.within_reserve hreserve
  | release =>
      rcases Option.map_eq_some_iff.mp henv with ⟨mail, hrelease, hw'⟩
      subst hw'
      exact h.release hrelease
  | admitEnvelope kind =>
      rcases Option.map_eq_some_iff.mp henv with ⟨mail, haccept, hw'⟩
      subst hw'
      exact h.enqueue haccept
  | refuse =>
      rw [EnvAct.exec] at henv
      split at henv
      · cases henv
        exact h
      · cases henv
  | notifyPush index =>
      rcases Option.map_eq_some_iff.mp henv with ⟨sched, _, hw'⟩
      subst hw'
      exact h
  | notifyWake index =>
      rcases Option.map_eq_some_iff.mp henv with ⟨r, _, hw'⟩
      subst hw'
      exact h
  | childPublish key =>
      rw [EnvAct.exec] at henv
      split at henv
      · rcases Option.map_eq_some_iff.mp henv with ⟨kin, _, hw'⟩
        subst hw'
        exact h
      · cases henv
  | abandon id =>
      cases henv
      exact h
  | _ =>
      have hsame : w'.mail = w.mail := by
        grind [EnvAct.exec, World.wakeIf, World.transact]
      rw [hsame]
      exact h

theorem Reachable.within (hmailbox : A.mailbox = some (.bounded capacity))
    (h : Reachable A c) : c.state.mail.Within capacity := by
  induction h with
  | refl => exact Nat.zero_le _
  | step event _ _ hstep ih =>
      cases Machine.effect_of_step hstep with
      | nothing hsame => rwa [hsame]
      | actor op next input b _ hexec => exact ih.exec hexec
      | env e henv => exact ih.env hmailbox henv

/-!
## Outstanding calls
-/

/-- The accepted calls whose callers wait. -/
def Mail.outstanding (mail : Mail V) : List Envelope :=
  mail.admitted.filter fun e =>
    e.kind.hasReceiver && !decide (e.id ∈ mail.responses.map Prod.fst)

def ScheduledFuture.caller (scheduled : ScheduledFuture) : Option Nat :=
  match scheduled.reply with
  | some (.caller id) => some id
  | _ => none

def Sched.callers (sched : Sched) : List Nat :=
  sched.items.entries.filterMap fun entry => entry.2.caller

theorem Sched.mem_callers {sched : Sched} {key : Key} {id : Nat}
    (hholds : sched.holds key = some (.caller id)) : id ∈ sched.callers := by
  rcases Option.bind_eq_some_iff.mp hholds with ⟨scheduled, hget, hreply⟩
  apply List.mem_filterMap.mpr
  refine ⟨(key, scheduled), Slots.get?_eq_some_iff.mp hget, ?_⟩
  unfold ScheduledFuture.caller
  rw [hreply]

theorem MailInv.outstanding_le (hinv : MailInv w) (hsettled : Settled w) :
    w.mail.outstanding.length <=
      w.mail.queue.length + w.sched.items.length := by
  have hnodup : (w.mail.outstanding.map Envelope.id).Nodup :=
    hinv.conserved.distinct.sublist (List.filter_sublist.map _)
  have hsub : w.mail.outstanding.map Envelope.id ⊆
      w.mail.queue.map Envelope.id ++ w.sched.callers := by
    intro id hmem
    rcases List.mem_map.mp hmem with ⟨e, he, hid⟩
    subst hid
    rcases List.mem_filter.mp he with ⟨hadmitted, hwaits⟩
    rw [Bool.and_eq_true, Bool.not_eq_true', decide_eq_false_iff_not] at hwaits
    rcases hsettled.owned e hadmitted hwaits.left with
      hanswered | hqueue | hhand | ⟨key, hkey⟩ | hdebt
    · exact absurd hanswered hwaits.right
    · exact List.mem_append_left _ (List.mem_map_of_mem hqueue)
    · cases hhand
    · exact List.mem_append_right _ (Sched.mem_callers hkey)
    · cases hdebt
  have hlength := (List.Nodup.subperm hnodup hsub).length_le
  have hcallers : w.sched.callers.length <= w.sched.items.length :=
    List.length_filterMap_le _ _
  rw [List.length_append, List.length_map, List.length_map] at hlength
  omega

theorem Reachable.outstanding_le {limit : Nat} {site : Site}
    (hmailbox : A.mailbox = some (.bounded capacity))
    (hlimit : A.limit = some limit) (h : Reachable A c)
    (hsuspended : suspendedAt c = some site) :
    c.state.mail.outstanding.length + c.state.mail.reserved <=
      capacity + limit := by
  have hwithin : c.state.mail.queue.length + c.state.mail.reserved <=
      capacity := Reachable.within hmailbox h
  have hinv : MailInv c.state := (delivery_safe h).inv
  have houtstanding := hinv.outstanding_le (settled_of_suspended h hsuspended)
  have hbounded : Bounded A c.state := (capacity_safe h).inv
  have hitems := hbounded limit hlimit
  omega

/--
The messages and reservations of a bounded mailbox are within its capacity in
every reachable state.  Wherever the task is suspended, the callers that wait
for an answer and the reservations are within the capacity and the limit of
active replies together.
-/
theorem backpressure_kept (A : ActorConfig) (capacity limit : Nat)
    (c : ActorState V) (hmailbox : A.mailbox = some (.bounded capacity))
    (hlimit : A.limit = some limit) (h : Reachable A c) :
    c.state.mail.queue.length + c.state.mail.reserved <= capacity ∧
    (forall site, suspendedAt c = some site ->
      c.state.mail.outstanding.length + c.state.mail.reserved <=
        capacity + limit) := by
  constructor
  · exact Reachable.within hmailbox h
  · intro site hsuspended
    exact Reachable.outstanding_le hmailbox hlimit h hsuspended

/-- The task is suspended with two active replies and a message that waits. -/
def pressedActor : ActorState Unit :=
  (machine Unit paired).stage .next 100
    (crowdedCalls ++ List.replicate 5 (.actor (.user (.returns none)))) 100
    (initial Unit paired)

/-- Two callers wait, for the stream was handed out at once. -/
theorem pressedActor_kept :
    pressedActor.state.mail.outstanding.length = 2 ∧
      pressedActor.state.mail.outstanding.length +
        pressedActor.state.mail.reserved <= 4 + 2 := by
  have hreach : Reachable paired pressedActor :=
    Machine.stage_reaches (fun _ => trivial) (fun _ _ _ => trivial) _ _ _
  have hsuspended : suspendedAt pressedActor = some (.turn .running) := by
    decide +kernel
  refine ⟨by decide +kernel, ?_⟩
  exact (backpressure_kept paired 4 2 pressedActor rfl rfl hreach).right
    _ hsuspended

end Loac

import Loac.Bypass.Lanes
import Loac.Directed.Dispatches
import Loac.Directed.Drains

/-!
# Lanes that have nothing

A turn visits its lanes in a circle.  What was seen of a lane is true until the
circle is closed, or the turn does something and is not suspended.
-/

namespace Loac

open Interleave Interleave.Prog

variable {V α β γ : Type} {A : ActorConfig} {w w' : World V}
  {turn : TurnContext} {start lane : ReplyLane} {bound : Nat}
  {seen : ReplyLane -> Prop} {X : World V -> Prop}

/-!
## The circle
-/

def Combed (turn : TurnContext) (start : ReplyLane) (bound : Nat)
    (lane : ReplyLane) : Prop :=
  start.distance lane < bound ∧
    (lane = .mailbox -> turn.receiveMessages = true)

/-- The lanes that the circle has passed have nothing. -/
structure Combing (A : ActorConfig) (turn : TurnContext) (start : ReplyLane)
    (bound : Nat) (w : World V) : Prop where
  known : Known A none (Combed turn start bound) w
  lease : w.sched.lease = none

/-- The turn may be suspended, unless it leaves the inbox alone. -/
structure Rests (A : ActorConfig) (turn : TurnContext) (w : World V) :
    Prop where
  kept : Kept A w
  seen : turn.receiveMessages = true -> AllSeen A w

def PollLeaves (A : ActorConfig) (turn : TurnContext) :
    Poll γ -> World V -> Prop
  | none => Rests A turn
  | some _ => Kept A

def Visit.Leaves (A : ActorConfig) (turn : TurnContext)
    (start lane : ReplyLane) : Visit -> World V -> Prop
  | .nothing => Combing A turn start (start.distance lane + 1)
  | .selected _ => Kept A
  | .leave result => PollLeaves A turn result

theorem Resting.rests (h : Resting A w) : Rests A turn w :=
  ⟨h.kept, fun _ => h.seen⟩

theorem Combing.stable :
    (directed V A).Stable (Combing A turn start bound) :=
  fun e w w' hledger htolerates hexec h =>
    ⟨h.known.env hledger htolerates hexec,
      directed_lease (fun lease => lease = none) e w w' hledger htolerates
        hexec h.lease⟩

theorem Combing.perform {op : Op V α}
    (hspares : forall seen, Spares seen op) (hkeys : op.rekeys = false)
    (hleases : op.leases = false) :
    Keeps (directed V A) (Combing A turn start bound) X (perform op) := by
  intro w hw
  apply wp.op Combing.stable hw
  intro w hledger hw
  refine ⟨directed_demands (Op.awake_of_suspends (hspares fun _ => False).suspends)
    hkeys, ?_⟩
  intro input w' a _ hexec _
  have hexec := machine_exec hexec
  exact ⟨hw.known.exec hledger (hspares _) hkeys hexec,
    (Op.lease_same hleases hexec).trans hw.lease⟩

theorem combed_zero (h : Combed turn start 0 lane) : False :=
  Nat.not_lt_zero _ h.left

theorem Known.combing (h : Kept A w) (hlease : w.sched.lease = none) :
    Combing A turn start 0 w where
  known := ⟨h.booked, fun hlane => (combed_zero hlane).elim,
    fun hlane => (combed_zero hlane).elim, fun hlane => (combed_zero hlane).elim⟩
  lease := hlease

theorem Combing.next (h : Combing A turn start (start.distance lane) w)
    (hlane : match (motive := ReplyLane -> Prop) lane with
      | .mailbox => turn.receiveMessages = true -> InboxSeen A w
      | .reply => forall key, Sated key w
      | .childExit => ExitsSeen w) :
    Combing A turn start (start.distance lane + 1) w where
  known := by
    have hknown := h.known
    refine ⟨hknown.booked, fun hcombed => ?_, fun hcombed => ?_,
      fun hcombed => ?_⟩
    · rcases distance_lt_succ hcombed.left with heq | hlt
      · subst heq
        exact hlane (hcombed.right rfl)
      · exact hknown.inbox ⟨hlt, hcombed.right⟩
    · rcases distance_lt_succ hcombed.left with heq | hlt
      · subst heq
        exact hlane
      · exact hknown.sated ⟨hlt, hcombed.right⟩
    · rcases distance_lt_succ hcombed.left with heq | hlt
      · subst heq
        exact hlane
      · exact hknown.exits ⟨hlt, hcombed.right⟩
  lease := h.lease

theorem Combing.rests (h : Combing A turn start 3 w) : Rests A turn w where
  kept := h.known.kept
  seen := by
    intro hreceives
    have hcombed : forall lane, Combed turn start 3 lane := fun lane =>
      ⟨Nat.lt_succ_of_le (ReplyLane.distance_le_two start lane),
        fun _ => hreceives⟩
    refine ⟨fun _ => h.known.inbox (hcombed _),
      fun _ => h.known.exits (hcombed _), fun _ => h.known.sated (hcombed _),
      fun key hheld => ?_⟩
    rw [h.lease] at hheld
    cases hheld

/-!
## What a turn asks
-/

theorem isLeased_known {P : World V -> Prop} (hP : (directed V A).Stable P)
    (hw : P w) :
    wp (directed V A) Queue.isLeased
      (fun leased w => P w ∧ w.sched.lease.isSome = leased) X w := by
  apply wp.bind
  apply wp.op hP hw
  intro w _ hw
  refine ⟨trivial, ?_⟩
  intro input w' held _ hexec _
  rcases Op.sched_result (machine_exec hexec) with ⟨hworld, hheld⟩
  subst hworld
  exact wp.pure ⟨hw, congrArg Option.isSome hheld⟩

theorem hasDispatchCapacity_known {P : World V -> Prop}
    (hP : (directed V A).Stable P) (hw : P w) :
    wp (directed V A) (hasDispatchCapacity A)
      (fun capacity w => P w ∧
        (capacity = true -> w.sched.lease = none) ∧
        (capacity = false -> w.sched.lease = none -> InboxSeen A w)) X w := by
  apply wp.seq (isLeased_known hP hw)
  intro leased w hw
  apply wp.bind
  apply wp.op
    (hP.and (directed_lease (fun lease => lease.isSome = leased))) hw
  intro w _ hw
  refine ⟨trivial, ?_⟩
  intro input w' active _ hexec _
  rcases Op.sched_result (machine_exec hexec) with ⟨hworld, hactive⟩
  change w.sched.items.length = active at hactive
  subst hworld
  refine wp.pure ⟨hw.left, fun hcapacity => ?_, fun hcapacity hfree => ?_⟩
  · have hfree := (Bool.and_eq_true_iff.mp hcapacity).left
    rw [← hw.right] at hfree
    show w.sched.lease = none
    simpa using hfree
  · have hheld : leased = false := by
      rw [← hw.right, show w.sched.lease = none from hfree]
      rfl
    rw [hheld, ← hactive] at hcapacity
    exact fun _ => Or.inl hcapacity

theorem hasReplies_known {P : World V -> Prop} (hP : (directed V A).Stable P)
    (hw : P w) :
    wp (directed V A) hasReplies
      (fun replies w => P w ∧ (replies = false -> forall key, Sated key w))
      X w := by
  apply wp.bind
  apply wp.op hP hw
  intro w _ hw
  refine ⟨trivial, ?_⟩
  intro input w' empty _ hexec _
  rcases Op.sched_result (machine_exec hexec) with ⟨hworld, hempty⟩
  change w.sched.items.isEmpty = empty at hempty
  subst hworld
  refine wp.pure ⟨hw, fun hnone key hlive => ?_⟩
  have hgone : w.sched.items.isEmpty = true := by
    rw [hempty]
    simpa using hnone
  change (w.sched.items.get? key).isSome = true at hlive
  rw [Slots.isEmpty_iff.mp hgone key] at hlive
  cases hlive

/-!
## The mailbox lane
-/

/-- What is known in a batch of messages: new replies are still to be polled. -/
def Batched (seen : ReplyLane -> Prop) (dispatched : Nat)
    (lane : ReplyLane) : Prop :=
  seen lane ∧ (0 < dispatched -> lane ≠ .reply)

structure Batching (A : ActorConfig) (turn : TurnContext) (start : ReplyLane)
    (dispatched : Nat) (w : World V) : Prop where
  known : Known A none
    (Batched (Combed turn start (start.distance .mailbox)) dispatched) w
  lease : w.sched.lease = none

theorem Batching.stable {dispatched : Nat} :
    (directed V A).Stable (Batching A turn start dispatched) :=
  fun e w w' hledger htolerates hexec h =>
    ⟨h.known.env hledger htolerates hexec,
      directed_lease (fun lease => lease = none) e w w' hledger htolerates
        hexec h.lease⟩

theorem batched_inbox {dispatched : Nat} :
    ¬ Batched (Combed turn start (start.distance .mailbox)) dispatched
      .mailbox :=
  fun hlane => Nat.lt_irrefl _ hlane.left.left

theorem InboxSeen.stable : (directed V A).Stable (InboxSeen A) :=
  fun _ _ _ _ _ hexec h => h.env hexec

theorem pollRecv_known {dispatched : Nat}
    (hw : Batching A turn start dispatched w) :
    wp (directed V A) (mail (.pollRecv turn))
      (fun received w => Batching A turn start dispatched w ∧
        (received = .pending -> InboxSeen A w)) X w := by
  apply wp.op Batching.stable hw
  intro w hledger hw
  refine ⟨trivial, ?_⟩
  intro input w' received _ hexec _
  have hexec := machine_exec hexec
  refine ⟨⟨hw.known.exec hledger ⟨rfl, rfl,
      fun hlane => absurd hlane batched_inbox, fun _ => rfl⟩ rfl hexec,
    (Op.lease_same rfl hexec).trans hw.lease⟩, fun hpending => ?_⟩
  cases hexec
  change (w.mail.pollRecv _ _).2 = .pending at hpending
  intro hasleep
  -- A refusal wakes the task.
  have hregular : input.reception ≠ .refused := of_decide_eq_false
    (Bool.or_eq_false_iff.mp hasleep).left
  have hregistered := Mail.pollRecv_registers hregular hpending
  right
  show (w.mail.pollRecv _ _).1.queue = [] ∧ (w.mail.pollRecv _ _).1.waker = true
  rw [hregistered.left]
  exact ⟨hregistered.right.left, rfl⟩

theorem Batching.next {dispatched : Nat}
    (h : Batching A turn start dispatched w) (hinbox : InboxSeen A w)
    (hreplies : start = .reply -> 0 < dispatched ->
      forall key, Sated key w) :
    Combing A turn start (start.distance .mailbox + 1) w := by
  have hsated : Combed turn start (start.distance .mailbox) .reply ->
      forall key, Sated key w := by
    intro hcombed
    by_cases hdispatched : 0 < dispatched
    · apply hreplies _ hdispatched
      have hbefore := hcombed.left
      revert hbefore
      cases start <;> decide
    · exact h.known.sated ⟨hcombed, fun hnow => absurd hnow hdispatched⟩
  have hcombing : Combing A turn start (start.distance .mailbox) w := by
    refine ⟨⟨h.known.booked, fun hlane => ?_, hsated, fun hlane => ?_⟩,
      h.lease⟩
    · exact absurd hlane.left (Nat.lt_irrefl _)
    · exact h.known.exits ⟨hlane, fun _ => ReplyLane.noConfusion⟩
  exact hcombing.next (fun _ => hinbox)

theorem mailboxLane_leaves
    (hw : Combing A turn start (start.distance .mailbox) w) :
    wp (directed V A) (mailboxLane A turn start)
      (Visit.Leaves A turn start .mailbox) (fun _ => True) w := by
  have hstart : Batching A turn start 0 w :=
    ⟨hw.known.mono (fun _ hlane => hlane.left), hw.lease⟩
  apply wp.rounds (Batching A turn start) hstart
  intro dispatched w hw
  apply wp.seq (pollRecv_known hw)
  intro received w hw
  cases received with
  | envelope envelope =>
      have hknown : Known A none (Batched
          (Combed turn start (start.distance .mailbox)) (dispatched + 1)) w :=
        hw.left.known.mono fun _ hlane =>
          ⟨hlane.left, fun _ => hlane.right (Nat.succ_pos _)⟩
      apply wp.seq (dispatch_known batched_inbox
        (fun hlane => hlane.right (Nat.succ_pos _) rfl) envelope w hknown)
      intro _ w hw
      have hop : forall {α : Type} (op : Op V α),
          (forall seen, Spares seen op) -> op.rekeys = false ->
            Keeps (directed V A) (Known A none (Batched
              (Combed turn start (start.distance .mailbox)) (dispatched + 1)))
              (fun _ => True) (perform op) :=
        fun op hspares hkeys => Known.perform (hspares _) hkeys
      apply wp.seq (hop (.differs turn.expectedMode)
        (fun _ => ⟨rfl, rfl, fun _ => rfl, fun _ => rfl⟩) rfl w hw)
      intro differs w hw
      cases differs with
      | true =>
          apply wp.seq (hop (.sched (.setCursor _))
            (fun _ => ⟨rfl, rfl, fun _ => rfl, fun _ => rfl⟩) rfl w hw)
          intro _ w hw
          exact wp.done hw.kept
      | false =>
          by_cases hbudget : dispatched + 1 = A.mailboxDispatchBudget
          · simp only [if_pos hbudget]
            exact wp.done hw.kept
          · simp only [if_neg hbudget]
            apply wp.seq (hasDispatchCapacity_known Known.stable hw)
            intro capacity w hw
            cases capacity with
            | true => exact wp.again ⟨hw.left, hw.right.left rfl⟩
            | false => exact wp.done hw.left.kept
  | closed => exact wp.done hw.left.known.kept
  | pending =>
      have hinbox := hw.right rfl
      by_cases hstart : dispatched > 0 ∧ start = .reply
      · simp only [if_pos hstart]
        apply wp.seq (hasReplies_known (Batching.stable.and InboxSeen.stable)
          ⟨hw.left, hinbox⟩)
        intro replies w hw
        cases replies with
        | true => exact wp.done hw.left.left.known.kept
        | false =>
            exact wp.done (hw.left.left.next hw.left.right
              (fun _ _ => hw.right rfl))
      · simp only [if_neg hstart]
        exact wp.done (hw.left.next hinbox
          (fun heq hnow => absurd ⟨hnow, heq⟩ hstart))

/-!
## The other lanes
-/

theorem AllSeen.exec {op : Op V α} {input : Input V} {a : α}
    (h : AllSeen A w) (hledger : w.sched.Ledger)
    (hspares : forall seen, Spares seen op) (hleases : op.leases = false)
    (hexec : op.exec A input w = some (w', a)) : AllSeen A w' := by
  have hlease := Op.lease_same hleases hexec
  rcases hspares (fun _ => True) with ⟨hsuspends, hplaces, hvacates, hlooks⟩
  constructor
  · exact fun hfree => (h.inbox (hlease.symm.trans hfree)).exec hsuspends
      (hvacates trivial) hexec
  · exact fun hfree => (h.exits (hlease.symm.trans hfree)).exec hsuspends
      (hlooks trivial) hexec
  · exact fun hfree key => (h.sated (hlease.symm.trans hfree) key).exec hledger
      hsuspends hplaces hexec
  · exact fun key hheld => (h.holder key (hlease.symm.trans hheld)).exec hledger
      hsuspends hplaces hexec

theorem Resting.setCursor (cursor : ReplyLane) :
    Keeps (directed V A) (Resting A) X (sched (.setCursor cursor)) := by
  intro w hw
  apply wp.op resting_stable hw
  intro w hledger hw
  refine ⟨trivial, ?_⟩
  intro input w' _ _ hexec _
  have hexec := machine_exec hexec
  have hspares : forall seen, Spares seen
      (.sched (.setCursor cursor) : Op V Unit) :=
    fun _ => ⟨rfl, rfl, fun _ => rfl, fun _ => rfl⟩
  exact ⟨hw.kept.exec hledger (hspares _) rfl hexec,
    hw.seen.exec hledger hspares rfl hexec⟩

theorem replyLane_leaves (hw : Combing A turn start (start.distance .reply) w) :
    wp (directed V A) (replyLane turn) (Visit.Leaves A turn start .reply)
      (fun _ => True) w := by
  apply wp.seq (poll_free ⟨hw.known, hw.lease⟩)
  intro result w hw
  cases result with
  | pending =>
      change Known A none (Swept _) w ∧ _ at hw
      have hcombing : Combing A turn start (start.distance .reply) w :=
        ⟨hw.left.mono (fun _ => Or.inl), hw.right⟩
      exact wp.pure (hcombing.next (hw.left.sated (Or.inr rfl)))
  | progress => exact wp.pure hw
  | leased =>
      have hrests : Resting A w := hw
      exact wp.pure hrests.rests
  | budgetExhausted =>
      apply wp.seq (Resting.setCursor ReplyLane.reply.next w hw)
      intro _ w hw
      exact wp.pure hw.rests

theorem pollExit_known (hexits : ¬ seen .childExit)
    (hw : Known A none seen w ∧ w.sched.lease = none) :
    wp (directed V A) (kin .pollExit)
      (fun event w => (Known A none seen w ∧ w.sched.lease = none) ∧
        (event = none -> ExitsSeen w)) X w := by
  apply wp.op (Known.stable.and
    (directed_lease (fun lease => lease = none))) hw
  intro w hledger hw
  refine ⟨trivial, ?_⟩
  intro input w' event _ hexec _
  have hexec := machine_exec hexec
  refine ⟨⟨hw.left.exec hledger ⟨rfl, rfl, fun _ => rfl,
    fun hlane => absurd hlane hexits⟩ rfl hexec,
    (Op.lease_same rfl hexec).trans hw.right⟩, fun hnone => ?_⟩
  cases hexec
  change (w.kin.pollExit _).2 = none at hnone
  intro hasleep
  have hregular : input.reception ≠ .refused := of_decide_eq_false
    (Bool.or_eq_false_iff.mp hasleep).left
  have hregistered := Kin.pollExit_registers hregular hnone
  show (w.kin.pollExit _).1.events = [] ∧ (w.kin.pollExit _).1.waker = true
  rw [hregistered.left]
  exact ⟨hregistered.right, rfl⟩

theorem visit_leaves (start lane : ReplyLane)
    (hw : Combing A turn start (start.distance lane) w) :
    wp (directed V A) (visit A turn start lane)
      (Visit.Leaves A turn start lane) (fun _ => True) w := by
  cases lane with
  | mailbox =>
      apply wp.seq (hasDispatchCapacity_known Combing.stable hw)
      intro capacity w hw
      by_cases hreceive : (turn.receiveMessages && capacity) = true
      · simp only [if_pos hreceive]
        exact mailboxLane_leaves hw.left
      · simp only [if_neg hreceive]
        refine wp.pure (hw.left.next fun hreceives => ?_)
        apply hw.right.right _ hw.left.lease
        simpa [hreceives] using hreceive
  | reply =>
      apply wp.seq (hasReplies_known Combing.stable hw)
      intro replies w hw
      cases replies with
      | true => exact replyLane_leaves hw.left
      | false => exact wp.pure (hw.left.next (hw.right rfl))
  | childExit =>
      apply wp.bind
      apply wp.seq (pollExit_known (fun hlane => Nat.lt_irrefl _ hlane.left)
        ⟨hw.known, hw.lease⟩)
      intro event w hw
      cases event with
      | some event => exact wp.pure (wp.pure hw.left.left.kept)
      | none =>
          have hcombing : Combing A turn start (start.distance .childExit) w :=
            ⟨hw.left.left, hw.left.right⟩
          exact wp.pure (wp.pure (hcombing.next (hw.right rfl)))

end Loac

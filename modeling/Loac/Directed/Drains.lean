import Loac.Directed.Polls

/-!
# Drains that leave nothing

A drain that takes no reply out leaves the inbox as it was seen.  If it ends
with an empty queue, it has polled all that was to be polled, and if it ends
with keys left, it has woken the task.
-/

namespace Loac

open Interleave Interleave.Prog

variable {V α β γ : Type} {A : ActorConfig} {w w' : World V} {key : Key}
  {seen : ReplyLane -> Prop} {X : World V -> Prop}

/-!
## One drain
-/

/-- The lanes that were seen, but for the inbox once a reply is taken out. -/
def Unmoved (seen : ReplyLane -> Prop) (completed : Bool)
    (lane : ReplyLane) : Prop :=
  seen lane ∧ (completed = true -> lane ≠ .mailbox)

structure Surveying (A : ActorConfig) (seen : ReplyLane -> Prop)
    (completed : Bool) (w : World V) : Prop where
  known : Known A none (Unmoved seen completed) w
  lease : w.sched.lease = none

theorem Surveying.stable {completed : Bool} :
    (directed V A).Stable (Surveying A seen completed) :=
  fun e w w' hledger htolerates hexec h =>
    ⟨h.known.env hledger htolerates hexec,
      directed_lease (fun lease => lease = none) e w w' hledger htolerates
        hexec h.lease⟩

theorem Surveying.perform {completed : Bool} {op : Op V α}
    (hspares : Spares (Unmoved seen completed) op) (hkeys : op.rekeys = false)
    (hleases : op.leases = false) :
    Keeps (directed V A) (Surveying A seen completed) X (perform op) := by
  intro w hw
  apply wp.op Surveying.stable hw
  intro w hledger hw
  refine ⟨directed_demands (Op.awake_of_suspends hspares.suspends) hkeys, ?_⟩
  intro input w' a _ hexec _
  have hexec := machine_exec hexec
  exact ⟨hw.known.exec hledger hspares hkeys hexec,
    (Op.lease_same hleases hexec).trans hw.lease⟩

/-- A reply was taken out, so the inbox has to be looked at again. -/
theorem Tending.moved {completed : Bool}
    (h : Tending A key (Unmoved seen completed) w) :
    Tending A key (Unmoved seen true) w where
  known := h.known.mono fun _ hlane => ⟨hlane.left, fun _ => hlane.right rfl⟩
  sated := h.sated
  lease := h.lease

def DrainSurveys (A : ActorConfig) (seen : ReplyLane -> Prop) :
    Option Bool -> World V -> Prop
  | none => Resting A
  | some completed => Surveying A seen completed

theorem popReady_known {completed : Bool} (hw : Surveying A seen completed w) :
    wp (directed V A) (sched .popReady)
      (fun popped w => Known A popped (Unmoved seen completed) w ∧
        w.sched.lease = none) X w := by
  apply wp.op Surveying.stable hw
  intro w hledger hw
  refine ⟨trivial, ?_⟩
  intro input w' popped _ hexec _
  have hexec := machine_exec hexec
  have hlease : w'.sched.lease = w.sched.lease := Op.lease_same rfl hexec
  refine ⟨?_, hlease.trans hw.lease⟩
  have hknown := hw.known
  rcases Op.sched_result hexec with ⟨hworld, hpopped⟩
  subst hworld
  change w.sched.popReady.2 = popped at hpopped
  show Known A popped _ { w with sched := w.sched.popReady.1 }
  unfold Sched.popReady at hpopped ⊢
  split at hpopped
  · cases hpopped
    exact hknown
  · rename_i key rest hready
    cases hpopped
    have hbooked : Booked (some key) { w.sched with ready := rest } := by
      refine ⟨hknown.booked.filed, ?_⟩
      intro other hlive hset
      rcases hknown.booked.queued other hlive hset with hlate | hqueued | hlater
      · cases hlate
      · rw [hready] at hqueued
        cases List.mem_cons.mp hqueued with
        | inl heq =>
            rw [heq]
            exact Or.inl rfl
        | inr hrest => exact Or.inr (Or.inl hrest)
      · exact Or.inr (Or.inr hlater)
    exact ⟨hbooked, hknown.inbox, hknown.sated, hknown.exits⟩

theorem drainRound_surveys (polled : Nat) (completed : Bool)
    (scheduled : ScheduledFuture)
    (hw : Tending A key (Unmoved seen completed) w) :
    wp (directed V A) (do
        let ready ← scheduled.pollWithTask key
        if ready then
          Queue.complete key
          again (polled + 1, true)
        else if (← sched .held).isSome then
          done none
        else
          again (polled + 1, completed) :
        P V ((Nat × Bool) ⊕ Option Bool))
      (Splits (fun state => Surveying A seen state.2) (DrainSurveys A seen))
      (fun _ => True) w := by
  apply wp.seq (pollWithTask_tending scheduled hw)
  intro ready w hw
  cases ready with
  | true =>
      apply wp.seq (complete_free (fun hlane => hlane.right rfl rfl) hw.moved)
      intro _ w hw
      exact wp.again ⟨hw.left, hw.right⟩
  | false =>
      apply wp.bind
      apply wp.op Tending.stable hw
      intro w _ hw
      refine ⟨trivial, ?_⟩
      intro input w' held _ hexec _
      rcases Op.sched_result (machine_exec hexec) with ⟨hworld, hheld⟩
      change w.sched.lease = held at hheld
      subst hworld
      cases held with
      | none => exact wp.again ⟨hw.known, hheld⟩
      | some holder =>
          refine wp.done ⟨hw.known.kept, hw.allSeen ?_⟩
          rw [hheld]
          exact Option.some_ne_none holder

theorem drain_surveys (turn : TurnContext)
    (hw : Known A none seen w ∧ w.sched.lease = none) :
    wp (directed V A) (Queue.drain turn) (DrainSurveys A seen)
      (fun _ => True) w := by
  have hstart : Surveying A seen false w :=
    ⟨hw.left.mono (fun _ hlane => hlane.left), hw.right⟩
  apply wp.rounds (fun state => Surveying A seen state.2) hstart
  intro state w hw
  rcases state with ⟨polled, completed⟩
  change Surveying A seen completed w at hw
  have hlook : Keeps (directed V A) (Surveying A seen completed)
      (fun _ => True) (differs turn.expectedMode) :=
    Surveying.perform ⟨rfl, rfl, fun _ => rfl, fun _ => rfl⟩ rfl rfl
  by_cases hbudget : polled < activePollBudget
  · simp only [if_pos hbudget]
    apply wp.seq (hlook w hw)
    intro differs w hw
    cases differs with
    | true => exact wp.done hw
    | false =>
        apply wp.seq (popReady_known hw)
        intro popped w hw
        cases popped with
        | none => exact wp.done ⟨hw.left, hw.right⟩
        | some key =>
            apply wp.bind
            have hstable : (directed V A).Stable (fun w =>
                Known A (some key) (Unmoved seen completed) w ∧
                  w.sched.lease = none) :=
              Known.stable.and (directed_lease (fun lease => lease = none))
            apply wp.op hstable hw
            intro w _ hw
            refine ⟨trivial, ?_⟩
            intro input w' found _ hexec _
            rcases Op.sched_result (machine_exec hexec) with ⟨hworld, hfound⟩
            change w.sched.items.get? key = found at hfound
            subst hworld
            cases found with
            | none =>
                have hgone : w.sched.isLive key = false := by
                  unfold Sched.isLive
                  rw [hfound]
                  rfl
                exact wp.again ⟨⟨hw.left.booked.gone hgone, hw.left.inbox,
                  hw.left.sated, hw.left.exits⟩, hw.right⟩
            | some scheduled =>
                apply wp.seq (takeReady_tending (fun _ => Or.inl) hw)
                intro ready w hw
                cases ready with
                | false => exact wp.again ⟨hw.left.known, hw.right⟩
                | true =>
                    exact drainRound_surveys polled completed scheduled hw.left
  · simp only [if_neg hbudget]
    exact wp.done hw

/-!
## The ready queue
-/

/-- The replies were seen to have nothing as well. -/
def Swept (seen : ReplyLane -> Prop) (lane : ReplyLane) : Prop :=
  seen lane ∨ lane = .reply

/-- What a poll of the queue leaves while no reply holds the lease. -/
def ReplyPoll.Surveys (A : ActorConfig) (seen : ReplyLane -> Prop) :
    ReplyPoll -> World V -> Prop
  | .pending, w => Known A none (Swept seen) w ∧ w.sched.lease = none
  | .progress, w => Kept A w
  | _, w => Resting A w

theorem readyIsEmpty_surveys (turn : TurnContext) {completed : Bool}
    (hw : Surveying A seen completed w) :
    wp (directed V A) (sched (.readyIsEmpty turn))
      (fun empty w => Surveying A seen completed w ∧
        (empty = true -> forall key, Sated key w)) X w := by
  apply wp.op Surveying.stable hw
  intro w _ hw
  refine ⟨trivial, ?_⟩
  intro input w' empty _ hexec _
  rcases Op.sched_result (machine_exec hexec) with ⟨hworld, hempty⟩
  change w.sched.ready.isEmpty = empty at hempty
  subst hworld
  refine ⟨hw, fun hnone => hw.known.booked.sated ?_⟩
  rw [hnone] at hempty
  exact List.isEmpty_iff.mp hempty

theorem wakeTask_rests (hw : Kept A w) :
    wp (directed V A) (perform .wakeTask) (fun _ => Resting A) X w := by
  apply wp.op Known.stable hw
  intro w hledger hw
  refine ⟨trivial, ?_⟩
  intro input w' _ _ hexec _
  have hexec := machine_exec hexec
  have hspares : Spares (fun _ => False) (.wakeTask : Op V Unit) :=
    ⟨rfl, rfl, fun h => h.elim, fun h => h.elim⟩
  refine ⟨hw.exec hledger hspares rfl hexec, AllSeen.awake ?_⟩
  cases hexec
  exact Bool.or_true w.task

theorem pollReady_surveys (turn : TurnContext)
    (hw : Known A none seen w ∧ w.sched.lease = none) :
    wp (directed V A) (Queue.pollReady turn) (ReplyPoll.Surveys A seen)
      (fun _ => True) w := by
  apply wp.seq (drain_surveys turn hw)
  intro completed w hw
  cases completed with
  | none => exact wp.pure hw
  | some completed =>
      change Surveying A seen completed w at hw
      have hlook : Keeps (directed V A) (Surveying A seen completed)
          (fun _ => True) (differs turn.expectedMode) :=
        Surveying.perform ⟨rfl, rfl, fun _ => rfl, fun _ => rfl⟩ rfl rfl
      apply wp.seq (hlook w hw)
      intro differs w hw
      cases differs with
      | true => exact wp.pure hw.known.kept
      | false =>
          apply wp.seq (readyIsEmpty_surveys turn hw)
          intro empty w hw
          cases empty with
          | true =>
              cases completed with
              | true => exact wp.pure hw.left.known.kept
              | false =>
                  refine wp.pure ⟨⟨hw.left.known.booked, ?_, ?_, ?_⟩,
                    hw.left.lease⟩
                  · intro hlane
                    have hinbox : Unmoved seen false .mailbox :=
                      ⟨hlane.resolve_right (by simp), by simp⟩
                    exact hw.left.known.inbox hinbox
                  · exact fun _ => hw.right rfl
                  · intro hlane
                    have hexits : Unmoved seen false .childExit :=
                      ⟨hlane.resolve_right (by simp), by simp⟩
                    exact hw.left.known.exits hexits
          | false =>
              apply wp.seq (wakeTask_rests hw.left.known.kept)
              intro _ w hw
              exact wp.pure hw

def ReplyPoll.Attends (A : ActorConfig) : ReplyPoll -> World V -> Prop
  | .progress => Kept A
  | _ => Resting A

theorem held_tending (hw : Tending A key seen w) :
    wp (directed V A) (sched .held)
      (fun held w => Tending A key seen w ∧ w.sched.lease = held) X w := by
  apply wp.op Tending.stable hw
  intro w _ hw
  refine ⟨trivial, ?_⟩
  intro input w' held _ hexec _
  rcases Op.sched_result (machine_exec hexec) with ⟨hworld, hheld⟩
  subst hworld
  exact ⟨hw, hheld⟩

theorem differs_tending (expected : Mode) {held : Option Key}
    (hw : Tending A key seen w ∧ w.sched.lease = held) :
    wp (directed V A) (differs expected)
      (fun _ w => Tending A key seen w ∧ w.sched.lease = held) X w := by
  apply wp.op (Tending.stable.and
    (directed_lease (fun lease => lease = held))) hw
  intro w _ hw
  refine ⟨trivial, ?_⟩
  intro input w' differs _ hexec _
  cases machine_exec hexec
  exact hw

theorem pollLeased_attends (turn : TurnContext)
    (hw : Kept A w ∧ w.sched.lease = some key) :
    wp (directed V A) (Queue.pollLeased turn key) (ReplyPoll.Attends A)
      (fun _ => True) w := by
  apply wp.bind
  apply wp.op (Known.stable.and
    (directed_lease (fun lease => lease = some key))) hw
  intro w _ hw
  refine ⟨trivial, ?_⟩
  intro input w' found _ hexec _
  rcases Op.sched_result (machine_exec hexec) with ⟨hworld, hfound⟩
  change w.sched.items.get? key = found at hfound
  subst hworld
  cases found with
  | none =>
      have hrelease : Keeps (directed V A) (Kept A) (fun _ => True)
          (sched .forceRelease) :=
        Known.perform ⟨rfl, rfl, fun h => h.elim, fun h => h.elim⟩ rfl
      apply wp.seq (hrelease _ hw.left)
      intro _ w hw
      exact wp.pure hw
  | some scheduled =>
      apply wp.seq (takeReady_tending (fun _ => Or.inr)
        ⟨hw.left.weaken, hw.right⟩)
      intro ready w hw
      cases ready with
      | false =>
          refine wp.pure ⟨hw.left.known, hw.left.allSeen ?_⟩
          rw [hw.right]
          exact Option.some_ne_none key
      | true =>
          apply wp.seq (pollWithTask_tending scheduled hw.left)
          intro ready w hw
          apply wp.seq (held_tending hw)
          intro held w hw
          apply wp.seq (differs_tending turn.expectedMode hw)
          intro differs w hw
          cases differs with
          | true => exact wp.pure hw.left.known
          | false =>
              cases ready with
              | true =>
                  apply wp.seq (complete_free (fun h => h) hw.left)
                  intro _ w hw
                  exact wp.pure hw.left
              | false =>
                  by_cases hheld : held = some key
                  · simp only [if_pos hheld]
                    refine wp.pure ⟨hw.left.known, hw.left.allSeen ?_⟩
                    rw [hw.right, hheld]
                    exact Option.some_ne_none key
                  · simp only [if_neg hheld]
                    exact wp.pure hw.left.known

theorem poll_splits {Q : ReplyPoll -> World V -> Prop}
    {R : Option Key -> Prop} {turn : TurnContext}
    (hfree : R none -> forall w,
      Known A none seen w ∧ w.sched.lease = none ->
        wp (directed V A) (Queue.pollReady turn) Q X w)
    (hheld : forall key, R (some key) -> forall w,
      Known A none seen w ∧ w.sched.lease = some key ->
        wp (directed V A) (Queue.pollLeased turn key) Q X w)
    (hw : Known A none seen w ∧ R w.sched.lease) :
    wp (directed V A) (Queue.poll turn) Q X w := by
  apply wp.bind
  apply wp.op (Known.stable.and (directed_lease R)) hw
  intro w _ hw
  refine ⟨trivial, ?_⟩
  intro input w' held _ hexec _
  rcases Op.sched_result (machine_exec hexec) with ⟨hworld, hlease⟩
  change w.sched.lease = held at hlease
  subst hworld
  have hR := hw.right
  rw [hlease] at hR
  cases held with
  | none => exact hfree hR _ ⟨hw.left, hlease⟩
  | some key => exact hheld key hR _ ⟨hw.left, hlease⟩

theorem poll_free {turn : TurnContext}
    (hw : Known A none seen w ∧ w.sched.lease = none) :
    wp (directed V A) (Queue.poll turn) (ReplyPoll.Surveys A seen)
      (fun _ => True) w :=
  poll_splits (R := fun lease => lease = none)
    (fun _ _ hw => pollReady_surveys turn hw)
    (fun _ hnever => by cases hnever) hw

theorem poll_held {turn : TurnContext}
    (hw : Kept A w ∧ w.sched.lease.isSome = true) :
    wp (directed V A) (Queue.poll turn) (ReplyPoll.Attends A)
      (fun _ => True) w :=
  poll_splits (R := fun lease => lease.isSome = true)
    (fun hnever => by cases hnever)
    (fun _ _ _ hw => pollLeased_attends turn hw) hw

theorem poll_kept {turn : TurnContext} :
    Keeps (directed V A) (Kept A) (fun _ => True) (Queue.poll turn) := by
  intro w hw
  apply poll_splits (R := fun _ => True) _ _ ⟨hw, trivial⟩
  · intro _ w hw
    apply wp.mono _ (fun _ hX => hX) (pollReady_surveys turn hw)
    intro result w hw
    cases result with
    | pending => exact hw.left.kept
    | progress => exact hw
    | leased => exact hw.kept
    | budgetExhausted => exact hw.kept
  · intro key _ w hw
    apply wp.mono _ (fun _ hX => hX) (pollLeased_attends turn hw)
    intro result w hw
    cases result with
    | progress => exact hw
    | pending => exact hw.kept
    | leased => exact hw.kept
    | budgetExhausted => exact hw.kept

end Loac

import Loac.Exclusion.Discipline

/-!
# Polls under a lease

A drain starts with a free lease, and a poll of the holder with a holder that
is in the queue.  Either polls one reply at a time, whose user code can take
the lease for this reply only, and a reply that has returned leaves the queue
before the lease can be looked at again.
-/

namespace Loac

open Interleave Interleave.Prog

variable {V α : Type} {A : ActorConfig} {heed : Prop} {w w' : World V}
  {key : Key} {late : Option Key} {X : World V -> Prop}

/-!
## Polling one reply
-/

theorem Awaiting.modify {f : ScheduledFuture -> ScheduledFuture}
    (h : Awaiting late w)
    (hf : forall scheduled, (f scheduled).returned = scheduled.returned ∨
      late = some key)
    (hitems : w'.sched.items = w.sched.items.modify key f) :
    Awaiting late w' := by
  intro other scheduled hget hreturned
  rw [hitems, Slots.get?_modify] at hget
  by_cases heq : other = key
  · rw [if_pos heq] at hget
    rcases Option.map_eq_some_iff.mp hget with ⟨before, hbefore, hnow⟩
    cases hf before with
    | inl hsame =>
        rw [← hnow, hsame] at hreturned
        exact h other before hbefore hreturned
    | inr hlate =>
        rw [heq]
        exact hlate
  · rw [if_neg heq] at hget
    exact h other scheduled hget hreturned

theorem member_modify {f : ScheduledFuture -> ScheduledFuture}
    {slots : Slots ScheduledFuture} (h : slots.get? key ≠ none) :
    (slots.modify key f).get? key ≠ none := by
  rw [Slots.get?_modify, if_pos rfl]
  intro hnone
  exact h (Option.map_eq_none_iff.mp hnone)

/-- The reply whose future returned may be one that has returned. -/
theorem Awaiting.weaken (h : Awaiting none w) : Awaiting late w := by
  intro other scheduled hget hreturned
  cases h other scheduled hget hreturned

theorem Occupied.return_exec {input : Input V} {value : V}
    (hexec : (Op.user (.replyPoll key)).exec A input w =
      some (w', .returns (some value)))
    (h : Occupied heed key none w) : Occupied heed key (some key) w' := by
  have hlease := Op.user_lease (.replyPoll key) rfl hexec h.lease
  have hschedules := Op.user_schedules hexec
  have hitems : w'.sched.items = w.sched.items.modify key fun scheduled =>
      { scheduled with returned := true } := by
    revert hschedules
    generalize w'.sched = sched'
    intro hschedules
    cases hschedules with
    | nothing step hreturns => exact absurd rfl (hreturns key value rfl)
    | returned other value' hsite =>
        cases hsite
        rfl
  refine ⟨⟨hlease, fun hheed => ?_⟩, ?_⟩
  · exact (h.awaiting hheed).weaken.modify (fun _ => Or.inr rfl) hitems
  · rw [hitems]
    exact member_modify h.member

theorem Occupied.pending_exec {input : Input V} {step : UserStep V}
    (hstep : forall value, step ≠ .returns (some value))
    (hexec : (Op.user (.replyPoll key)).exec A input w = some (w', step))
    (h : Occupied heed key none w) : Occupied heed key none w' := by
  have hlease := Op.user_lease (.replyPoll key) rfl hexec h.lease
  have hschedules := Op.user_schedules hexec
  have hitems : w'.sched.items = w.sched.items := by
    revert hschedules
    generalize w'.sched = sched'
    intro hschedules
    cases hschedules with
    | nothing step _ => rfl
    | acquired other _ => rfl
    | released other _ => rfl
    | returned other value _ => exact absurd rfl (hstep value)
  refine ⟨⟨hlease, fun hheed => ?_⟩, ?_⟩
  · unfold Awaiting
    rw [hitems]
    exact h.awaiting hheed
  · rw [hitems]
    exact h.member

/-- The reply that may be one that has returned after its poll. -/
def lateIf (key : Key) (ready : Bool) : Option Key :=
  if ready then some key else none

theorem runPoll_occupied (hw : Occupied heed key none w) :
    wp (leaseDiscipline V A heed) (runUser (.replyPoll key))
      (fun value => Occupied heed key (lateIf key value.isSome))
      (fun _ => True) w := by
  apply wp.rounds (fun _ => Occupied heed key none) hw
  intro _ w hw
  apply wp.bind
  apply wp.op Occupied.ofQueue.stable hw
  intro w _ hw
  refine ⟨hw.toOwn.demands (.replyPoll key) rfl, ?_⟩
  intro input w' step _ hexec _
  have hexec := machine_exec hexec
  cases step with
  | continues => exact wp.again (hw.pending_exec (by simp) hexec)
  | panics => exact wp.throw trivial
  | returns value =>
      cases value with
      | none => exact wp.done (hw.pending_exec (by simp) hexec)
      | some value => exact wp.done (hw.return_exec hexec)

/-- What a reply owes says nothing about whether it has returned. -/
theorem Occupied.modify (h : Occupied heed key late w)
    (f : ScheduledFuture -> ScheduledFuture)
    (hf : forall scheduled, (f scheduled).returned = scheduled.returned)
    (hlease : w'.sched.lease = w.sched.lease)
    (hitems : w'.sched.items = w.sched.items.modify key f) :
    Occupied heed key late w' := by
  refine ⟨⟨?_, fun hheed => ?_⟩, ?_⟩
  · rw [hlease]
    exact h.lease
  · exact (h.awaiting hheed).modify (fun scheduled => Or.inl (hf scheduled))
      hitems
  · rw [hitems]
    exact member_modify h.member

theorem takeReply_occupied :
    Keeps (leaseDiscipline V A heed) (Occupied heed key late) X
      (sched (.takeReply key)) := by
  intro w hw
  apply wp.op Occupied.ofQueue.stable hw
  intro w _ hw
  refine ⟨trivial, ?_⟩
  intro input w' reply _ hexec _
  rw [(Op.sched_result (machine_exec hexec)).left]
  show Occupied heed key late { w with sched := (w.sched.takeReply key).1 }
  unfold Sched.takeReply
  split
  · exact hw.modify (fun scheduled =>
      { scheduled with future := .completeReply none }) (fun _ => rfl) rfl rfl
  · exact hw

theorem takeFinal_occupied :
    Keeps (leaseDiscipline V A heed) (Occupied heed key late) X
      (sched (.takeFinal key)) := by
  intro w hw
  apply wp.op Occupied.ofQueue.stable hw
  intro w _ hw
  refine ⟨trivial, ?_⟩
  intro input w' final _ hexec _
  rw [(Op.sched_result (machine_exec hexec)).left]
  show Occupied heed key late { w with sched := (w.sched.takeFinal key).1 }
  unfold Sched.takeFinal
  split
  · exact hw.modify (fun scheduled =>
      { scheduled with future := .finishStream false }) (fun _ => rfl) rfl rfl
  · exact hw

theorem pollWithTask_occupied (scheduled : ScheduledFuture)
    (hw : Occupied heed key none w) :
    wp (leaseDiscipline V A heed) (scheduled.pollWithTask key)
      (fun ready => Occupied heed key (lateIf key ready)) (fun _ => True) w := by
  have hpays : (repertoire V payingParts).Keeps (leaseDiscipline V A heed)
      (Occupied heed key (some key)) := Occupied.ofQueue.keepsMeek rfl
  have hregister : Keeps (leaseDiscipline V A heed) (Occupied heed key none)
      (fun _ => True) (sched (.register key)) :=
    Occupied.ofQueue.perform _ ⟨rfl, rfl⟩ (fun _ _ => trivial)
  apply wp.seq (hregister w hw)
  intro _ w hw
  cases scheduled.future with
  | completeReply reply =>
      apply wp.seq (runPoll_occupied hw)
      intro value w hw
      cases value with
      | none => exact wp.pure hw
      | some value =>
          apply wp.seq (takeReply_occupied w hw)
          intro taken w hw
          cases taken with
          | none => exact wp.throw trivial
          | some reply =>
              apply wp.seq (completeReply_keeps hpays reply _ w hw)
              intro _ w hw
              exact wp.pure hw
  | finishStream final =>
      apply wp.seq (runPoll_occupied hw)
      intro value w hw
      cases value with
      | none => exact wp.pure hw
      | some value =>
          apply wp.seq (takeFinal_occupied w hw)
          intro final w hw
          have hsend : (onlyIf final (callUser .finalSend) : P V Unit).Uses
              (repertoire V payingParts) :=
            Within.onlyIf (callUser_uses (repertoire_has.mono rfl))
          apply wp.seq (((hsend.keeps hpays).conseq (fun _ _ => trivial)) w hw)
          intro _ w hw
          exact wp.pure hw

/-!
## Taking out a finished reply
-/

theorem Own.remove (h : Own heed key (some key) w) :
    Own heed key none { w with sched :=
      ((SchedOp.remove key).exec w.sched).1 } where
  lease := h.lease
  awaiting := by
    intro hheed other scheduled hget hreturned
    change (w.sched.items.remove key).get? other = some scheduled at hget
    rw [Slots.get?_remove] at hget
    by_cases heq : other = key
    · rw [if_pos heq] at hget
      cases hget
    · rw [if_neg heq] at hget
      cases h.awaiting hheed other scheduled hget hreturned
      exact absurd rfl heq

/-- User code of the reply that polls nothing. -/
theorem callUser_own {site : UserSite} (hcx : site.cx = some key)
    (hshares : site.Shares key)
    (hpolls : (Op.user site : Op V (UserStep V)).handles = false) :
    Keeps (leaseDiscipline V A heed) (Own heed key late) (Own heed key late)
      (callUser site) := by
  have hstep : Keeps (leaseDiscipline V A heed) (Own heed key late)
      (Own heed key late) (perform (.user site)) := by
    intro w hw
    apply wp.op Own.ofQueue.stable hw
    intro w _ hw
    refine ⟨hw.demands site hshares, ?_⟩
    intro input w' step _ hexec _
    exact hw.user site hcx hpolls (machine_exec hexec)
  refine Keeps.bind (Keeps.iter fun _ => Keeps.bind hstep fun step => ?_)
    (fun _ => Keeps.pure ())
  cases step with
  | continues => exact Keeps.again _
  | returns value => exact Keeps.done _
  | panics => exact Keeps.throw (fun _ h => h)

theorem dropScheduled_own (scheduled : ScheduledFuture) :
    Keeps (leaseDiscipline V A heed) (Own heed key none) (Own heed key none)
      (scheduled.drop key false) := by
  have hanswers : (repertoire V answerParts).Keeps (leaseDiscipline V A heed)
      (Own heed key none) := Own.ofQueue.keepsMeek rfl
  have hdrop : Keeps (leaseDiscipline V A heed) (Own heed key none)
      (Own heed key none) (callUser (.replyDrop key false)) :=
    callUser_own rfl trivial rfl
  have hsend : Keeps (leaseDiscipline V A heed) (Own heed key none)
      (Own heed key none) (callUser .finalSend) :=
    (callUser_uses (repertoire_has.mono rfl)).keeps hanswers
  unfold ScheduledFuture.drop
  split
  · exact Keeps.bind (dropReply_keeps hanswers _) (fun _ => hdrop)
  · exact hdrop
  · exact Keeps.onExit hdrop hsend hsend
  · exact hdrop

/-- A reply that completes leaves the lease free, whatever it leaked. -/
theorem complete_vacant (hw : Own heed key (some key) w) :
    wp (leaseDiscipline V A heed) (Queue.complete key)
      (fun _ => Vacant heed) X w := by
  have hremove : wp (leaseDiscipline V A heed) (Queue.remove key)
      (fun _ => Own heed key none) X w := by
    apply wp.bind
    apply wp.op Own.ofQueue.stable hw
    intro w _ hw
    refine ⟨trivial, ?_⟩
    intro input w' removed _ hexec _
    have hown : Own heed key none w' := by
      rw [(Op.sched_result (machine_exec hexec)).left]
      exact hw.remove
    cases removed with
    | none => exact wp.pure hown
    | some scheduled =>
        have hfails : (repertoire V [.fails]).Keeps (leaseDiscipline V A heed)
            (Own heed key none) := Own.ofQueue.keepsMeek rfl
        exact dropUserValue_keeps (dropScheduled_own scheduled) hfails w' hown
  apply wp.seq hremove
  intro _ w hw
  apply wp.bind
  apply wp.op Own.ofQueue.stable hw
  intro w _ hw
  refine ⟨trivial, ?_⟩
  intro input w' held _ hexec _
  rcases Op.sched_result (machine_exec hexec) with ⟨hworld, hheld⟩
  have hown : Own heed key none w' ∧ w'.sched.lease = held := by
    rw [hworld]
    exact ⟨hw, hheld⟩
  apply wp.onlyIf
  · intro _
    apply wp.op Own.ofQueue.stable hown.left
    intro w _ hw
    refine ⟨trivial, ?_⟩
    intro input w' _ _ hexec _
    rw [(Op.sched_result (machine_exec hexec)).left]
    exact ⟨rfl, hw.awaiting⟩
  · intro hother
    apply hown.left.vacant
    rw [hown.right]
    exact of_decide_eq_false hother

end Loac

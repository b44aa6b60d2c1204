import Loac.Delivery.Turns

/-!
# Ends of a delivery

However an actor ends, nothing that it accepted is forgotten: what is left in
the queue is discarded, and what is scheduled is answered.
-/

namespace Loac

open Interleave Interleave.Prog

variable {V α : Type} {A : ActorConfig} {w w' : World V}
  {P Q : World V -> Prop} {Y : World V -> Prop}

/-- The books are clean, and what is left in the queue may be discarded. -/
abbrev Down (w : World V) : Prop :=
  Clean (Ending (fun _ => True)) w

theorem down_lasting : Lasting A (Ending (V := V) (fun _ => True)) :=
  (ending_enduring Enduring.true).lasting

theorem Cut.ending (h : Cut w) : Ending (fun _ => True) w :=
  ⟨h.discardable, trivial⟩

theorem Hard.cut (h : Hard w) : Cut w := by
  unfold Hard at h
  constructor
  · intro hmode
    rw [hmode] at h
    cases h
  · intro hmode
    rw [hmode] at h
    cases h

theorem beginFailure_down (hP : Lasting A P) (hw : Clean P w) :
    wp (deliveryDiscipline V A) (transact .beginFailure)
      (fun _ => Down) Y w := by
  apply wp.op hP.book hw
  intro w hinv hw
  refine ⟨trivial, ?_⟩
  intro input w' _ _ hexec _
  have hexec' : (Op.transact .beginFailure).exec A input w =
      some (w', ()) := hexec
  exact ⟨hw.left.op_step rfl hexec', (hard_beginFailure hexec').cut.ending⟩

/-!
## Children
-/

theorem requestAll_keeps (hP : Lasting A P) (shutdown : Shutdown) :
    Keeps (deliveryDiscipline V A) (Clean P) Y
      (ChildSet.requestAll shutdown) :=
  Keeps.bind (hP.kin .actors) fun _ => Keeps.forEach (fun _ => hP.kin _)

theorem pollWait_keeps (hP : Lasting A P) (keys : List Key) :
    Keeps (deliveryDiscipline V A) (Clean P) Y (ChildSet.pollWait keys) := by
  induction keys with
  | nil => exact Keeps.bind (hP.kin .clear) (fun _ => Keeps.pure _)
  | cons key rest ih =>
      exact Keeps.bind (hP.kin (.wait key))
        (fun _ => Keeps.ite ih (Keeps.pure _))

theorem waitAll_keeps (hP : Lasting A P) (site : Site) :
    Keeps (deliveryDiscipline V A) (Clean P) Y (ChildSet.waitAll site) := by
  refine Keeps.bind (hP.kin .actors) fun keys => ?_
  apply Keeps.iter
  intro keys
  refine Keeps.bind (pollWait_keeps hP keys) fun result => ?_
  cases result with
  | inl keys' => exact Keeps.bind (hP.idle.waits site) (fun _ => Keeps.again _)
  | inr _ => exact Keeps.done ()

theorem terminalStatus_keeps (hP : Lasting A P) (reason : ExitReason) :
    Keeps (deliveryDiscipline V A) (Clean P) Y
      (ChildSet.terminalStatus reason) :=
  Keeps.bind (hP.kin .subtree) (fun _ => Keeps.pure _)

theorem dropChildren_keeps (hP : Lasting A P) :
    Keeps (deliveryDiscipline V A) (Clean P) Y ChildSet.drop :=
  requestAll_keeps hP .kill

/-!
## Discarding
-/

theorem closeAndDiscard_pays (hQ : Enduring A Q) (initialized : Bool)
    (expectedMode : Mode) (hw : Clean (Ending Q) w) :
    wp (deliveryDiscipline V A) (closeAndDiscard initialized expectedMode)
      (fun _ => Clean (Ending Q)) Y w := by
  have hdown := (ending_enduring hQ).lasting
  apply wp.seq (closeInbox_pays hdown (fun _ hw => hw.left.left) w hw)
  intro _ w hw
  apply wp.iter (fun _ => Clean (Ending Q)) hw
  intro dropped w hw
  apply wp.seq (hdown.sound.differs expectedMode w hw)
  intro changed w hw
  cases changed with
  | true => exact wp.done hw
  | false =>
      apply wp.seq (tryDiscard_pays hQ hw)
      intro discarded w hw
      cases discarded with
      | false => exact wp.done hw.left
      | true =>
          apply wp.seq (hdown.sound.differs expectedMode w hw.left)
          intro changed w hw
          cases changed with
          | true => exact wp.done hw
          | false =>
              by_cases hbudget : dropped + 1 = teardownDropBudget
              · simp only [if_pos hbudget]
                apply wp.seq (hdown.sound.wakeTask w hw)
                intro _ w hw
                apply wp.seq (hdown.idle.waits _ w hw)
                intro _ w hw
                exact wp.again hw
              · simp only [if_neg hbudget]
                exact wp.again hw

theorem closeDiscarded_pays (initialized : Bool) (expectedMode : Mode) :
    Keeps (deliveryDiscipline V A) Down Y
      (closeDiscarded initialized expectedMode) := by
  apply Keeps.iter
  intro expectedMode w hw
  apply wp.seq (closeAndDiscard_pays Enduring.true initialized expectedMode hw)
  intro outcome w hw
  cases outcome with
  | complete => exact wp.done hw
  | modeChanged =>
      apply wp.seq (down_lasting.sound.mode w hw)
      intro _ w hw
      exact wp.again hw

theorem clear_pays :
    Keeps (deliveryDiscipline V A) Down Y (clear A) := by
  intro w hw
  unfold clear
  cases A.mailbox with
  | none => exact wp.pure hw
  | some _ =>
      exact wp.mono (fun _ _ hw => hw.left) (fun _ hY => hY)
        (clearQueue_pays down_lasting hw)

/-!
## Hard teardown
-/

theorem closeDown_keeps :
    Keeps (deliveryDiscipline V A) Down Y ActorInbox.close :=
  closeInbox_pays down_lasting (fun _ hw => hw.left.left)

theorem reach_keeps (hP : Lasting A P) (point : Point)
    (hpoint : forall shutdown, point ≠ .gracefulFinish shutdown) :
    Keeps (deliveryDiscipline V A) (Clean P) Y
      (perform (.reach point)) := by
  intro w hw
  apply wp.op hP.book hw
  intro w _ hw
  refine ⟨?_, ?_⟩
  · cases point with
    | gracefulFinish shutdown => exact absurd rfl (hpoint shutdown)
    | _ => trivial
  · intro input w' _ _ hexec _
    cases hexec
    exact hw

theorem killActor_pays :
    Keeps (deliveryDiscipline V A) Down Y (killActor A) := by
  have hdown := down_lasting (V := V) (A := A)
  exact Keeps.bind closeDown_keeps fun _ =>
    Keeps.bind (requestAll_keeps hdown .kill) fun _ =>
      Keeps.bind clear_pays fun _ =>
        Keeps.bind (closeDiscarded_pays true _) fun _ =>
          Keeps.bind (reach_keeps hdown _ (fun _ => by simp)) fun _ =>
            Keeps.bind (waitAll_keeps hdown _) fun _ =>
              terminalStatus_keeps hdown _

theorem failWith_pays (reason : ExitReason) :
    Keeps (deliveryDiscipline V A) Down Y (failWith A reason) := by
  have hdown := down_lasting (V := V) (A := A)
  exact Keeps.bind closeDown_keeps fun _ =>
    Keeps.bind (requestAll_keeps hdown .kill) fun _ =>
      Keeps.bind clear_pays fun _ =>
        Keeps.bind hdown.sound.mode fun _ =>
          Keeps.bind (closeDiscarded_pays true _) fun _ =>
            Keeps.bind (reach_keeps hdown _ (fun _ => by simp)) fun _ =>
              Keeps.bind (waitAll_keeps hdown _) fun _ =>
                terminalStatus_keeps hdown _

theorem failActor_pays (hP : Lasting A P) (hw : Clean P w) :
    wp (deliveryDiscipline V A) (failActor A) (fun _ => Down) Y w := by
  apply wp.seq (beginFailure_down hP hw)
  intro _ w hw
  apply wp.seq (down_lasting.sound.mode w hw)
  intro mode w hw
  cases mode with
  | exited status => exact wp.pure hw
  | _ => exact failWith_pays _ w hw

theorem killUninitialized_pays :
    Keeps (deliveryDiscipline V A) Down Y killUninitialized := by
  have hdown := down_lasting (V := V) (A := A)
  exact Keeps.bind closeDown_keeps fun _ =>
    Keeps.bind (requestAll_keeps hdown .kill) fun _ =>
      Keeps.bind (closeDiscarded_pays false _) fun _ =>
        Keeps.bind (waitAll_keeps hdown _) fun _ =>
          terminalStatus_keeps hdown _

theorem failUninitializedWith_pays (reason : ExitReason) :
    Keeps (deliveryDiscipline V A) Down Y (failUninitializedWith reason) := by
  have hdown := down_lasting (V := V) (A := A)
  exact Keeps.bind closeDown_keeps fun _ =>
    Keeps.bind (requestAll_keeps hdown .kill) fun _ =>
      Keeps.bind hdown.sound.mode fun _ =>
        Keeps.bind (closeDiscarded_pays false _) fun _ =>
          Keeps.bind (waitAll_keeps hdown _) fun _ =>
            terminalStatus_keeps hdown _

theorem failUninitialized_pays (hP : Lasting A P) (hw : Clean P w) :
    wp (deliveryDiscipline V A) failUninitialized (fun _ => Down) Y w := by
  apply wp.seq (beginFailure_down hP hw)
  intro _ w hw
  apply wp.seq (down_lasting.sound.mode w hw)
  intro mode w hw
  cases mode with
  | exited status => exact wp.pure hw
  | _ => exact failUninitializedWith_pays _ w hw

/-!
## Graceful ends
-/

theorem finishChildren_keeps (hP : Lasting A P) (shutdown : Shutdown)
    (keys : Option (List Key)) (hw : Clean P w) :
    wp (deliveryDiscipline V A) (finishChildren shutdown keys)
      (Sound.Splits (fun _ => Clean P) (fun _ => Clean P)) Y w := by
  have hwait : forall keys (w : World V), Clean P w ->
      wp (deliveryDiscipline V A) (finishChildren.finishChildrenWait keys)
        (Sound.Splits (fun _ => Clean P) (fun _ => Clean P)) Y w := by
    intro keys w hw
    apply wp.seq (pollWait_keeps hP keys w hw)
    intro result w hw
    cases result with
    | inl keys' => exact wp.pure hw
    | inr _ => exact wp.pure hw
  cases keys with
  | some keys => exact hwait keys w hw
  | none =>
      apply wp.seq (requestAll_keeps hP shutdown w hw)
      intro _ w hw
      apply wp.seq (hP.kin .actors w hw)
      intro keys w hw
      exact hwait keys w hw

theorem gracefulFinish_pays (hP : Lasting A P) (shutdown : Shutdown)
    (reason : ExitReason) (hreach : forall w : World V, Clean P w ->
      DeliveryDemands (.reach (.gracefulFinish shutdown)) w)
    (hw : Clean P w) :
    wp (deliveryDiscipline V A) (gracefulFinish shutdown reason)
      (Sound.Worked (Clean P) (fun _ => Clean P)) Y w := by
  apply wp.seq (R := fun _ => Clean P)
  · apply wp.op hP.book hw
    intro w _ hw
    refine ⟨hreach w hw, ?_⟩
    intro input w' _ _ hexec _
    cases hexec
    exact hw
  · intro _ w hw
    have hchildren := hP.sound.awaitActorWork .children none (Y := Y) hP.idle
      (fun _ => hP.idle) (fun _ _ hw => hw) (fun _ : Unit => hP.idle)
      (fun keys w hw => finishChildren_keeps hP shutdown keys hw)
      (Keeps.pure ()) (Keeps.pure ()) (fun _ => Keeps.pure ()) hw
    apply wp.seq hchildren
    intro work w hw
    cases work with
    | complete _ =>
        exact hP.await (.onStop reason) (.stopPoll reason) (.stopDrop reason)
          rfl rfl hw
    | killed => exact wp.pure hw
    | panicked => exact wp.pure hw
    | dropPanicked _ => exact wp.pure hw

theorem terminate_pays (hP : Lasting A P)
    (hdown : forall w, P w -> Discardable w) (reason : ExitReason)
    {work : Work Unit}
    (hw : Sound.Worked (Clean P) (fun _ => Clean P) work w) :
    wp (deliveryDiscipline V A) (terminate A reason work)
      (fun _ => Down) Y w := by
  cases work with
  | complete _ =>
      apply wp.mono _ (fun _ hY => hY) (terminalStatus_keeps hP reason w hw)
      intro _ w hw
      exact ⟨hw.left, hdown w hw.right, trivial⟩
  | killed => exact killActor_pays w ⟨hw.left.left, hw.right.cut.ending⟩
  | panicked => exact failActor_pays hP hw
  | dropPanicked _ => exact failActor_pays hP hw

end Loac

import Loac.Delivery.Teardown

/-!
# Deliveries of a running actor

A running actor and a draining one take envelopes for dispatch.  A stopping
one discards them, and a drained one has none left.
-/

namespace Loac

open Interleave Interleave.Prog

variable {V α : Type} {A : ActorConfig} {w w' : World V}
  {P Q : World V -> Prop} {Y : World V -> Prop}

/-!
## Stop
-/

/-- The books of an actor that dispatches nothing any more. -/
abbrev Stopping (w : World V) : Prop :=
  Clean Cut w

theorem Stopping.down (h : Stopping w) : Down w :=
  ⟨h.left, h.right.ending⟩

theorem finishRepliesTurn_pays (hP : Lasting A P) :
    Keeps (deliveryDiscipline V A) (Clean P) (Clean P)
      (finishRepliesTurn A) := by
  have hpoll : forall (_ : Unit) (w : World V), Clean P w ->
      wp (deliveryDiscipline V A)
        (pollOnce (pollActorReplies A
          { receiveMessages := false, expectedMode := .stopping }) ())
        (Sound.Splits (fun _ : Unit => Clean P) (fun _ : Unit => Clean P))
        (Clean P) w := by
    intro _ w hw
    apply wp.seq (R := fun _ => Clean P)
    · unfold pollActorReplies
      cases A.mailbox with
      | none => exact wp.pure hw
      | some _ =>
          apply wp.seq (pollQueue_pays hP _ w hw)
          intro result w hw
          cases result <;> exact wp.pure hw
    · intro result w hw
      cases result with
      | none => exact wp.pure hw
      | some _ => exact wp.pure hw
  intro w hw
  apply wp.seq (Sound.select .finishReplies () (fun _ => hP.idle)
    (fun _ => hP.idle) hP.idle hpoll hw)
  intro result w hw
  cases result with
  | inl _ => exact wp.pure hw
  | inr _ => exact wp.pure hw

theorem isIdle_keeps (hP : Lasting A P) :
    Keeps (deliveryDiscipline V A) (Clean P) Y (isIdle A) := by
  unfold isIdle
  cases A.mailbox with
  | none => exact Keeps.pure _
  | some _ => exact hP.sched .isEmpty rfl

theorem finishReplies_pays (hP : Lasting A P) :
    Keeps (deliveryDiscipline V A) (Clean P) Y (finishReplies A) := by
  apply Keeps.iter
  intro _ w hw
  apply wp.seq (isIdle_keeps hP w hw)
  intro idle w hw
  cases idle with
  | true => exact wp.done hw
  | false =>
      apply wp.seq (hP.sound.mode w hw)
      intro mode w hw
      cases mode with
      | killing => exact wp.done hw
      | failing => exact wp.done hw
      | aborting => exact wp.done hw
      | exited status => exact wp.done hw
      | _ =>
          apply wp.bind
          apply wp.attempt
          apply wp.mono _ _ (finishRepliesTurn_pays hP w hw)
          · intro _ w hw
            exact wp.again hw
          · intro w hw
            apply wp.seq (hP.sound.containPanic hw)
            intro _ w hw
            exact wp.done hw

theorem stopReplies_pays (hw : Stopping w) :
    wp (deliveryDiscipline V A) (stopReplies A) (fun _ => Down) Y w := by
  have hcut := (cut_enduring (V := V) (A := A)).lasting
  apply wp.seq (finishReplies_pays hcut w hw)
  intro work w hw
  cases work with
  | complete _ =>
      apply wp.seq (gracefulFinish_pays hcut .stop _ (fun _ _ => trivial) hw)
      intro work w hw
      exact terminate_pays hcut (fun _ hw => hw.discardable) .stopped hw
  | killed => exact killActor_pays w (Stopping.down hw)
  | panicked => exact failActor_pays hcut hw
  | dropPanicked _ => exact failActor_pays hcut hw

theorem stopActor_pays (hw : Stopping w) :
    wp (deliveryDiscipline V A) (stopActor A) (fun _ => Down) Down w := by
  have hcut := (cut_enduring (V := V) (A := A)).lasting
  apply wp.seq (closeAndDiscard_pays cut_enduring true .stopping
    ⟨hw.left, hw.right.ending.left, hw.right⟩)
  intro outcome w hw
  have hw : Stopping w := ⟨hw.left, hw.right.right⟩
  cases outcome with
  | complete => exact stopReplies_pays hw
  | modeChanged =>
      apply wp.seq (hcut.sound.mode w hw)
      intro mode w hw
      cases mode with
      | killing => exact killActor_pays w (Stopping.down hw)
      | failing => exact failActor_pays hcut hw
      | _ =>
          apply wp.seq (reach_keeps hcut .impossibleMode (fun _ => by simp) w hw)
          intro _ w hw
          exact wp.throw (Stopping.down hw)

/-!
## Child exits
-/

theorem handleChildExit_keeps (hP : Lasting A P) (event : ChildExit)
    (hw : Clean P w) :
    wp (deliveryDiscipline V A) (handleChildExit event)
      (Sound.Worked (Clean P) (fun _ => Clean P)) Y w := by
  apply wp.seq (hP.kin (.reap event) w hw)
  intro reaped w hw
  cases reaped with
  | false => exact wp.pure hw
  | true =>
      apply wp.seq (hP.perform (.transact .beginChildHook) rfl
        (fun _ => trivial) (fun _ => rfl) w hw)
      intro begun w hw
      cases begun with
      | false => exact wp.pure hw
      | true =>
          exact hP.await (.hook event.child) (.hookPoll event.child)
            (.hookDrop event.child) rfl rfl hw

/-!
## Drain
-/

abbrev Draining (inboxDrained : Bool) (w : World V) : Prop :=
  Closing w ∧ (inboxDrained = true -> Emptied w)

theorem draining_detached (inboxDrained : Bool) :
    Detached A (Draining (V := V) inboxDrained) :=
  closing_detached.and
    { env := fun e w w' hinv henv hw hdrained =>
        emptied_enduring.env e w w' hinv henv (hw hdrained)
      op := fun op input w w' a hplaces hinv hexec hw hdrained =>
        emptied_enduring.op op input w w' a hplaces hinv hexec (hw hdrained)
      sched := fun _ _ hw => hw }

theorem draining_lasting (inboxDrained : Bool) :
    Lasting A (Served (Draining (V := V) inboxDrained)) :=
  served_lasting (draining_detached inboxDrained).toEnduring

theorem inboxIsEmpty_drains (inboxDrained : Bool)
    (hw : Clean (Served (Draining inboxDrained)) w) :
    wp (deliveryDiscipline V A) ActorInbox.isEmpty
      (fun empty => Clean (Served (Draining (inboxDrained || empty)))) Y w := by
  apply wp.op (draining_lasting inboxDrained).book hw
  intro w _ hw
  refine ⟨trivial, ?_⟩
  intro input w' empty _ hexec _
  cases hexec
  refine ⟨hw.left, hw.right.left, hw.right.right.left, ?_⟩
  intro hdrained
  cases Bool.or_eq_true_iff.mp hdrained with
  | inl hbefore => exact hw.right.right.right hbefore
  | inr hempty =>
      exact ⟨hw.right.right.left, List.isEmpty_iff.mp hempty⟩

theorem drainTurn_pays (inboxDrained : Bool)
    (hw : Clean (Served (Draining inboxDrained)) w) :
    wp (deliveryDiscipline V A) (drainTurn A (!inboxDrained))
      (fun result w => Clean (Served (Draining inboxDrained)) w ∧
        match result with
        | .repliesFinished => inboxDrained = true
        | .scheduled turn => turn.Empties w)
      (Clean (Served (Draining inboxDrained))) w := by
  apply wp.seq (isIdle_keeps (draining_lasting inboxDrained) w hw)
  intro idle w hw
  cases inboxDrained with
  | true =>
      cases idle with
      | true => exact wp.pure ⟨hw, rfl⟩
      | false =>
          apply wp.seq (actorTurn_pays (draining_detached true) rfl hw)
          intro turn w hw
          exact wp.pure hw
  | false =>
      apply wp.seq (actorTurn_pays (draining_detached false) rfl hw)
      intro turn w hw
      exact wp.pure hw

theorem drainRound_pays (inboxDrained : Bool)
    (hw : Clean (Served (Draining inboxDrained)) w) :
    wp (deliveryDiscipline V A) (drainRound A inboxDrained)
      (Sound.Splits
        (fun inboxDrained => Clean (Served (Draining inboxDrained)))
        (fun result w =>
          match result with
          | some _ => Down w
          | none => Clean (Served (Draining true)) w)) Y w := by
  have hlasting := fun inboxDrained =>
    draining_lasting (V := V) (A := A) inboxDrained
  apply wp.seq (inboxIsEmpty_drains inboxDrained hw)
  intro empty w hw
  generalize (inboxDrained || empty) = drained at hw ⊢
  apply wp.bind
  apply wp.attempt
  apply wp.mono _ _ (drainTurn_pays drained hw)
  · intro result w hw
    cases result with
    | repliesFinished =>
        have hdrained : drained = true := hw.right
        subst hdrained
        exact wp.done hw.left
    | scheduled turn =>
        cases turn with
        | lifecycleHint => exact wp.again hw.left
        | progress => exact wp.again hw.left
        | inboxClosed =>
            have hempty : Emptied w := hw.right
            exact wp.again ⟨hw.left.left, hw.left.right.left,
              hw.left.right.right.left, fun _ => hempty⟩
        | child event =>
            apply wp.seq (handleChildExit_keeps (hlasting drained) event
              hw.left)
            intro work w hw
            cases work with
            | complete _ => exact wp.again hw
            | killed =>
                apply wp.seq (killActor_pays w
                  ⟨hw.left.left, hw.right.cut.ending⟩)
                intro _ w hw
                exact wp.done hw
            | panicked =>
                apply wp.seq (beginFailure_down (hlasting drained) hw)
                intro _ w hw
                apply wp.seq (failActor_pays down_lasting hw)
                intro _ w hw
                exact wp.done hw
            | dropPanicked _ =>
                apply wp.seq (beginFailure_down (hlasting drained) hw)
                intro _ w hw
                apply wp.seq (failActor_pays down_lasting hw)
                intro _ w hw
                exact wp.done hw
  · intro w hw
    apply wp.seq ((hlasting drained).sound.containPanic hw)
    intro _ w hw
    apply wp.seq (failActor_pays (hlasting drained) hw)
    intro _ w hw
    exact wp.done hw

theorem drainLoop_pays (inboxDrained : Bool)
    (hw : Clean (Served (Draining inboxDrained)) w) :
    wp (deliveryDiscipline V A) (drainLoop A inboxDrained)
      (fun result w =>
        match result with
        | some _ => Down w
        | none => Clean (Served (Draining true)) w) Y w := by
  apply wp.iter (fun inboxDrained =>
    Clean (Served (Draining inboxDrained))) hw
  intro inboxDrained w hw
  have hlasting := draining_lasting (V := V) (A := A) inboxDrained
  apply wp.seq (hlasting.mode hw)
  intro mode w hw
  rcases hw with ⟨hw, hmode, _, hopen⟩
  have hround := drainRound_pays (A := A) (Y := Y) inboxDrained hw
  cases mode with
  | killing =>
      have hhard : Hard w := congrArg Mode.isHard hmode.symm
      apply wp.seq (killActor_pays w ⟨hw.left, hhard.cut.ending⟩)
      intro _ w hw
      exact wp.done hw
  | failing =>
      apply wp.seq (failActor_pays hlasting hw)
      intro _ w hw
      exact wp.done hw
  | exited status => cases hopen
  | aborting =>
      have hhard : Hard w := congrArg Mode.isHard hmode.symm
      exact wp.done ⟨hw.left, hhard.cut.ending⟩
  | _ =>
      apply wp.mono _ (fun _ hY => hY) hround
      intro r w hw
      cases r with
      | inl _ => exact hw
      | inr _ => exact hw

theorem drainActor_pays (hw : Clean (Served Closing) w) :
    wp (deliveryDiscipline V A) (drainActor A) (fun _ => Down) Y w := by
  have hclosing : Lasting A (Served (Closing (V := V))) :=
    served_lasting closing_enduring
  have hfinal := draining_lasting (V := V) (A := A) true
  apply wp.seq (closeInbox_pays hclosing (fun _ hw => hw.right) w hw)
  intro _ w hw
  have hstart : Clean (Served (Draining false)) w :=
    ⟨hw.left, hw.right.left, hw.right.right, fun h => by cases h⟩
  apply wp.seq (inboxIsEmpty_drains false hstart)
  intro empty w hw
  rw [Bool.false_or] at hw
  apply wp.seq (drainLoop_pays empty hw)
  intro result w hw
  cases result with
  | some status => exact wp.pure hw
  | none =>
      have hreach : forall w : World V, Clean (Served (Draining true)) w ->
          DeliveryDemands (.reach (.gracefulFinish .drain)) w := by
        intro w hw hmode
        have hempty := hw.right.right.right rfl
        refine ⟨hw.right.left.left, hempty.right, hw.left.inHand, ?_⟩
        apply hw.right.left.right.resolve_right
        intro hcut
        exact hcut.right hmode
      apply wp.seq (gracefulFinish_pays hfinal .drain _ hreach hw)
      intro work w hw
      exact terminate_pays hfinal
        (fun _ hw => (hw.right.right rfl).discardable) .drained hw

/-!
## Running
-/

theorem shutdownActor_pays (hP : Lasting A P) (shutdown : Shutdown)
    {follow : Loac.P V ExitStatus}
    (hfollow : forall w, Clean P w ->
      wp (deliveryDiscipline V A) follow (fun _ => Down) Down w)
    (hw : Clean P w) :
    wp (deliveryDiscipline V A) (shutdownActor A shutdown follow)
      (fun _ => Down) Down w := by
  apply wp.bind
  apply wp.attempt
  apply wp.mono _ _ (hP.callUser (.onShutdown shutdown) rfl w hw)
  · intro _ w hw
    exact hfollow w hw
  · intro w hw
    apply wp.seq (hP.sound.containPanic hw)
    intro _ w hw
    exact failActor_pays hP hw

abbrev Running (w : World V) : Prop :=
  Clean (Served (fun _ => True)) w

theorem running_lasting : Lasting A (Served (V := V) (fun _ => True)) :=
  served_lasting Enduring.true

theorem runningRound_pays (hw : Running w) :
    wp (deliveryDiscipline V A) (runningRound A)
      (Sound.Splits (fun _ => Running) (fun _ => Down)) Y w := by
  have hrunning := running_lasting (V := V) (A := A)
  apply wp.bind
  apply wp.attempt
  apply wp.mono _ _ (actorTurn_pays Detached.true rfl hw)
  · intro turn w hw
    cases turn with
    | lifecycleHint => exact wp.again hw.left
    | progress => exact wp.again hw.left
    | inboxClosed =>
        apply wp.seq (reach_keeps hrunning .inboxClosed (fun _ => by simp) w
          hw.left)
        intro _ w hw
        apply wp.seq (beginFailure_down hrunning hw)
        intro _ w hw
        apply wp.seq (failActor_pays down_lasting hw)
        intro _ w hw
        exact wp.done hw
    | child event =>
        apply wp.seq (handleChildExit_keeps hrunning event hw.left)
        intro work w hw
        cases work with
        | complete _ => exact wp.again hw
        | killed =>
            apply wp.seq (killActor_pays w
              ⟨hw.left.left, hw.right.cut.ending⟩)
            intro _ w hw
            exact wp.done hw
        | panicked =>
            apply wp.seq (beginFailure_down hrunning hw)
            intro _ w hw
            apply wp.seq (failActor_pays down_lasting hw)
            intro _ w hw
            exact wp.done hw
        | dropPanicked _ =>
            apply wp.seq (beginFailure_down hrunning hw)
            intro _ w hw
            apply wp.seq (failActor_pays down_lasting hw)
            intro _ w hw
            exact wp.done hw
  · intro w hw
    apply wp.seq (hrunning.sound.containPanic hw)
    intro _ w hw
    apply wp.seq (failActor_pays hrunning hw)
    intro _ w hw
    exact wp.done hw

theorem runningLoop_pays (hw : Running w) :
    wp (deliveryDiscipline V A) (runningLoop A) (fun _ => Down) Down w := by
  have hrunning := running_lasting (V := V) (A := A)
  apply wp.iter (fun _ => Running) hw
  intro _ w hw
  apply wp.seq (hrunning.mode hw)
  intro mode w hw
  rcases hw with ⟨hw, hmode, _, hopen⟩
  cases mode with
  | running =>
      apply wp.mono _ (fun _ hX => hX) (runningRound_pays hw)
      intro r w hw
      cases r with
      | inl _ => exact hw
      | inr _ => exact hw
  | draining =>
      have hclosing : Closing w := by
        unfold Closing
        rw [← hmode]
        simp
      apply wp.seq (shutdownActor_pays (served_lasting closing_enduring) .drain
        (fun _ hw => drainActor_pays hw)
        ⟨hw.left, hw.right.left, hclosing⟩)
      intro _ w hw
      exact wp.done hw
  | stopping =>
      have hcut : Cut w := by
        unfold Cut
        rw [← hmode]
        exact ⟨by simp, by simp⟩
      apply wp.seq (shutdownActor_pays cut_enduring.lasting .stop
        (fun _ hw => stopActor_pays hw) ⟨hw.left, hcut⟩)
      intro _ w hw
      exact wp.done hw
  | killing =>
      have hhard : Hard w := congrArg Mode.isHard hmode.symm
      apply wp.seq (killActor_pays w ⟨hw.left, hhard.cut.ending⟩)
      intro _ w hw
      exact wp.done hw
  | failing =>
      apply wp.seq (failActor_pays hrunning hw)
      intro _ w hw
      exact wp.done hw
  | exited status => cases hopen
  | aborting =>
      have hhard : Hard w := congrArg Mode.isHard hmode.symm
      exact wp.done ⟨hw.left, hhard.cut.ending⟩

end Loac

import Loac.EndOfLife.Teardown

/-!
# The loops of an actor

A running actor leaves its loop for one of its ends, and each end that it
proposes a reason for had been requested.
-/

namespace Loac

open Interleave Interleave.Prog

variable {V α : Type} {A : ActorConfig} {T : Terms} {Y : World V -> Prop}
  {w : World V} {reason : ExitReason}

theorem graceful_idle :
    Idle (lifeDiscipline V A T) (Graceful (V := V) A reason) :=
  calm_idle.and (justified_carried reason)

theorem graceful_sound (reason : ExitReason) {n : Nat} (hle : n <= 6)
    (hbox : n <= 5 ∨ A.mailbox ≠ none) :
    Sound (lifeDiscipline V A T) n (Graceful (V := V) A reason)
      (fun w => Alive A w ∧ Justified w.control.committed reason) :=
  (calm_sound hle hbox).and (justified_carried reason)

theorem graceful_unwound (reason : ExitReason) {n : Nat} (hle : n <= 6)
    (hbox : n <= 5 ∨ A.mailbox ≠ none) :
    Sound (lifeDiscipline V A T) n
      (fun w : World V => Alive A w ∧ Justified w.control.committed reason)
      (fun w => Alive A w ∧ Justified w.control.committed reason) :=
  (alive_sound hle hbox).and (justified_carried reason)

theorem calm_mode {K : World V -> Prop} {n : Nat} {X : World V -> Prop}
    (h : Steady (lifeDiscipline V A T) n K X) (hcalm : forall w, K w -> Calm A w)
    (hw : K w) :
    wp (lifeDiscipline V A T) mode
      (fun mode w => K w ∧ mode = w.control.mode ∧
        mode ∈ w.control.committed ∧ mode ≠ .aborting ∧ mode.isExited = false)
      Y w := by
  apply wp.mono _ (fun _ hY => hY) (h.mode_eq hw)
  intro mode w hw
  rcases hw with ⟨⟨hinv, hw⟩, hmode⟩
  subst hmode
  have halive := (hcalm w hw).alive
  exact ⟨hw, rfl, hinv.history.recorded, halive.mode, halive.unpublished.mode⟩

/-!
## Stop
-/

theorem isIdle_graceful (hw : Graceful A reason w) :
    wp (lifeDiscipline V A T) (isIdle A)
      (fun idle w => Graceful A reason w ∧ (idle = true -> NoReplies w) ∧
        (idle = false -> A.mailbox ≠ none)) Y w := by
  unfold isIdle
  cases hbox : A.mailbox with
  | none =>
      exact wp.pure ⟨hw, fun _ => hw.left.alive.replies hbox, fun h => by cases h⟩
  | some _ =>
      apply wp.op graceful_idle.stable hw
      intro w _ hw
      refine ⟨trivial, ?_⟩
      intro input w' idle _ hexec _
      cases hexec
      exact ⟨hw, fun hidle => hidle, fun _ => by simp⟩

theorem finishRepliesTurn_graceful (hbox : A.mailbox ≠ none) :
    Keeps (lifeDiscipline V A T) (Graceful A reason)
      (fun w => Alive A w ∧ Justified w.control.committed reason)
      (finishRepliesTurn (V := V) A) := by
  have hsound := graceful_sound (V := V) (T := T) reason
    (n := 6) (by decide) (Or.inr hbox)
  have hunwound := graceful_unwound (V := V) (T := T) reason
    (n := 6) (by decide) (Or.inr hbox)
  have hidle' : Idle (lifeDiscipline V A T)
      (fun w : World V => Alive A w ∧ Justified w.control.committed reason) :=
    alive_idle.and (justified_carried reason)
  have hpoll : forall (_ : Unit) (w : World V), Graceful A reason w ->
      wp (lifeDiscipline V A T)
        (pollOnce (pollActorReplies A
          { receiveMessages := false, expectedMode := .stopping }) ())
        (Sound.Splits (fun _ : Unit => Graceful A reason)
          (fun _ : Unit => Graceful A reason))
        (fun w => Alive A w ∧ Justified w.control.committed reason) w := by
    intro _ w hw
    apply wp.seq (hsound.pollActorReplies hunwound (by decide) _ w hw)
    intro r w hw
    cases r with
    | none => exact wp.pure hw
    | some _ => exact wp.pure hw
  intro w hw
  apply wp.seq (Sound.select .finishReplies () (fun _ => graceful_idle)
    (fun _ => graceful_idle) hidle' hpoll hw)
  intro r w hw
  cases r with
  | inl _ => exact wp.pure hw
  | inr _ => exact wp.pure hw

theorem finishReplies_worked (hw : Graceful A reason w) :
    wp (lifeDiscipline V A T) (finishReplies A)
      (Sound.Worked (Graceful A reason) (fun _ => Quiet A reason)) Y w := by
  have hsound := graceful_sound (V := V) (A := A) (T := T) reason
    (n := 2) (by decide) (Or.inl (by decide))
  apply wp.iter (fun _ => Graceful A reason) hw
  intro _ w hw
  apply wp.seq (isIdle_graceful hw)
  intro idle w hw
  rcases hw with ⟨hw, hempty, hbox⟩
  cases idle with
  | true => exact wp.done ⟨hw, hempty rfl⟩
  | false =>
      apply wp.seq (calm_mode hsound.toSteady (fun _ hw => hw.left) hw)
      intro mode w hw
      rcases hw with ⟨hw, hmode, _⟩
      cases mode with
      | killing => exact wp.done ⟨hw, congrArg Mode.isHard hmode.symm⟩
      | aborting => exact wp.done ⟨hw, congrArg Mode.isHard hmode.symm⟩
      | exited status => exact wp.done ⟨hw, congrArg Mode.isHard hmode.symm⟩
      | failing => exact wp.done hw
      | _ =>
          apply wp.bind
          apply wp.attempt
          apply wp.mono _ _ (finishRepliesTurn_graceful (hbox rfl) w hw)
          · intro _ w hw
            exact wp.again hw
          · intro w hw
            apply wp.seq (hsound.containPanic hw)
            intro _ w hw
            exact wp.done hw

theorem stopReplies_done (hw : Graceful A .stopped w) :
    wp (lifeDiscipline V A T) (stopReplies A)
      (fun status w => Calm A w ∧ Done status w) Y w := by
  apply wp.seq (finishReplies_worked hw)
  intro work w hw
  cases work with
  | complete _ =>
      apply wp.seq (gracefulFinish_quiet .stop hw)
      intro work w hw
      exact terminate_done (by decide) hw
  | killed => exact killActor_done ⟨hw.left.left, hw.right⟩
  | panicked => exact failActor_done hw.left.alive
  | dropPanicked _ => exact failActor_done hw.left.alive

theorem past_carried (mode : Mode) {n : Nat} (hmode : mode ≠ .running) :
    Carried (lifeDiscipline V A T) n (Past (V := V) mode) where
  stable := fun _ _ _ _ _ henv hw => (EnvAct.control_moves henv).past hmode hw
  kept := fun _ _ _ _ _ _ _ _ hexec hw =>
    (Op.control_moves hexec).past hmode hw

theorem stopActor_done (hw : Graceful A .stopped w) (hpast : Past .stopping w) :
    wp (lifeDiscipline V A T) (stopActor A)
      (fun status w => Calm A w ∧ Done status w) Y w := by
  have hsound := (graceful_sound (V := V) (A := A) (T := T) .stopped
    (n := 2) (by decide) (Or.inl (by decide))).and
    (past_carried .stopping (by decide))
  have hidle : Idle (lifeDiscipline V A T)
      (fun w : World V => Graceful A .stopped w ∧ Past .stopping w) :=
    graceful_idle.and (past_carried .stopping (by decide))
  apply wp.seq (hsound.closeAndDiscard hidle (by decide) true .stopping
    ⟨hw, hpast⟩)
  intro outcome w hw
  rcases hw with ⟨⟨hw, hpast⟩, hchanged⟩
  cases outcome with
  | complete => exact stopReplies_done hw
  | modeChanged =>
      have hhard : Hard w := hpast.resolve_left (hchanged rfl)
      have hdoomed := doomed_sound (V := V) (A := A) (T := T) (n := 2)
        (by decide)
      apply wp.seq (calm_mode hdoomed.toSteady (fun _ hw => hw.left)
        ⟨hw.left, hhard⟩)
      intro mode w hw
      rcases hw with ⟨hw, hmode, _, haborting, hexited⟩
      have hmodeHard : mode.isHard = true := by
        rw [hmode]
        exact hw.right
      cases mode with
      | killing => exact killActor_done hw
      | failing => exact failActor_done hw.left.alive
      | aborting => exact absurd rfl haborting
      | exited status => cases hexited
      | _ => cases hmodeHard

/-!
## Turns
-/

theorem reporting (K : World V -> Prop) (h : Idle (lifeDiscipline V A T) K) :
    Sound.Reporting (lifeDiscipline V A T) K
      (fun event w => w.kin.Truthful event) where
  idle := fun event => h.and ((truthful_carried event).mono (by decide))
  exits := by
    intro w reception event hinv _ hevent
    exact (w.kin.pollExit_follows reception).truthful
      (hinv.kin.events event (Kin.pollExit_some hevent).right)

structure Looping (A : ActorConfig) (T : Terms) (K X : World V -> Prop) :
    Prop extends Unrelated A T K where
  idleUnwound : Idle (lifeDiscipline V A T) X
  sound : Sound (lifeDiscipline V A T) 5 K X
  mail : A.mailbox ≠ none ->
    Sound (lifeDiscipline V A T) 6 K X ∧ Sound (lifeDiscipline V A T) 6 X X
  calm : forall w, K w -> Calm A w

theorem calm_looping : Looping (V := V) A T (Calm A) (Alive A) where
  toUnrelated := calm_unrelated
  idleUnwound := alive_idle
  sound := calm_sound (by decide) (Or.inl (by decide))
  mail := fun hbox =>
    ⟨calm_sound (by decide) (Or.inr hbox), alive_sound (by decide) (Or.inr hbox)⟩
  calm := fun _ hw => hw

theorem graceful_looping :
    Looping (V := V) A T (Graceful A reason)
      (fun w => Alive A w ∧ Justified w.control.committed reason) where
  toUnrelated :=
    calm_unrelated.and (justified_carried reason)
      (fun _ _ _ _ _ hw => hw)
  idleUnwound := alive_idle.and (justified_carried reason)
  sound := graceful_sound reason (by decide) (Or.inl (by decide))
  mail := fun hbox =>
    ⟨graceful_sound reason (by decide) (Or.inr hbox),
      graceful_unwound reason (by decide) (Or.inr hbox)⟩
  calm := fun _ hw => hw.left

namespace Looping

variable {K X : World V -> Prop}

theorem turn (h : Looping A T K X) (context : TurnContext) (hw : K w) :
    wp (lifeDiscipline V A T) (actorTurn A context)
      (fun r w => K w ∧ r.Reports (fun event w => w.kin.Truthful event) w)
      X w :=
  h.sound.actorTurn (by decide) h.mail h.idle h.idleUnwound
    (reporting K h.idle) context hw

theorem handleChildExit (h : Looping A T K X) (event : ChildExit) (hw : K w)
    (hevent : w.kin.Truthful event) :
    wp (lifeDiscipline V A T) (Loac.handleChildExit event)
      (Sound.Worked K (fun _ => K)) Y w := by
  have hreap := h.toUnrelated.perform (.reap event) (Y := Y)
    (P := fun w => w.kin.Truthful event) (Q := fun _ _ => True)
    (truthful_carried event).stable (fun _ _ hw => hw)
    (fun _ _ _ _ _ _ => trivial) hw hevent
  apply wp.seq hreap
  intro reaped w hw
  rcases hw with ⟨hw, _⟩
  cases reaped with
  | false => exact wp.pure hw
  | true =>
      have hhook : (Op.transact .beginChildHook : Op V _).level <= 5 :=
        (by decide : 2 <= 5)
      apply wp.seq (h.sound.transact .beginChildHook hhook w hw)
      intro begun w hw
      cases begun with
      | false => exact wp.pure hw
      | true =>
          exact h.sound.awaitUser (.hook event.child) (.hookPoll event.child)
            (.hookDrop event.child) h.idle (by decide : 4 <= 5)
            (by decide : 4 <= 5) hw

end Looping

/-!
## Drain
-/

theorem drainTurn_graceful (receiveMessages : Bool) (hw : Graceful A reason w) :
    wp (lifeDiscipline V A T) (drainTurn A receiveMessages)
      (fun r w => Graceful A reason w ∧
        match r with
        | .repliesFinished => NoReplies w
        | .scheduled turn =>
            turn.Reports (fun event w => w.kin.Truthful event) w)
      (fun w => Alive A w ∧ Justified w.control.committed reason) w := by
  apply wp.seq (isIdle_graceful hw)
  intro idle w hw
  cases hfinished : !receiveMessages && idle with
  | true =>
      have hidle : idle = true := by
        cases idle with
        | true => rfl
        | false => simp at hfinished
      exact wp.pure ⟨hw.left, hw.right.left hidle⟩
  | false =>
      apply wp.seq (graceful_looping.turn _ hw.left)
      intro turn w hw
      exact wp.pure hw

/-- A round goes on, or its loop ends with a status or because it is idle. -/
theorem drainRound_graceful (inboxDrained : Bool) (hw : Graceful A reason w) :
    wp (lifeDiscipline V A T) (drainRound A inboxDrained)
      (Sound.Splits (fun _ => Graceful A reason)
        (fun result w =>
          match result with
          | some status => Calm A w ∧ Done status w
          | none => Quiet A reason w)) Y w := by
  have hsound := graceful_sound (V := V) (A := A) (T := T) reason
    (n := 2) (by decide) (Or.inl (by decide))
  apply wp.seq (hsound.mail .isEmpty (Nat.le_refl 2) w hw)
  intro empty w hw
  apply wp.bind
  apply wp.attempt
  apply wp.mono _ _ (drainTurn_graceful _ hw)
  · intro r w hw
    cases r with
    | repliesFinished => exact wp.done hw
    | scheduled turn =>
        cases turn with
        | lifecycleHint => exact wp.again hw.left
        | progress => exact wp.again hw.left
        | inboxClosed => exact wp.again hw.left
        | child event =>
            apply wp.seq (graceful_looping.handleChildExit event hw.left hw.right)
            intro work w hw
            cases work with
            | complete _ => exact wp.again hw
            | killed =>
                apply wp.seq (killActor_done ⟨hw.left.left, hw.right⟩)
                intro status w hw
                exact wp.done hw
            | panicked =>
                apply wp.seq (beginFailure_doomed Carried.true hw.left.alive
                  trivial)
                intro _ w hw
                apply wp.seq (failActor_done hw.left.left.alive)
                intro status w hw
                exact wp.done hw
            | dropPanicked _ =>
                apply wp.seq (beginFailure_doomed Carried.true hw.left.alive
                  trivial)
                intro _ w hw
                apply wp.seq (failActor_done hw.left.left.alive)
                intro status w hw
                exact wp.done hw
  · intro w hw
    apply wp.seq (hsound.containPanic hw)
    intro _ w hw
    apply wp.seq (failActor_done hw.left.alive)
    intro status w hw
    exact wp.done hw

theorem drainLoop_graceful (inboxDrained : Bool) (hw : Graceful A reason w) :
    wp (lifeDiscipline V A T) (drainLoop A inboxDrained)
      (fun result w =>
        match result with
        | some status => Calm A w ∧ Done status w
        | none => Quiet A reason w) Y w := by
  have hsound := graceful_sound (V := V) (A := A) (T := T) reason
    (n := 2) (by decide) (Or.inl (by decide))
  apply wp.iter (fun _ => Graceful A reason) hw
  intro inboxDrained w hw
  apply wp.seq (calm_mode hsound.toSteady (fun _ hw => hw.left) hw)
  intro mode w hw
  rcases hw with ⟨hw, hmode, _, haborting, hexited⟩
  have hround := drainRound_graceful (T := T) (Y := Y) inboxDrained hw
  cases mode with
  | killing =>
      apply wp.seq (killActor_done ⟨hw.left, congrArg Mode.isHard hmode.symm⟩)
      intro status w hw
      exact wp.done hw
  | failing =>
      apply wp.seq (failActor_done hw.left.alive)
      intro status w hw
      exact wp.done hw
  | exited status => cases hexited
  | aborting => exact absurd rfl haborting
  | _ =>
      apply wp.mono _ (fun _ hY => hY) hround
      intro r w hw
      cases r with
      | inl _ => exact hw
      | inr _ => exact hw

theorem drainActor_done (hw : Graceful A .drained w) :
    wp (lifeDiscipline V A T) (drainActor A)
      (fun status w => Calm A w ∧ Done status w) Y w := by
  have hsound := graceful_sound (V := V) (A := A) (T := T) .drained
    (n := 2) (by decide) (Or.inl (by decide))
  apply wp.seq (hsound.closeInbox (by decide) w hw)
  intro _ w hw
  apply wp.seq (hsound.mail .isEmpty (Nat.le_refl 2) w hw)
  intro empty w hw
  apply wp.seq (drainLoop_graceful empty hw)
  intro result w hw
  cases result with
  | some status => exact wp.pure hw
  | none =>
      apply wp.seq (gracefulFinish_quiet .drain hw)
      intro work w hw
      exact terminate_done (by decide) hw

/-!
## Running
-/

theorem shutdownActor_done {K X : World V -> Prop} (shutdown : Shutdown)
    {follow : P V ExitStatus} (hsound : Sound (lifeDiscipline V A T) 2 K X)
    (hcalm : forall w, K w -> Calm A w)
    (hfollow : forall w, K w -> wp (lifeDiscipline V A T) follow
      (fun status w => Calm A w ∧ Done status w) Y w) (hw : K w) :
    wp (lifeDiscipline V A T) (shutdownActor A shutdown follow)
      (fun status w => Calm A w ∧ Done status w) Y w := by
  apply wp.bind
  apply wp.attempt
  apply wp.mono _ _ (hsound.callUser (.onShutdown shutdown) (Nat.le_refl 2)
    w hw)
  · intro _ w hw
    exact hfollow w hw
  · intro w hw
    apply wp.seq (hsound.containPanic hw)
    intro _ w hw
    exact failActor_done (hcalm w hw).alive

theorem runningRound_calm (hw : Calm A w) :
    wp (lifeDiscipline V A T) (runningRound A)
      (Sound.Splits (fun _ => Calm A)
        (fun status w => Calm A w ∧ Done status w)) Y w := by
  have hsound := calm_sound (V := V) (A := A) (T := T) (n := 2) (by decide)
    (Or.inl (by decide))
  apply wp.bind
  apply wp.attempt
  apply wp.mono _ _ (calm_looping.turn _ hw)
  · intro turn w hw
    cases turn with
    | lifecycleHint => exact wp.again hw.left
    | progress => exact wp.again hw.left
    | inboxClosed =>
        apply wp.seq (R := fun _ => Calm A)
        · apply wp.op calm_idle.stable hw.left
          intro w _ hw
          refine ⟨trivial, ?_⟩
          intro input w' _ _ hexec _
          cases hexec
          exact hw
        intro _ w hw
        apply wp.seq (beginFailure_doomed Carried.true hw.alive trivial)
        intro _ w hw
        apply wp.seq (failActor_done hw.left.left.alive)
        intro status w hw
        exact wp.done hw
    | child event =>
        apply wp.seq (calm_looping.handleChildExit event hw.left hw.right)
        intro work w hw
        cases work with
        | complete _ => exact wp.again hw
        | killed =>
            apply wp.seq (killActor_done hw)
            intro status w hw
            exact wp.done hw
        | panicked =>
            apply wp.seq (beginFailure_doomed Carried.true hw.alive trivial)
            intro _ w hw
            apply wp.seq (failActor_done hw.left.left.alive)
            intro status w hw
            exact wp.done hw
        | dropPanicked _ =>
            apply wp.seq (beginFailure_doomed Carried.true hw.alive trivial)
            intro _ w hw
            apply wp.seq (failActor_done hw.left.left.alive)
            intro status w hw
            exact wp.done hw
  · intro w hw
    apply wp.seq (hsound.containPanic hw)
    intro _ w hw
    apply wp.seq (failActor_done hw.alive)
    intro status w hw
    exact wp.done hw

theorem runningLoop_done (hw : Calm A w) :
    wp (lifeDiscipline V A T) (runningLoop A)
      (fun status w => Calm A w ∧ Done status w) Y w := by
  have hsound := calm_sound (V := V) (A := A) (T := T) (n := 2) (by decide)
    (Or.inl (by decide))
  apply wp.iter (fun _ => Calm A) hw
  intro _ w hw
  apply wp.seq (calm_mode hsound.toSteady (fun _ hw => hw) hw)
  intro mode w hw
  rcases hw with ⟨hw, hmode, hcommitted, haborting, hexited⟩
  cases mode with
  | running =>
      apply wp.mono _ (fun _ hY => hY) (runningRound_calm hw)
      intro r w hw
      cases r with
      | inl _ => exact hw
      | inr _ => exact hw
  | draining =>
      have hdrain := shutdownActor_done (T := T) (Y := Y) .drain
        (graceful_sound .drained (n := 2) (by decide)
          (Or.inl (by decide)))
        (fun _ hw => hw.left) (fun _ hw => drainActor_done hw) ⟨hw, hcommitted⟩
      apply wp.seq hdrain
      intro status w hw
      exact wp.done hw
  | stopping =>
      have hstop := shutdownActor_done (T := T) (Y := Y) .stop
        ((graceful_sound .stopped (n := 2) (by decide)
          (Or.inl (by decide))).and
          (past_carried .stopping (by decide)))
        (fun _ hw => hw.left.left)
        (fun _ hw => stopActor_done hw.left hw.right)
        ⟨⟨hw, hcommitted⟩, Or.inl hmode.symm⟩
      apply wp.seq hstop
      intro status w hw
      exact wp.done hw
  | killing =>
      apply wp.seq (killActor_done ⟨hw, congrArg Mode.isHard hmode.symm⟩)
      intro status w hw
      exact wp.done hw
  | failing =>
      apply wp.seq (failActor_done hw.alive)
      intro status w hw
      exact wp.done hw
  | exited status => cases hexited
  | aborting => exact absurd rfl haborting

end Loac

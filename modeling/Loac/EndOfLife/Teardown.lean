import Loac.EndOfLife.Children

/-!
# Teardown

Every way to end an actor comes to a status that its end can vouch for.
-/

namespace Loac

open Interleave Interleave.Prog

variable {V α : Type} {A : ActorConfig} {T : Terms} {Y : World V -> Prop}
  {w : World V}

/-- Nothing is left to do but to publish. -/
structure Done (status : ExitStatus) (w : World V) : Prop where
  reason : status.reason ≠ .aborted
  replies : NoReplies w
  actors : w.kin.actors = []
  subtree : status.subtree = w.kin.subtree
  justified : w.control.mode.isHard = false ->
    Justified w.control.committed status.reason

theorem Done.proposed {status : ExitStatus} (h : Done status w)
    (hcalm : Calm A w) : Proposed w status where
  reason := h.reason
  actors := h.actors
  subtree := h.subtree
  justified := h.justified
  blamed := hcalm.blamed

theorem justified_carried (reason : ExitReason) {n : Nat} :
    Carried (lifeDiscipline V A T) n
      (fun w : World V => Justified w.control.committed reason) where
  stable := fun _ _ _ _ _ henv hw =>
    hw.mono (fun _ => (EnvAct.control_moves henv).committed)
  kept := fun _ _ _ _ _ _ _ _ hexec hw =>
    hw.mono (fun _ => (Op.control_moves hexec).committed)

theorem Control.Moves.soft {control control' : Control}
    (h : control.Moves control') (hsoft : control'.mode.isHard = false) :
    control.mode.isHard = false := by
  cases hhard : control.mode.isHard with
  | false => rfl
  | true =>
      rw [h.isHard hhard] at hsoft
      cases hsoft

theorem done_carried (status : ExitStatus) :
    Carried (lifeDiscipline V A T) 2 (Done (V := V) status) where
  stable := by
    intro e w w' hinv htolerates henv hw
    have hmoves := EnvAct.control_moves henv
    have hfollows := EnvAct.kin_exec henv
    exact {
      reason := hw.reason
      replies := noReplies_stable (D := lifeDiscipline V A T) e w w' hinv
        htolerates henv hw.replies
      actors := hfollows.actors.trans hw.actors
      subtree := hw.subtree.trans hfollows.subtree.symm
      justified := fun hsoft =>
        (hw.justified (hmoves.soft hsoft)).mono (fun _ => hmoves.committed) }
  kept := by
    intro α op hop w input w' a hinv hadmits hexec hw
    have hmoves := Op.control_moves hexec
    have hfollows := follows_exec hop hexec
    exact {
      reason := hw.reason
      replies := noReplies_carried.kept op (Op.below_mono (by decide) hop)
        w input w' a hinv hadmits hexec hw.replies
      actors := hfollows.actors.trans hw.actors
      subtree := hw.subtree.trans hfollows.subtree.symm
      justified := fun hsoft =>
        (hw.justified (hmoves.soft hsoft)).mono (fun _ => hmoves.committed) }

/-!
## Hard teardown
-/

abbrev Doomed (A : ActorConfig) (w : World V) : Prop :=
  Calm A w ∧ Hard w

/-- The children were asked to end before the scheduler was cleared. -/
abbrev Asked (A : ActorConfig) (T : Terms) (w : World V) : Prop :=
  Doomed A w ∧ (T.lateSpawn ∨ w.kin.Hunted)

theorem asked_sound :
    Sound (lifeDiscipline V A T) 3 (Asked A T)
      (fun w => (Alive A w ∧ Hard w) ∧ (T.lateSpawn ∨ w.kin.Hunted)) :=
  ((calm_sound (by decide : 3 <= 6) (Or.inl (by decide))).and
    Carried.hard).and hunted_carried

theorem asked_unwound :
    Sound (lifeDiscipline V A T) 3
      (fun w => (Alive A w ∧ Hard w) ∧ (T.lateSpawn ∨ w.kin.Hunted))
      (fun w => (Alive A w ∧ Hard w) ∧ (T.lateSpawn ∨ w.kin.Hunted)) :=
  ((alive_sound (by decide : 3 <= 6) (Or.inl (by decide))).and
    Carried.hard).and hunted_carried

theorem asked_idle : Idle (lifeDiscipline V A T) (Asked (V := V) A T) :=
  (calm_idle.and Carried.hard).and (hunted_carried.mono (by decide))

theorem doomed_unrelated : Unrelated (V := V) A T (Doomed A) :=
  calm_unrelated.and Carried.hard (fun _ _ _ _ _ hw => hw)

theorem doomed_sound {n : Nat} (hle : n <= 5) :
    Sound (lifeDiscipline V A T) n (Doomed (V := V) A)
      (fun w => Alive A w ∧ Hard w) :=
  (calm_sound (by omega) (Or.inl hle)).and Carried.hard

/-- Clearing the scheduler leaves no reply, with a mailbox or without. -/
theorem clear_asked (hw : Asked A T w) :
    wp (lifeDiscipline V A T) (clear A)
      (fun _ w => Asked A T w ∧ NoReplies w) Y w := by
  unfold clear
  cases hbox : A.mailbox with
  | none => exact wp.pure ⟨hw, hw.left.left.alive.replies hbox⟩
  | some _ => exact asked_sound.clearQueue asked_unwound (by decide) hw

theorem waitAndReport (site : Site) {reason : ExitReason}
    (hreason : reason ≠ .aborted) (hw : Doomed A w) (hempty : NoReplies w) :
    wp (lifeDiscipline V A T)
      (do
        ChildSet.waitAll site
        ChildSet.terminalStatus reason)
      (fun status w => Calm A w ∧ Done status w) Y w := by
  have hunrelated : Unrelated (V := V) A T
      (fun w => Doomed A w ∧ NoReplies w) :=
    doomed_unrelated.and (noReplies_carried.mono (by decide))
      (fun _ _ _ _ _ hw => hw)
  apply wp.seq (hunrelated.waitAll site ⟨hw, hempty⟩)
  intro _ w hw
  apply wp.mono _ (fun _ hY => hY)
    (hunrelated.terminalStatus reason hw.left hw.right)
  intro status w hw
  rcases hw with ⟨⟨hdoomed, hempty⟩, hactors, hstatus⟩
  subst hstatus
  refine ⟨hdoomed.left, ?_⟩
  exact {
    reason := hreason
    replies := hempty
    actors := hactors
    subtree := ExitStatus.subtree_new_of_ne _ hreason
    justified := by
      intro hsoft
      have hhard : w.control.mode.isHard = true := hdoomed.right
      rw [hsoft] at hhard
      cases hhard }

/-- The part of hard teardown that waits, which demands that all were asked. -/
theorem hardWait {expected : Mode} {reason : ExitReason}
    (hreason : reason ≠ .aborted) (hw : Asked A T w) (hempty : NoReplies w) :
    wp (lifeDiscipline V A T)
      (do
        closeDiscarded true expected
        perform (.reach .hardWait)
        ChildSet.waitAll (.waitAll true)
        ChildSet.terminalStatus reason)
      (fun status w => Calm A w ∧ Done status w) Y w := by
  have hsound : Sound (lifeDiscipline V A T) 3
      (fun w : World V => Asked A T w ∧ NoReplies w) _ :=
    asked_sound.and (noReplies_carried.mono (by decide))
  have hidle : Idle (lifeDiscipline V A T)
      (fun w : World V => Asked A T w ∧ NoReplies w) :=
    asked_idle.and (noReplies_carried.mono (by decide))
  apply wp.seq (hsound.closeDiscarded hidle (by decide) true expected w
    ⟨hw, hempty⟩)
  intro _ w hw
  apply wp.seq (R := fun _ w => Asked A T w ∧ NoReplies w)
  · apply wp.op hsound.stable hw
    intro w _ hw
    refine ⟨hw.left.right, ?_⟩
    intro input w' _ _ hexec _
    cases hexec
    exact hw
  · intro _ w hw
    exact waitAndReport _ hreason hw.left.left hw.right

theorem killActor_done (hw : Doomed A w) :
    wp (lifeDiscipline V A T) (killActor A)
      (fun status w => Calm A w ∧ Done status w) Y w := by
  apply wp.seq ((doomed_sound (n := 2) (by decide)).closeInbox
    (by decide) w hw)
  intro _ w hw
  apply wp.seq (doomed_unrelated.requestAllKill hw)
  intro _ w hw
  apply wp.seq (clear_asked ⟨hw.left, Or.inr hw.right⟩)
  intro _ w hw
  exact hardWait (by decide) hw.left hw.right

theorem failWith_done {reason : ExitReason} (hreason : reason ≠ .aborted)
    (hw : Doomed A w) :
    wp (lifeDiscipline V A T) (failWith A reason)
      (fun status w => Calm A w ∧ Done status w) Y w := by
  apply wp.seq ((doomed_sound (n := 2) (by decide)).closeInbox
    (by decide) w hw)
  intro _ w hw
  apply wp.seq (doomed_unrelated.requestAllKill hw)
  intro _ w hw
  apply wp.seq (clear_asked ⟨hw.left, Or.inr hw.right⟩)
  intro _ w hw
  have hsound : Sound (lifeDiscipline V A T) 3
      (fun w : World V => Asked A T w ∧ NoReplies w) _ :=
    asked_sound.and (noReplies_carried.mono (by decide))
  apply wp.seq (hsound.mode w hw)
  intro mode w hw
  exact hardWait hreason hw.left hw.right

theorem beginFailure_doomed {P : World V -> Prop}
    (hP : Carried (lifeDiscipline V A T) 1 P) (hw : Alive A w) (hPw : P w) :
    wp (lifeDiscipline V A T) (transact .beginFailure)
      (fun _ w => Doomed A w ∧ P w) Y w := by
  have hsound := (alive_sound (V := V) (A := A) (T := T) (n := 1) (by decide)
    (Or.inl (by decide))).and hP
  apply wp.op hsound.stable ⟨hw, hPw⟩
  intro w hinv hw
  have hop := hsound.op (.transact .beginFailure) (Nat.zero_le 1) w hinv hw
  refine ⟨hop.left, ?_⟩
  intro input w' a hadmits hexec hinv'
  have hkept := (hop.right input w' a hadmits hexec hinv').left rfl
  have hexec' : (Op.transact .beginFailure).exec A input w = some (w', a) :=
    hexec
  have hhard := hard_beginFailure hexec'
  exact ⟨⟨⟨hkept.left, hhard.blamed⟩, hhard⟩, hkept.right⟩

theorem doomed_mode {P : World V -> Prop}
    (hP : Carried (lifeDiscipline V A T) 1 P) (hw : Doomed A w) (hPw : P w) :
    wp (lifeDiscipline V A T) mode
      (fun mode w => (Doomed A w ∧ P w) ∧
        mode ≠ .aborting ∧ mode.isExited = false) Y w := by
  have hsound := (doomed_sound (V := V) (A := A) (T := T) (n := 1)
    (by decide)).and hP
  apply wp.mono _ (fun _ hY => hY) (hsound.mode_eq ⟨hw, hPw⟩)
  intro mode w hw
  rcases hw with ⟨⟨_, hw⟩, hmode⟩
  subst hmode
  have halive := hw.left.left.alive
  exact ⟨hw, halive.mode, halive.unpublished.mode⟩

theorem failActor_done (hw : Alive A w) :
    wp (lifeDiscipline V A T) (failActor A)
      (fun status w => Calm A w ∧ Done status w) Y w := by
  apply wp.seq (beginFailure_doomed Carried.true hw trivial)
  intro _ w hw
  apply wp.seq (doomed_mode Carried.true hw.left trivial)
  intro mode w hw
  rcases hw with ⟨⟨hw, _⟩, hmode⟩
  cases mode with
  | killing => exact failWith_done (by decide) hw
  | aborting => exact absurd rfl hmode.left
  | exited status => cases hmode.right
  | _ => exact failWith_done (by decide) hw

/-!
## Teardown without actor state
-/

theorem killUninitialized_done (hw : Doomed A w) (hempty : NoReplies w) :
    wp (lifeDiscipline V A T) killUninitialized
      (fun status w => Calm A w ∧ Done status w) Y w := by
  have hsound : Sound (lifeDiscipline V A T) 2
      (fun w : World V => Doomed A w ∧ NoReplies w) _ :=
    (doomed_sound (by decide)).and
      (noReplies_carried.mono (by decide))
  have hidle : Idle (lifeDiscipline V A T)
      (fun w : World V => Doomed A w ∧ NoReplies w) :=
    doomed_unrelated.idle.and (noReplies_carried.mono (by decide))
  apply wp.seq (hsound.closeInbox (by decide) w ⟨hw, hempty⟩)
  intro _ w hw
  apply wp.seq (hsound.requestAll (by decide) .kill w hw)
  intro _ w hw
  apply wp.seq (hsound.closeDiscarded hidle (by decide) _ _ w hw)
  intro _ w hw
  exact waitAndReport _ (by decide) hw.left hw.right

theorem failUninitializedWith_done {reason : ExitReason}
    (hreason : reason ≠ .aborted) (hw : Doomed A w) (hempty : NoReplies w) :
    wp (lifeDiscipline V A T) (failUninitializedWith reason)
      (fun status w => Calm A w ∧ Done status w) Y w := by
  have hsound : Sound (lifeDiscipline V A T) 2
      (fun w : World V => Doomed A w ∧ NoReplies w) _ :=
    (doomed_sound (by decide)).and
      (noReplies_carried.mono (by decide))
  have hidle : Idle (lifeDiscipline V A T)
      (fun w : World V => Doomed A w ∧ NoReplies w) :=
    doomed_unrelated.idle.and (noReplies_carried.mono (by decide))
  apply wp.seq (hsound.closeInbox (by decide) w ⟨hw, hempty⟩)
  intro _ w hw
  apply wp.seq (hsound.requestAll (by decide) .kill w hw)
  intro _ w hw
  apply wp.seq (hsound.mode w hw)
  intro mode w hw
  apply wp.seq (hsound.closeDiscarded hidle (by decide) _ _ w hw)
  intro _ w hw
  exact waitAndReport _ hreason hw.left hw.right

theorem failUninitialized_done (hw : Alive A w) (hempty : NoReplies w) :
    wp (lifeDiscipline V A T) failUninitialized
      (fun status w => Calm A w ∧ Done status w) Y w := by
  have hcarried := (noReplies_carried (V := V) (A := A) (T := T)).mono
    (by decide : 1 <= 5)
  apply wp.seq (beginFailure_doomed hcarried hw hempty)
  intro _ w hw
  apply wp.seq (doomed_mode hcarried hw.left hw.right)
  intro mode w hw
  rcases hw with ⟨⟨hw, hempty⟩, hmode⟩
  cases mode with
  | killing => exact failUninitializedWith_done (by decide) hw hempty
  | aborting => exact absurd rfl hmode.left
  | exited status => cases hmode.right
  | _ => exact failUninitializedWith_done (by decide) hw hempty

/-!
## Graceful ends
-/

abbrev Graceful (A : ActorConfig) (reason : ExitReason) (w : World V) : Prop :=
  Calm A w ∧ Justified w.control.committed reason

abbrev Quiet (A : ActorConfig) (reason : ExitReason) (w : World V) : Prop :=
  Graceful A reason w ∧ NoReplies w

variable {reason : ExitReason}

theorem quiet_unrelated : Unrelated (V := V) A T (Quiet A reason) :=
  (calm_unrelated.and (justified_carried reason) (fun _ _ _ _ _ hw => hw)).and
    (noReplies_carried.mono (by decide)) (fun _ _ _ _ _ hw => hw)

theorem quiet_sound (reason : ExitReason) :
    Sound (lifeDiscipline V A T) 2 (Quiet (V := V) A reason)
      (fun w => (Alive A w ∧ Justified w.control.committed reason) ∧
        NoReplies w) :=
  ((calm_sound (by decide) (Or.inl (by decide))).and
    (justified_carried reason)).and
    (noReplies_carried.mono (by decide))

theorem finishChildren_quiet (shutdown : Shutdown) (keys : Option (List Key))
    (hw : Quiet A reason w) (hwaiting : forall keys', keys = some keys' ->
      w.kin.Waiting keys') :
    wp (lifeDiscipline V A T) (finishChildren shutdown keys)
      (Sound.Splits
        (fun keys w => Quiet A reason w ∧ forall keys', keys = some keys' ->
          w.kin.Waiting keys')
        (fun _ w => Quiet A reason w ∧ w.kin.actors = [])) Y w := by
  have hwait : forall keys (w : World V), Quiet A reason w ->
      w.kin.Waiting keys ->
        wp (lifeDiscipline V A T) (finishChildren.finishChildrenWait keys)
          (Sound.Splits
            (fun keys w => Quiet A reason w ∧ forall keys', keys = some keys' ->
              w.kin.Waiting keys')
            (fun _ w => Quiet A reason w ∧ w.kin.actors = [])) Y w := by
    intro keys w hw hwaiting
    apply wp.seq (quiet_unrelated.pollWait keys hw hwaiting)
    intro r w hw
    cases r with
    | inl keys' =>
        refine wp.pure ⟨hw.left, ?_⟩
        intro keys'' heq
        cases heq
        exact hw.right
    | inr _ => exact wp.pure hw
  cases keys with
  | some keys => exact hwait keys w hw (hwaiting keys rfl)
  | none =>
      apply wp.seq ((quiet_sound reason).requestAll (by decide) shutdown w hw)
      intro _ w hw
      apply wp.seq (quiet_unrelated.actors hw)
      intro keys w hw
      exact hwait keys w hw.left hw.right

theorem gracefulFinish_quiet (shutdown : Shutdown) (hw : Quiet A reason w) :
    wp (lifeDiscipline V A T) (gracefulFinish shutdown reason)
      (Sound.Worked (Quiet A reason)
        (fun _ w => Quiet A reason w ∧ w.kin.actors = [])) Y w := by
  have hidle : Idle (lifeDiscipline V A T) (Quiet (V := V) A reason) :=
    quiet_unrelated.idle
  have hwaiting : forall keys : Option (List Key),
      Idle (lifeDiscipline V A T)
        (fun w => Quiet A reason w ∧ forall keys', keys = some keys' ->
          w.kin.Waiting keys') := by
    intro keys
    apply hidle.and
    exact {
      stable := fun _ _ _ _ _ henv hw keys' heq =>
        (EnvAct.kin_exec henv).waiting (hw keys' heq)
      kept := fun op hop w input w' a _ _ hexec hw keys' heq =>
        (follows_exec (Op.below_mono (by decide) hop) hexec).waiting
          (hw keys' heq) }
  have hgone : Idle (lifeDiscipline V A T)
      (fun w : World V => Quiet A reason w ∧ w.kin.actors = []) :=
    hidle.and ((actors_carried []).mono (by decide))
  have hsound := quiet_sound (V := V) (A := A) (T := T) reason
  apply wp.seq (R := fun _ => Quiet A reason)
  · apply wp.op hidle.stable hw
    intro w _ hw
    refine ⟨trivial, ?_⟩
    intro input w' _ _ hexec _
    cases hexec
    exact hw
  · intro _ w hw
    have hchildren := hsound.awaitActorWork .children none (Y := Y) hidle
      hwaiting (fun _ _ hw => hw.left) (fun _ : Unit => hgone)
      (fun keys w hw => finishChildren_quiet shutdown keys hw.left hw.right)
      (Keeps.pure ()) (Keeps.pure ()) (fun _ => Keeps.pure ())
      ⟨hw, fun _ heq => by cases heq⟩
    apply wp.seq hchildren
    intro work w hw
    cases work with
    | complete _ =>
        have hstop := (hsound.and (actors_carried [])).awaitUser
          (.onStop reason) (.stopPoll reason) (.stopDrop reason) (Y := Y) hgone
          (by decide : 2 <= 2) (by decide : 2 <= 2) hw
        apply wp.mono _ (fun _ hY => hY) hstop
        intro work w hw
        cases work with
        | complete _ => exact hw
        | killed => exact ⟨hw.left.left, hw.right⟩
        | panicked => exact hw.left
        | dropPanicked _ => exact hw.left
    | killed => exact wp.pure hw
    | panicked => exact wp.pure hw
    | dropPanicked _ => exact wp.pure hw

theorem terminate_done (hreason : reason ≠ .aborted) {work : Work Unit}
    (hw : Sound.Worked (Quiet A reason)
      (fun _ w => Quiet A reason w ∧ w.kin.actors = []) work w) :
    wp (lifeDiscipline V A T) (terminate A reason work)
      (fun status w => Calm A w ∧ Done status w) Y w := by
  cases work with
  | complete _ =>
      apply wp.mono _ (fun _ hY => hY)
        (quiet_unrelated.terminalStatus reason hw.left hw.right)
      intro status w hw
      rcases hw with ⟨⟨⟨hcalm, hjustified⟩, hempty⟩, hactors, hstatus⟩
      subst hstatus
      refine ⟨hcalm, ?_⟩
      exact {
        reason := hreason
        replies := hempty
        actors := hactors
        subtree := ExitStatus.subtree_new_of_ne _ hreason
        justified := fun _ => hjustified }
  | killed => exact killActor_done ⟨hw.left.left.left, hw.right⟩
  | panicked => exact failActor_done hw.left.left.alive
  | dropPanicked _ => exact failActor_done hw.left.left.alive

end Loac

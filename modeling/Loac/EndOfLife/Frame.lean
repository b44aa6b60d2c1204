import Loac.EndOfLife.Loop

/-!
# From the first poll to publication

The frame of a task is dropped in the last poll, so whatever its drop runs can
still fail the actor, and the drop of the actor value can even unwind.
-/

namespace Loac

open Interleave Interleave.Prog

variable {V α : Type} {A : ActorConfig} {T : Terms} {Y : World V -> Prop}
  {w : World V} {status : ExitStatus}

/-- The task is alive, but the drop of the actor value unwound. -/
abbrev Unwinding (A : ActorConfig) (w : World V) : Prop :=
  Alive A w ∧ ActorPanicked w

/-- A calm task with nothing left to do but to publish. -/
abbrev Finished (A : ActorConfig) (status : ExitStatus) (w : World V) : Prop :=
  Calm A w ∧ Done status w

theorem unwinding_sound :
    Sound (lifeDiscipline V A T) 5 (Unwinding (V := V) A)
      (Unwinding (V := V) A) :=
  (alive_sound (by decide) (Or.inl (by decide))).and
    (actorPanicked_carried.mono (by decide))

theorem finished_sound :
    Sound (lifeDiscipline V A T) 2 (Finished (V := V) A status)
      (fun w => Alive A w ∧ Done status w) :=
  (calm_sound (by decide) (Or.inl (by decide))).and
    (done_carried status)

/-!
## Dropping frames
-/

theorem Sound.dropChildren {D : Discipline (machine V A)} {n : Nat}
    {K X : World V -> Prop} (h : Sound D n K X) (hn : 2 <= n) :
    Keeps D K Y (ChildSet.drop : P V Unit) :=
  h.requestAll hn .kill

/-- A finished task has no reply left to drop. -/
theorem Sound.dropReplies {n : Nat} {K X : World V -> Prop}
    (h : Sound (lifeDiscipline V A T) n K X) (hn : 2 <= n)
    (hempty : forall w, K w -> NoReplies w) :
    Keeps (lifeDiscipline V A T) K Y (Queue.drop : P V Unit) :=
  Keeps.dropEmptyQueue h.stable hempty (fun _ => trivial) (h.sched _ hn)

theorem dropActor (hw : Finished A status w) :
    wp (lifeDiscipline V A T) (callUser (.actor false))
      (fun _ => Finished A status) (Unwinding A) w := by
  have hat : SoundAt (lifeDiscipline V A T) (.user (.actor false))
      (Finished (V := V) A status) (Unwinding A) := by
    intro w hinv hw
    have hop := (finished_sound (V := V) (T := T)).op (.user (.actor false))
      (Nat.le_refl 2) w hinv hw
    refine ⟨hop.left, ?_⟩
    intro input w' step hadmits hexec hinv'
    have hkept := hop.right input w' step hadmits hexec hinv'
    refine ⟨hkept.left, ?_⟩
    intro hblamed
    refine ⟨(hkept.right hblamed).left, ?_⟩
    cases step with
    | continues => cases hblamed
    | returns value => cases hblamed
    | panics =>
        cases input with
        | user act =>
            have hstep : w.userStep A (.actor false) act =
                some (w', .panics) := hexec
            unfold ActorPanicked
            rw [World.userStep_panics hstep]
            exact List.mem_cons_self ..
        | _ => cases hexec
  have hrun := hat.runUser (finished_sound (T := T)).stable
    (fun heq => by cases heq)
  exact Keeps.callUser hrun w hw

/-- The frame of an initialized actor is dropped, unless its actor unwinds. -/
theorem dropInitialized_finished (hw : Finished A status w) :
    wp (lifeDiscipline V A T) dropInitialized (fun _ => Finished A status)
      (Unwinding A) w := by
  have hunwinding := unwinding_sound (V := V) (A := A) (T := T)
  have hsound : Sound (lifeDiscipline V A T) 2 (Finished A status)
      (fun w => Alive A w ∧ Done status w) := finished_sound
  apply wp.onExit
  apply wp.mono
  · intro _ w hw
    exact hsound.dropInbox (by decide) w hw
  · intro w hw
    exact hunwinding.dropInbox (by decide) w hw
  · apply wp.seq (hsound.dropReplies (by decide) (fun _ hw => hw.right.replies)
      w hw)
    intro _ w hw
    apply wp.onExit
    apply wp.mono _ _ (dropActor hw)
    · intro _ w hw
      exact hsound.dropChildren (by decide) w hw
    · intro w hw
      exact hunwinding.dropChildren (by decide) w hw

/-- A frame without actor state does not unwind. -/
theorem dropUninitialized_finished (hw : Finished A status w) :
    wp (lifeDiscipline V A T) dropUninitialized (fun _ => Finished A status)
      Y w := by
  have hsound : Sound (lifeDiscipline V A T) 2 (Finished A status)
      (fun w => Alive A w ∧ Done status w) := finished_sound
  apply wp.seq (hsound.dropReplies (by decide) (fun _ hw => hw.right.replies)
    w hw)
  intro _ w hw
  apply wp.seq (hsound.dropInbox (by decide) w hw)
  intro _ w hw
  exact hsound.dropChildren (by decide) w hw

/-!
## Aborts
-/

theorem dropInitialized_gone :
    Keeps (lifeDiscipline V A T) (Gone T) (Gone T) dropInitialized := by
  have hsound := gone_sound (V := V) (A := A) (T := T)
  have hactor : Keeps (lifeDiscipline V A T) (Gone T) (Gone T)
      (callUser (.actor false)) :=
    hsound.callUser _ (Nat.le_succ_of_le (UserSite.level_le _))
  have hrunning : Keeps (lifeDiscipline V A T) (Gone T) (Gone T) RunningActor.drop :=
    Keeps.bind (hsound.dropQueue (by decide)) fun _ =>
      Keeps.onExit hactor (hsound.dropChildren (by decide))
        (hsound.dropChildren (by decide))
  exact Keeps.onExit hrunning (hsound.dropInbox (by decide))
    (hsound.dropInbox (by decide))

theorem dropUninitialized_gone :
    Keeps (lifeDiscipline V A T) (Gone T) (Gone T) dropUninitialized := by
  have hsound := gone_sound (V := V) (A := A) (T := T)
  exact Keeps.bind (hsound.dropQueue (by decide)) fun _ =>
    Keeps.bind (hsound.dropInbox (by decide)) fun _ =>
      hsound.dropChildren (by decide)

theorem dropUnpolled_gone :
    Keeps (lifeDiscipline V A T) (Gone T) (Gone T) dropUnpolled := by
  have hsound := gone_sound (V := V) (A := A) (T := T)
  have hrest : Keeps (lifeDiscipline V A T) (Gone T) (Gone T) _ :=
    Keeps.bind (hsound.dropChildren (by decide)) fun _ =>
      Keeps.bind (hsound.dropInbox (by decide)) fun _ =>
        hsound.dropQueue (by decide)
  exact Keeps.onExit
    (hsound.callUser _ (Nat.le_succ_of_le (UserSite.level_le _))) hrest hrest

theorem dropFrame_gone (site : Site) :
    Keeps (lifeDiscipline V A T) (Gone T) (Gone T) (ActorTask.dropFrame site) := by
  have hsound := gone_sound (V := V) (A := A) (T := T)
  have hretire : forall site : UserSite, Keeps (lifeDiscipline V A T) (Gone T) (Gone T)
      (ActorWorkGuard.dropFuturePanicked (callUser site)) := by
    intro site
    exact hsound.dropFuturePanicked
      (hsound.callUser _ (Nat.le_succ_of_le (UserSite.level_le _)))
  cases site with
  | start => exact dropUnpolled_gone
  | init => exact Keeps.bind (hretire _) (fun _ => dropUninitialized_gone)
  | turn => exact dropInitialized_gone
  | hook => exact Keeps.bind (hretire _) (fun _ => dropInitialized_gone)
  | discard initialized =>
      exact Keeps.ite dropInitialized_gone dropUninitialized_gone
  | finishReplies => exact dropInitialized_gone
  | children => exact dropInitialized_gone
  | onStop => exact Keeps.bind (hretire _) (fun _ => dropInitialized_gone)
  | waitAll initialized =>
      exact Keeps.ite dropInitialized_gone dropUninitialized_gone

/-!
## Publication
-/

/-- The life is over, and everybody who waits for its end can know. -/
structure Published (A : ActorConfig) (w : World V) : Prop where
  started : w.life.started = true
  status : exists status, w.control.mode = .exited status ∧
    (A.parent = true -> w.life.exits = [status])

theorem published_stable :
    (lifeDiscipline V A T).Stable (Published (V := V) A) := by
  intro e w w' _ _ henv hw
  rcases hw with ⟨hstarted, status, hmode, hexits⟩
  have hlife := EnvAct.life_exec henv
  refine ⟨by rw [hlife, hstarted], status, ?_, by rw [hlife]; exact hexits⟩
  exact ((EnvAct.control_moves henv).exited hmode).left

theorem unpublished_stable :
    (lifeDiscipline V A T).Stable (Unpublished (V := V)) :=
  fun _ _ _ _ _ henv hw => hw.env_step henv

/-- The status is committed, and the parent is not told yet. -/
structure Closed (status : ExitStatus) (w : World V) : Prop where
  mode : w.control.mode = .exited status
  exits : w.life.exits = []
  started : w.life.started = true

theorem closed_stable :
    (lifeDiscipline V A T).Stable (Closed (V := V) status) := by
  intro e w w' _ _ henv hw
  have hlife := EnvAct.life_exec henv
  constructor
  · exact ((EnvAct.control_moves henv).exited hw.mode).left
  · rw [hlife]
    exact hw.exits
  · rw [hlife]
    exact hw.started

theorem closed_finish {proposed : ExitStatus} (h : Unpublished w)
    (panicked : Bool) :
    Closed (w.transact (.finish proposed)).2
      { (w.transact (.finish proposed)).1 with
        life := w.life.invoke .modeWaker panicked } where
  mode := by
    rw [World.control_transact, Control.commit_mode]
    show (finish w.control.mode proposed).1 =
      .exited (finish w.control.mode proposed).2
    rw [finish_of_not_exited h.mode]
  exits := h.exits
  started := h.started

theorem tellParent_published (hw : Closed status w) :
    wp (lifeDiscipline V A T)
      (onlyIf A.parent (perform (.publish status) : P V Unit))
      (fun _ => Published A) Y w := by
  apply wp.onlyIf
  · intro hparent
    apply wp.op closed_stable hw
    intro w _ hw
    refine ⟨⟨hparent, hw.mode, hw.exits⟩, ?_⟩
    intro input w' _ _ hexec _
    cases hexec
    refine ⟨hw.started, status, hw.mode, fun _ => ?_⟩
    show status :: w.life.exits = [status]
    rw [hw.exits]
  · intro hroot
    refine ⟨hw.started, status, hw.mode, fun hparent => ?_⟩
    rw [hroot] at hparent
    cases hparent

theorem publish_published {proposed : ExitStatus} {P : World V -> Prop}
    (hstable : (lifeDiscipline V A T).Stable P)
    (hunpublished : forall w, P w -> Unpublished w)
    (hproposed : forall w, P w -> w.control.mode ≠ .aborting ->
      Proposed w proposed) (hw : P w) :
    wp (lifeDiscipline V A T) (ExitGuard.publish A proposed)
      (fun _ => Published A) Y w := by
  apply wp.bind
  apply wp.op hstable hw
  intro w hinv hw
  have hopen := hunpublished w hw
  refine ⟨⟨hopen, hproposed w hw⟩, ?_⟩
  intro input w' status _ hexec _
  cases hexec
  exact tellParent_published (closed_finish hopen _)

theorem beginAbort_gone {P : World V -> Prop}
    (hstable : (lifeDiscipline V A T).Stable P)
    (hunpublished : forall w, P w -> Unpublished w)
    (hcause : forall w, P w -> T.abort ∨ ActorPanicked w) (hw : P w) :
    wp (lifeDiscipline V A T) (transact .beginAbort) (fun _ => Gone T) Y w := by
  apply wp.op hstable hw
  intro w _ hw
  have hopen := hunpublished w hw
  refine ⟨hcause w hw, ?_⟩
  intro input w' _ _ hexec _
  cases hexec
  have hmode : (w.transact .beginAbort).1.control.mode = .aborting := by
    rw [World.control_transact, Control.commit_mode]
    show Loac.beginAbort w.control.mode = .aborting
    have hnot := hopen.mode
    cases hmode : w.control.mode with
    | exited status =>
        rw [hmode] at hnot
        cases hnot
    | _ => rfl
  refine ⟨⟨congrArg Mode.isExited hmode, hopen.exits, hopen.started⟩, hmode, ?_⟩
  exact (hcause w hw).imp_right fun hsite =>
    Life.mem_panics_invoke hsite .modeWaker _

theorem dropGuard_published (hw : Gone T w) :
    wp (lifeDiscipline V A T) (ExitGuard.drop A) (fun _ => Published A) Y w := by
  have hstable := (gone_sound (V := V) (A := A) (T := T)).stable
  apply wp.seq (beginAbort_gone hstable (fun _ hw => hw.unpublished)
    (fun _ hw => hw.cause) hw)
  intro _ w hw
  exact publish_published hstable (fun _ hw => hw.unpublished)
    (fun _ hw hmode => absurd hw.mode hmode) hw

theorem dropTask_published (site : Site) (hw : Unpublished w)
    (habort : T.abort) :
    wp (lifeDiscipline V A T) (ActorTask.drop A site)
      (fun _ => Published A) Y w := by
  have hsound := gone_sound (V := V) (A := A) (T := T)
  apply wp.seq (beginAbort_gone unpublished_stable (fun _ hw => hw)
    (fun _ _ => Or.inl habort) hw)
  intro _ w hw
  apply wp.seq (hsound.perform .dropNotified (by decide : 0 <= 6)
    (fun _ => rfl) w hw)
  intro _ w hw
  apply wp.seq (hsound.dropUserValue (dropFrame_gone site) w hw)
  intro _ w hw
  exact dropGuard_published hw

/-!
## The actor task
-/

/-- A task that has not looked at its children or replies yet. -/
abbrev Uninitialized (A : ActorConfig) (w : World V) : Prop :=
  Calm A w ∧ NoReplies w

theorem uninitialized_sound :
    Sound (lifeDiscipline V A T) 4 (Uninitialized (V := V) A)
      (fun w => Alive A w ∧ NoReplies w) :=
  (calm_sound (by decide) (Or.inl (by decide))).and
    (noReplies_carried.mono (by decide))

theorem uninitialized_idle :
    Idle (lifeDiscipline V A T) (Uninitialized (V := V) A) :=
  calm_idle.and (noReplies_carried.mono (by decide))

/-- An actor is only initialized if nothing hard was requested before. -/
theorem beginInitialization_uninitialized (hw : Uninitialized A w) :
    wp (lifeDiscipline V A T) (transact .beginInitialization)
      (fun begun w => Uninitialized A w ∧ (begun = false -> Hard w)) Y w := by
  apply wp.op uninitialized_idle.stable hw
  intro w hinv hw
  have hop := (uninitialized_sound (V := V) (A := A) (T := T)).op
    (.transact .beginInitialization) (by decide : 2 <= 4) w hinv hw
  refine ⟨hop.left, ?_⟩
  intro input w' begun hadmits hexec hinv'
  refine ⟨(hop.right input w' begun hadmits hexec hinv').left rfl, ?_⟩
  intro hfalse
  cases hexec
  apply (Control.commit_moves (Transaction.run_advances _ _)).isHard
  change (Loac.beginInitialization w.control.mode).2 = false at hfalse
  cases hmode : w.control.mode with
  | running =>
      rw [hmode] at hfalse
      cases hfalse
  | draining =>
      rw [hmode] at hfalse
      cases hfalse
  | stopping =>
      rw [hmode] at hfalse
      cases hfalse
  | _ => rfl

theorem runInit_worked (hw : Uninitialized A w) :
    wp (lifeDiscipline V A T) runInit
      (Sound.Worked (Uninitialized A) (fun _ => Uninitialized A)) Y w := by
  have hsound := uninitialized_sound (V := V) (A := A) (T := T)
  apply wp.seq (beginInitialization_uninitialized hw)
  intro begun w hw
  cases begun with
  | true =>
      apply wp.bind
      apply wp.attempt
      apply wp.mono _ _ (hsound.callUser .initCall (by decide) w hw.left)
      · intro _ w hw
        exact hsound.awaitUser .init .initPoll .initDrop uninitialized_idle
          (by decide) (by decide) hw
      · intro w hw
        apply wp.seq (hsound.containPanic hw)
        intro _ w hw
        exact wp.pure hw
  | false =>
      have hhard := hsound.and Carried.hard
      apply wp.seq (hhard.dropCalled .args (by decide) w
        ⟨hw.left, hw.right rfl⟩)
      intro _ w hw
      exact wp.pure hw

theorem runActor_finished (hw : Uninitialized A w) :
    wp (lifeDiscipline V A T) (runActor A)
      (fun status => Finished A status) (Unwinding A) w := by
  have hsound := uninitialized_sound (V := V) (A := A) (T := T)
  have hframe {p : P V ExitStatus} {w : World V}
      (hp : wp (lifeDiscipline V A T) p (fun status w => Finished A status w)
        (fun _ => False) w) :
      wp (lifeDiscipline V A T) (onExit p dropUninitialized)
        (fun status => Finished A status) (Unwinding A) w := by
    apply wp.onExit
    apply wp.mono _ _ hp
    · intro status w hw
      exact dropUninitialized_finished hw
    · intro w hw
      exact hw.elim
  apply wp.seq (runInit_worked hw)
  intro work w hw
  cases work with
  | complete _ =>
      apply wp.onExit
      apply wp.mono _ _ (runningLoop_done (Y := fun _ => False) hw.left)
      · intro status w hw
        exact dropInitialized_finished hw
      · intro w hw
        exact hw.elim
  | killed =>
      exact hframe (killUninitialized_done ⟨hw.left.left, hw.right⟩ hw.left.right)
  | panicked => exact hframe (failUninitialized_done hw.left.alive hw.right)
  | dropPanicked _ =>
      apply hframe
      apply wp.seq (hsound.requestAll (by decide) .kill w hw)
      intro _ w hw
      apply wp.seq (hsound.dropCalled (.actor true) (by decide) w hw)
      intro _ w hw
      exact failUninitialized_done hw.left.alive hw.right

theorem poll_published (hw : Uninitialized A w) :
    wp (lifeDiscipline V A T) (ActorTask.poll A) (fun _ => Published A) Y w := by
  apply wp.bind
  apply wp.attempt
  apply wp.mono _ _ (runActor_finished hw)
  · intro status w hw
    exact publish_published finished_sound.stable
      (fun _ hw => hw.left.alive.unpublished)
      (fun _ hw _ => hw.right.proposed hw.left) hw
  · intro w hw
    have hstable := (unwinding_sound (V := V) (A := A) (T := T)).stable
    apply wp.seq (R := fun _ => Unwinding A)
    · apply wp.op hstable hw
      intro w _ hw
      refine ⟨hw.right, ?_⟩
      intro input w' _ _ hexec _
      cases hexec
      exact hw
    · intro _ w hw
      apply wp.seq (beginAbort_gone hstable (fun _ hw => hw.left.unpublished)
        (fun _ hw => Or.inr hw.right) hw)
      intro _ w hw
      exact dropGuard_published hw

/-!
## Before the task starts
-/

/-- The task has not started, and nothing was run or published. -/
structure Fresh (w : World V) : Prop where
  mode : w.control.mode.isExited = false
  notAborting : w.control.mode ≠ .aborting
  exits : w.life.exits = []
  panics : w.life.panics = []
  replies : NoReplies w
  started : w.life.started = false

theorem Fresh.env_step {e : EnvAct} {w' : World V} (h : Fresh w)
    (henv : e.exec A w = some w') : Fresh w' where
  mode := by
    rcases EnvAct.control_exec henv with heq | ⟨next, hpresses, hcontrol⟩
    · rw [heq]
      exact h.mode
    · rw [hcontrol, Control.commit_mode]
      exact hpresses.tentative.right
  notAborting := by
    rcases EnvAct.control_exec henv with heq | ⟨next, hpresses, hcontrol⟩
    · rw [heq]
      exact h.notAborting
    · rw [hcontrol, Control.commit_mode]
      exact hpresses.tentative.left
  exits := by
    rw [EnvAct.life_exec henv]
    exact h.exits
  panics := by
    rw [EnvAct.life_exec henv]
    exact h.panics
  replies := by
    unfold NoReplies
    rw [EnvAct.items_exec henv]
    exact h.replies
  started := by
    rw [EnvAct.life_exec henv]
    exact h.started

theorem fresh_stable : (lifeDiscipline V A T).Stable (Fresh (V := V)) :=
  fun _ _ _ _ _ henv hw => hw.env_step henv

theorem run_published (hw : Fresh w) :
    wp (lifeDiscipline V A T) (ActorTask.run A) (fun _ => Published A) Y w := by
  apply wp.seq (R := fun _ => Uninitialized A)
  · apply wp.op fresh_stable hw
    intro w _ hw
    refine ⟨trivial, ?_⟩
    intro input w' _ _ hexec _
    cases hexec
    refine ⟨⟨⟨⟨hw.mode, hw.exits, rfl⟩, hw.notAborting, fun _ => hw.replies⟩,
      ?_⟩, hw.replies⟩
    intro site hsite
    change site ∈ w.life.panics at hsite
    rw [hw.panics] at hsite
    cases hsite
  · intro _ w hw
    apply wp.seq (uninitialized_idle.waits .start w hw)
    intro _ w hw
    exact poll_published hw

/-- The spawner was dropped, and nobody will ever finish the actor. -/
structure Unstarted (w : World V) : Prop where
  mode : w.control.mode.isExited = false
  replies : NoReplies w
  started : w.life.started = false

theorem unstarted_sound :
    Sound (lifeDiscipline V A T) 2 (Unstarted (V := V)) (Unstarted (V := V)) := by
  have hstep {α : Type} {op : Op V α} {w w' : World V} {input : Input V} {a : α}
      (hlevel : op.level <= 2) (hw : Unstarted w)
      (hexec : op.exec A input w = some (w', a)) : Unstarted w' := by
    constructor
    · cases Op.control_presses (Op.ends_of_level (by omega)) hexec with
      | inl hsame =>
          rw [hsame]
          exact hw.mode
      | inr hpress => exact hpress.tentative.right
    · exact Op.isEmpty_exec (Op.places_of_level (by omega)) hw.replies hexec
    · have hlife := Op.life_exec (Op.lives_of_level (by omega)) hexec
      exact hlife.left.trans hw.started
  have hstable : (lifeDiscipline V A T).Stable (Unstarted (V := V)) := by
    intro e w w' _ _ henv hw
    constructor
    · rcases EnvAct.control_exec henv with heq | ⟨next, hpresses, hcontrol⟩
      · rw [heq]
        exact hw.mode
      · rw [hcontrol, Control.commit_mode]
        exact hpresses.tentative.right
    · unfold NoReplies
      rw [EnvAct.items_exec henv]
      exact hw.replies
    · rw [EnvAct.life_exec henv]
      exact hw.started
  exact {
    stable := hstable
    weaken := fun _ hw => hw
    stableUnwound := hstable
    op := by
      intro α op hlevel w _ hw
      refine ⟨LifeDemands.of_level (by omega) hw.mode, ?_⟩
      intro input w' a _ hexec _
      have hw' := hstep hlevel hw hexec
      exact ⟨fun _ => hw', fun _ => hw'⟩
    contain := by
      intro w _ hw
      refine ⟨trivial, ?_⟩
      intro input w' _ hexec _
      have hlevel : (Op.transact .beginFailure : Op V Unit).level <= 2 :=
        Nat.zero_le 2
      exact hstep hlevel hw hexec }

theorem dropSpawner_unstarted (hw : Fresh w) :
    wp (lifeDiscipline V A T) ActorSpawner.drop (fun _ => Unstarted) Y w := by
  have hsound := unstarted_sound (V := V) (A := A) (T := T)
  apply wp.seq (R := fun _ => Unstarted)
  · apply wp.op fresh_stable hw
    intro w _ hw
    refine ⟨trivial, ?_⟩
    intro input w' _ _ hexec _
    have hrequest : (Op.transact (.request .kill)).exec A input w =
        some (w', _) := hexec
    constructor
    · cases Op.control_presses rfl hrequest with
      | inl hsame =>
          rw [hsame]
          exact hw.mode
      | inr hpress => exact hpress.tentative.right
    · cases hexec
      exact hw.replies
    · cases hexec
      exact hw.started
  · intro _ w hw
    apply wp.seq (hsound.dropInbox (by decide) w hw)
    intro _ w hw
    apply wp.seq (hsound.dropReplies (by decide) (fun _ hw => hw.replies) w hw)
    intro _ w hw
    exact hsound.dropChildren (by decide) w hw

/-!
## Whole lives
-/

/-- How a life comes to its end. -/
def Over (A : ActorConfig) (w : World V) : Prop :=
  Published A w ∨ Unstarted w

theorem lifetime_over (hw : Fresh w) :
    wp (lifeDiscipline V A T) (lifetime A) (fun _ => Over A) Y w := by
  have hrun {w : World V} (hw : Fresh w) :
      wp (lifeDiscipline V A T) (ActorTask.run A) (fun _ => Over A) Y w :=
    wp.mono (fun _ _ hw => Or.inl hw) (fun _ hY => hY) (run_published hw)
  unfold lifetime
  cases A.parent with
  | true => exact hrun hw
  | false =>
      apply wp.seq (R := fun _ => Fresh)
      · apply wp.op fresh_stable hw
        intro w _ hw
        refine ⟨trivial, ?_⟩
        intro input w' _ _ hexec _
        rw [Op.spawn_exec hexec]
        exact hw
      · intro started w hw
        cases started with
        | true => exact hrun hw
        | false =>
            exact wp.mono (fun _ _ hw => Or.inr hw) (fun _ hY => hY)
              (dropSpawner_unstarted hw)

theorem over_stable : (lifeDiscipline V A T).Stable (Over (V := V) A) := by
  intro e w w' hinv htolerates henv hw
  cases hw with
  | inl hpublished =>
      exact Or.inl (published_stable (T := T) e w w' hinv htolerates henv
        hpublished)
  | inr hunstarted =>
      exact Or.inr (unstarted_sound.stable e w w' hinv htolerates henv
        hunstarted)

theorem life_cancels :
    Safe.Cancels (lifeDiscipline V A T) (fun _ => Over A) (fun _ => False) := by
  intro β op input p w hcancel _ hdemands hadmits
  cases op with
  | suspend site =>
      cases input with
      | abort =>
          cases hcancel
          exact wp.mono (fun _ _ hw => Or.inl hw) (fun _ hY => hY)
            (dropTask_published site hdemands hadmits)
      | _ => cases hcancel
  | _ => cases hcancel

theorem life_safe {c : ActorState V}
    (h : Machine.Reaches (machine V A) (lifeDiscipline V A T).Permits
      (initial V A) c) :
    Safe (lifeDiscipline V A T) (fun _ => Over A) (fun _ => False) c := by
  apply Safe.run lifeDiscipline_lawful life_cancels _ h
  refine ⟨LifeInv.new V A T, _, .refl, lifetime_over ?_⟩
  exact {
    mode := rfl
    notAborting := fun h => by cases h
    exits := rfl
    panics := rfl
    replies := rfl
    started := rfl }

end Loac

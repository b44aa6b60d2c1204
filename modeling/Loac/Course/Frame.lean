import Loac.Course.Loop

/-!
# Lives in order

From the moment its address exists until its frame is gone, the course of an
actor stays in order, also when its spawner or the executor drops it.
-/

namespace Loac

open Interleave Interleave.Prog

variable {V α : Type} {A : ActorConfig} {w w' : World V}
  {Y : World V -> Prop}

/-!
## Dropping frames
-/

theorem earned_lasts {parts : List Part} (status : ExitStatus) :
    Lasts A parts (Earned (V := V) status) where
  env := by
    intro e w w' henv hw
    refine hw.mono ?_
    intro entry hentry
    rw [EnvAct.life_exec henv]
    exact hentry
  op := fun _ _ _ _ _ _ hexec hw => hw.mono fun _ => Op.course_grows hexec

theorem frame_loose {frame : P V Unit} {parts : List Part}
    (hparts : parts.all Part.loose = true)
    (hframe : frame.Uses (vocabulary V parts)) {K : World V -> Prop}
    (hK : Lasts A parts K) (hw : Loose w ∧ K w) :
    wp (courseDiscipline V A) frame (fun _ w => Loose w ∧ K w) Loose w := by
  have hkeeps := loose_keeps (V := V) (A := A) hparts hK
  apply wp.mono (fun _ _ hw => hw) _ (hframe.keeps hkeeps w hw)
  exact fun _ hw => hw.left

theorem onExit_concludes {p : P V ExitStatus} {frame : P V Unit}
    (hframe : frame.Uses (vocabulary V frameParts))
    (hp : wp (courseDiscipline V A) p Concludes Loose w) :
    wp (courseDiscipline V A) (onExit p frame) Concludes Loose w := by
  apply wp.onExit
  apply wp.mono _ _ hp
  · intro status w hw
    exact frame_loose rfl hframe (earned_lasts status) hw
  · intro w hw
    apply wp.mono (fun _ _ hw => hw.left) (fun _ hX => hX)
      (frame_loose rfl hframe Lasts.true ⟨hw, trivial⟩)

theorem dropFrame_loose (site : Site) (hw : site.Holds w) :
    wp (courseDiscipline V A) (ActorTask.dropFrame site) (fun _ => Loose) Loose
      w := by
  have hinitialized : (dropInitialized : P V Unit).Uses
      (vocabulary V frameParts) := dropInitialized_uses vocabulary_has
  have huninitialized : (dropUninitialized : P V Unit).Uses
      (vocabulary V frameParts) := dropUninitialized_uses (vocabulary_has.mono rfl)
  have hunpolled : (dropUnpolled : P V Unit).Uses
      (vocabulary V frameParts) := dropUnpolled_uses vocabulary_has
  have hretire : forall {site : UserSite}, site.part = .retires ->
      (callUser site : P V Unit).Uses (vocabulary V frameParts) := by
    intro site hsite
    apply callUser_uses
    rw [hsite]
    exact vocabulary_has.mono rfl
  have hdropped : forall {site : UserSite}, site.part = .retires ->
      (ActorWorkGuard.dropFuturePanicked (callUser site) : P V Bool).Uses
        (vocabulary V frameParts) :=
    fun hsite => dropFuturePanicked_uses (vocabulary_has.mono rfl)
      (hretire hsite)
  cases site with
  | start => exact loose_uses rfl hunpolled hw
  | init =>
      exact loose_uses rfl
        (Within.seq (hdropped rfl) fun _ => huninitialized) hw
  | turn expectedMode => exact loose_uses rfl hinitialized hw
  | hook child =>
      have hhook : wp (courseDiscipline V A) (callUser (.hookDrop child))
          (fun _ => Loose) Loose w :=
        callUser_retires rfl (fun phase hmem =>
          ⟨.running, rfl, hookDrop_retires child phase hmem⟩) hw
      apply wp.seq (dropFuturePanicked_loose hhook)
      intro panicked w hw
      have hloose : Loose w := by
        cases panicked <;> exact hw
      exact loose_uses rfl hinitialized hloose
  | discard initialized =>
      cases initialized with
      | true => exact loose_uses rfl hinitialized hw
      | false => exact loose_uses rfl huninitialized hw
  | finishReplies => exact loose_uses rfl hinitialized hw
  | children => exact loose_uses rfl hinitialized hw
  | onStop reason =>
      exact loose_uses rfl
        (Within.seq (hdropped rfl) fun _ => hinitialized) hw
  | waitAll initialized =>
      cases initialized with
      | true => exact loose_uses rfl hinitialized hw
      | false => exact loose_uses rfl huninitialized hw

/-!
## Publication
-/

theorem publish_ends {proposed : ExitStatus} (hw : Earned proposed w) :
    wp (courseDiscipline V A) (ExitGuard.publish A proposed) (fun _ _ => True) Y
      w := by
  have hearned : Lasts A [] (Earned (V := V) proposed) := earned_lasts proposed
  have hanything : Lasts A [] (fun _ : World V => True) := Lasts.true
  apply wp.bind
  apply wp.op hearned.stable hw
  intro w _ hw
  refine ⟨hw, ?_⟩
  intro input w' status _ _ _
  apply wp.onlyIf
  · intro _
    apply wp.op hanything.stable trivial
    intro w _ _
    exact ⟨trivial, fun _ _ _ _ _ _ => trivial⟩
  · exact fun _ => trivial

theorem beginAbort_keeps {K : World V -> Prop}
    (hstable : (courseDiscipline V A).Stable K)
    (hK : forall w w' input, (Op.transact .beginAbort).exec A input w =
      some (w', ()) -> K w -> K w') (hw : K w) :
    wp (courseDiscipline V A) (transact .beginAbort) (fun _ => K) Y w := by
  apply wp.op hstable hw
  intro w _ hw
  refine ⟨trivial, ?_⟩
  intro input w' _ _ hexec _
  exact hK w w' input hexec hw

theorem At.abort {phase : Phase} {input : Input V} (hat : At phase w)
    (hexec : (Op.transact .beginAbort).exec A input w = some (w', ())) :
    At phase w' := by
  cases hexec
  refine ⟨hat.after, ?_⟩
  show (w.transact .beginAbort).1.control.mode.isExited = false
  rw [World.control_transact, Control.commit_mode]
  show (Loac.beginAbort w.control.mode).isExited = false
  have hopen := hat.unexited
  cases hmode : w.control.mode with
  | exited status =>
      rw [hmode] at hopen
      cases hopen
  | _ => rfl

theorem dropGuard_ends :
    wp (courseDiscipline V A) (ExitGuard.drop A) (fun _ _ => True) Y w := by
  have hanything : Lasts A [] (fun _ : World V => True) := Lasts.true
  apply wp.seq (beginAbort_keeps hanything.stable (fun _ _ _ _ _ => trivial)
    trivial)
  intro _ w _
  apply publish_ends
  intro hsoft
  cases hsoft

theorem site_holds_stable (site : Site) :
    (courseDiscipline V A).Stable (fun w : World V => site.Holds w) := by
  have hloose : Lasts A waitParts (Loose (V := V)) := loose_waits
  cases site with
  | hook child =>
      have hsome : Lasts A waitParts
          (AtSome (V := V) [.admitted child, .hooking child]) :=
        atSome_waits _
      exact hsome.stable
  | _ => exact hloose.stable

theorem site_holds_abort (site : Site) {input : Input V}
    (hexec : (Op.transact .beginAbort).exec A input w = some (w', ()))
    (hw : site.Holds w) : site.Holds w' := by
  have hsome : forall {P : Phase -> Prop},
      (exists phase, P phase ∧ At phase w) ->
        exists phase, P phase ∧ At phase w' :=
    fun ⟨phase, hphase, hat⟩ => ⟨phase, hphase, hat.abort hexec⟩
  cases site <;> exact hsome hw

theorem dropTask_ends (site : Site) (hw : site.Holds w) :
    wp (courseDiscipline V A) (ActorTask.drop A site) (fun _ _ => True) Y
      w := by
  apply wp.seq (beginAbort_keeps (site_holds_stable site)
    (fun _ _ _ => site_holds_abort site) hw)
  intro _ w hw
  apply wp.seq (R := fun _ (w : World V) => site.Holds w)
  · apply wp.op (site_holds_stable site) hw
    intro w _ hw
    refine ⟨trivial, ?_⟩
    intro input w' _ _ hexec _
    have hexec' : (Op.dropNotified).exec A input w = some (w', ()) := hexec
    have hsome : forall {P : Phase -> Prop},
        (exists phase, P phase ∧ At phase w) ->
          exists phase, P phase ∧ At phase w' :=
      fun ⟨phase, hphase, hat⟩ =>
        ⟨phase, hphase, hat.waits (Or.inr rfl) hexec'⟩
    cases site <;> exact hsome hw
  · intro _ w hw
    apply wp.seq (R := fun _ _ => True)
    · apply wp.bind
      apply wp.attempt
      apply wp.mono _ _ (dropFrame_loose site hw)
      · exact fun _ _ _ => wp.pure trivial
      · intro w hw
        apply wp.mono (fun _ _ _ => trivial) (fun _ hY => hY)
          (containPanic_loose hw)
    · exact fun _ _ _ => dropGuard_ends

/-!
## The actor task
-/

theorem beginInitialization_fresh (hw : At .fresh w ∧ Open A w) :
    wp (courseDiscipline V A) (transact .beginInitialization)
      (fun _ w => At .fresh w ∧ Open A w) Y w := by
  have hopen : Lasts A [.enters] (Open (V := V) A) :=
    open_lasts rfl (sane_lasts rfl (fun _ => rfl))
  have hkeeps : (vocabulary V [.enters]).Keeps (courseDiscipline V A)
      (fun w => At .fresh w ∧ Open A w) := at_keeps rfl hopen
  exact hkeeps.perform (.transact .beginInitialization) rfl w hw

theorem initCall_runs : Phase.Runs .initCall [.fresh, .calling] .calling
    .initializing .initializing .complete where
  inside := by simp
  continues := by simp [Phase.user, Phase.initCall]
  pending := by simp [Phase.user, Phase.initCall]
  ready := by simp [Phase.user, Phase.initCall]
  panicked := by simp [Phase.user, Phase.initCall]

theorem initPoll_runs : Phase.Runs .initPoll [.initializing] .initializing
    .initializing .running .complete where
  inside := by simp
  continues := by simp [Phase.user, Phase.initPoll]
  pending := by simp [Phase.user, Phase.initPoll]
  ready := by simp [Phase.user, Phase.initPoll]
  panicked := by simp [Phase.user, Phase.initPoll]

theorem runInit_completes (hw : At .fresh w ∧ Open A w) :
    wp (courseDiscipline V A) runInit
      (Completes (fun _ w => At .running w ∧ Open A w ∧
        Entry.user .initPoll .ready ∈ w.life.course)) Y w := by
  have hopen : Lasts A (.init :: .retires :: waitParts) (Open (V := V) A) :=
    open_lasts rfl (sane_lasts rfl (fun _ => rfl))
  apply wp.seq (beginInitialization_fresh hw)
  intro begun w hw
  cases begun with
  | true =>
      apply wp.bind
      apply wp.attempt
      apply wp.mono _ _ (callUser_runs initCall_runs (hopen.mono rfl)
        (fun h => by cases h) ⟨⟨.fresh, by simp, hw.left⟩, hw.right⟩)
      · intro _ w hw
        apply awaitUser_completes .init .initDrop rfl (fun _ h => h)
          initPoll_runs rfl Lasts.true hopen (fun h => by cases h) rfl
        · intro phase hmem
          rcases List.mem_singleton.mp hmem with rfl
          have hlax : Phase.initializing.lax = true := rfl
          exact ⟨.initializing, hlax, fun _ =>
            Phase.retire_of_lax .initDrop hlax⟩
        · rfl
        · rfl
        · intro w hw
          rcases hw with ⟨phase, hmem, hat⟩
          rcases List.mem_singleton.mp hmem with rfl
          exact ⟨.initializing, rfl, hat⟩
        · exact ⟨⟨.initializing, by simp, hw.left⟩, trivial, hw.right⟩
      · intro w hw
        apply wp.seq (containPanic_loose ⟨.complete, rfl, hw.left⟩)
        intro _ w hw
        exact wp.pure hw
  | false =>
      have hargs : (callUser .args : P V Unit).Uses
          (vocabulary V frameParts) := callUser_uses (vocabulary_has.mono rfl)
      apply wp.seq (dropUserValue_loose
        (loose_uses rfl hargs ⟨.fresh, rfl, hw.left⟩))
      intro _ w hw
      exact wp.pure hw

theorem runActor_concludes (hw : At .fresh w ∧ Open A w) :
    wp (courseDiscipline V A) (runActor A) Concludes Loose w := by
  have hinitialized : (dropInitialized : P V Unit).Uses
      (vocabulary V frameParts) := dropInitialized_uses vocabulary_has
  have huninitialized : (dropUninitialized : P V Unit).Uses
      (vocabulary V frameParts) := dropUninitialized_uses (vocabulary_has.mono rfl)
  apply wp.seq (runInit_completes hw)
  intro work w hw
  cases work with
  | complete _ =>
      exact onExit_concludes hinitialized
        (runningLoop_concludes ⟨hw.left, hw.right.left⟩)
  | killed =>
      exact onExit_concludes huninitialized (killUninitialized_concludes hw)
  | panicked =>
      exact onExit_concludes huninitialized (failUninitialized_concludes hw)
  | dropPanicked _ =>
      apply onExit_concludes huninitialized
      have hrequest : (ChildSet.requestAll .kill : P V Unit).Uses
          (vocabulary V frameParts) :=
        requestAll_uses (vocabulary_has.mono rfl) .kill
      have hactor : (callUser (.actor true) : P V Unit).Uses
          (vocabulary V frameParts) := callUser_uses (vocabulary_has.mono rfl)
      apply wp.seq (loose_uses rfl hrequest hw)
      intro _ w hw
      apply wp.seq (dropUserValue_loose (loose_uses rfl hactor hw))
      intro _ w hw
      exact failUninitialized_concludes hw

theorem poll_ends (hw : At .fresh w ∧ Open A w) :
    wp (courseDiscipline V A) (ActorTask.poll A) (fun _ _ => True) Y w := by
  apply wp.bind
  apply wp.attempt
  apply wp.mono _ _ (runActor_concludes hw)
  · exact fun _ _ hw => publish_ends hw.right
  · intro w hw
    have hunwound : (perform (.reach .unwound) : P V Unit).Uses
        (vocabulary V teardownParts) := Has.perform vocabulary_has rfl
    have hanything : Lasts A [] (fun _ : World V => True) := Lasts.true
    apply wp.seq (R := fun _ _ => True)
    · apply wp.op hanything.stable trivial
      intro w _ _
      exact ⟨rfl, fun _ _ _ _ _ _ => trivial⟩
    · intro _ w _
      apply wp.seq (beginAbort_keeps hanything.stable
        (fun _ _ _ _ _ => trivial) trivial)
      intro _ w _
      exact dropGuard_ends

/-!
## Whole lives
-/

theorem run_ends (hw : At .fresh w ∧ Open A w) :
    wp (courseDiscipline V A) (ActorTask.run A) (fun _ _ => True) Y w := by
  have hopen : Lasts A [.lives, .yields] (Open (V := V) A) :=
    open_lasts rfl (sane_lasts rfl (fun _ => rfl))
  have hkeeps : (vocabulary V [.lives, .yields]).Keeps (courseDiscipline V A)
      (fun w => At .fresh w ∧ Open A w) := at_keeps rfl hopen
  apply wp.seq (hkeeps.perform .start rfl w hw)
  intro _ w hw
  apply wp.seq (hkeeps.perform (.suspend .start) rfl w hw)
  intro _ w hw
  exact poll_ends hw

theorem dropSpawner_ends (hw : At .fresh w) :
    wp (courseDiscipline V A) ActorSpawner.drop (fun _ _ => True)
      (fun _ => True) w := by
  have hfresh : Lasts A waitParts (At (V := V) .fresh) := at_waits
  apply wp.seq (R := fun _ => Loose)
  · apply wp.op hfresh.stable hw
    intro w _ hw
    refine ⟨trivial, ?_⟩
    intro input w' status _ hexec _
    have hexec' : (Op.transact (.request .kill)).exec A input w =
        some (w', status) := hexec
    refine ⟨.fresh, rfl, hw.unnoted rfl hexec' ?_⟩
    cases hexec
    rfl
  · intro _ w hw
    have hinbox : (ActorInbox.drop : P V Unit).Uses
        (vocabulary V frameParts) := dropInbox_uses (vocabulary_has.mono rfl)
    have hqueue : (Queue.drop : P V Unit).Uses
        (vocabulary V frameParts) := dropQueue_uses (vocabulary_has.mono rfl)
    have hdrop : (do
        ActorInbox.drop
        Queue.drop
        ChildSet.drop : P V Unit).Uses (vocabulary V frameParts) :=
      Within.seq hinbox fun _ => Within.seq hqueue fun _ =>
        dropChildren_uses (vocabulary_has.mono rfl)
    exact wp.mono (fun _ _ _ => trivial) (fun _ _ => trivial)
      (loose_uses rfl hdrop hw)

theorem lifetime_ends (hw : At .fresh w ∧ Open A w) :
    wp (courseDiscipline V A) (lifetime A) (fun _ _ => True) (fun _ => True)
      w := by
  unfold lifetime
  cases A.parent with
  | true => exact run_ends hw
  | false =>
      have hopen : Lasts A [.lives] (Open (V := V) A) :=
        open_lasts rfl (sane_lasts rfl (fun _ => rfl))
      have hkeeps : (vocabulary V [.lives]).Keeps (courseDiscipline V A)
          (fun w => At .fresh w ∧ Open A w) := at_keeps rfl hopen
      apply wp.seq (hkeeps.perform .spawn rfl w hw)
      intro started w hw
      cases started with
      | true => exact run_ends hw
      | false => exact dropSpawner_ends hw.left

theorem course_cancels :
    Safe.Cancels (courseDiscipline V A) (fun _ _ => True)
      (fun _ => True) := by
  intro β op input p w hcancel _ hdemands _
  cases op with
  | suspend site =>
      cases input with
      | abort =>
          cases hcancel
          exact dropTask_ends site hdemands.left
      | _ => cases hcancel
  | _ => cases hcancel

theorem CourseInv.new (V : Type) : CourseInv (World.new V) where
  ordered := rfl
  tidy := fun h => by cases h
  earned := fun _ h => by cases h

theorem course_safe {c : ActorState V} (h : Reachable A c) :
    Safe (courseDiscipline V A) (fun _ _ => True) (fun _ => True) c := by
  apply Safe.run courseDiscipline_lawful course_cancels _ (h.weaken _)
  · refine ⟨CourseInv.new V, _, .refl, lifetime_ends ⟨⟨rfl, rfl⟩, ?_, rfl⟩⟩
    exact ⟨fun h => (by cases h), fun _ => rfl⟩
  · intro c event _
    cases event with
    | env e => trivial
    | actor input =>
        unfold Discipline.Permits
        cases c.prog <;> trivial

end Loac

import Loac.Containment.Repertoire

/-!
# The spine of a lifetime

Every actor is initialized, takes turns, and ends through a shutdown or a
teardown.  What is known between its turns is established before the first of
them, kept by each, and given up where the actor goes over to its teardown.  The
pieces that may differ from property to property are stated here, and put
together once.
-/

namespace Loac

open Interleave Interleave.Prog

variable {V α β γ : Type} {A : ActorConfig}

def repertoire (V : Type) (parts : List Part) : Vocabulary (Op V) where
  uses := fun op => parts.contains op.part = true
  gives := fun _ _ => True

theorem repertoire_has {parts : List Part} : Has (repertoire V parts) parts :=
  fun _ hop => hop

theorem cancel_none {parts : List Part} (hparks : parts.contains .parks = false)
    (hyields : parts.contains .yields = false) (op : Op V α) (input : Input V)
    (hop : parts.contains op.part = true) : cancel A op input = none := by
  unfold cancel
  split
  · rename_i site
    exfalso
    change parts.contains site.part = true at hop
    cases site <;> first
      | exact Bool.false_ne_true (hparks.symm.trans hop)
      | exact Bool.false_ne_true (hyields.symm.trans hop)
  · rfl

/-- What an actor does between its turns. -/
def calmParts : List Part :=
  [.looks, .errs, .fails, .closes, .lives, .yields]

/-- What an actor does once it takes no more turns. -/
def looseParts : List Part :=
  [.looks, .notified, .fails, .answers, .values, .drops, .removes, .closes,
    .discards, .asks, .waits, .yields, .marks, .errs, .retires, .ends, .lives]

/-- The lifecycle work of a turn, and what it leaves known. -/
def SchedulerTurn.Leads {σ : Type} (K C : σ -> Prop) : SchedulerTurn -> σ -> Prop
  | .child _ => C
  | _ => K

def DrainTurn.Leads {σ : Type} (K C G : σ -> Prop) : DrainTurn -> σ -> Prop
  | .scheduled turn => turn.Leads K C
  | .repliesFinished => G

def runningTurn : TurnContext :=
  { receiveMessages := true, expectedMode := .running }

section Loose

variable {S : Vocabulary (Op V)} (h : Has S looseParts)

include h

theorem failActor_uses : (failActor A : P V ExitStatus).Uses S := by
  refine Within.seq (h.perform rfl) fun _ => ?_
  refine Within.seq (h.perform rfl) fun mode => ?_
  have hfail : forall {reason : ExitReason}, reason.isHard = true ->
      (failWith A reason : P V ExitStatus).Uses S :=
    fun hhard => (failWith_hard (h.mono rfl) hhard).uses
  cases mode with
  | exited status => trivial
  | _ => exact hfail rfl

theorem killActor_uses : (killActor A : P V ExitStatus).Uses S :=
  (killActor_hard (h.mono rfl)).uses

theorem failUninitialized_uses : (failUninitialized : P V ExitStatus).Uses S := by
  refine Within.seq (h.perform rfl) fun _ => ?_
  refine Within.seq (h.perform rfl) fun mode => ?_
  have hfail : forall {reason : ExitReason}, reason.isHard = true ->
      (failUninitializedWith reason : P V ExitStatus).Uses S :=
    fun hhard => (failUninitializedWith_hard (h.mono rfl) hhard).uses
  cases mode with
  | exited status => trivial
  | _ => exact hfail rfl

theorem killUninitialized_uses :
    (killUninitialized : P V ExitStatus).Uses S :=
  (killUninitialized_hard (h.mono rfl)).uses

theorem requestAll_loose (shutdown : Shutdown) :
    (ChildSet.requestAll shutdown : P V Unit).Uses S :=
  requestAll_uses (h.mono rfl) shutdown

theorem publish_uses (status : ExitStatus) :
    (ExitGuard.publish A status : P V Unit).Uses S :=
  Within.seq (h.perform rfl) (fun _ => Within.onlyIf (h.perform rfl))

theorem dropGuard_uses : (ExitGuard.drop A : P V Unit).Uses S :=
  Within.seq (h.perform rfl) (fun _ => publish_uses h _)

theorem dropFrame_uses (site : Site) :
    (ActorTask.dropFrame site : P V Unit).Uses S := by
  have hinitialized : (dropInitialized : P V Unit).Uses S :=
    dropInitialized_uses (h.mono rfl)
  have huninitialized : (dropUninitialized : P V Unit).Uses S :=
    dropUninitialized_uses (h.mono rfl)
  have hdropped : forall {site : UserSite}, site.part = .retires ->
      (ActorWorkGuard.dropFuturePanicked (callUser site) : P V Bool).Uses S := by
    intro site hsite
    apply dropFuturePanicked_uses (h.mono rfl)
    apply callUser_uses
    rw [hsite]
    exact h.mono rfl
  have hframe : forall initialized : Bool,
      Prog.Uses S (if initialized = true then dropInitialized
        else dropUninitialized : P V Unit) :=
    fun _ => Within.ite hinitialized huninitialized
  cases site with
  | start => exact dropUnpolled_uses (h.mono rfl)
  | init => exact Within.seq (hdropped rfl) (fun _ => huninitialized)
  | turn expectedMode => exact hinitialized
  | hook child => exact Within.seq (hdropped rfl) (fun _ => hinitialized)
  | discard initialized => exact hframe initialized
  | finishReplies => exact hinitialized
  | children => exact hinitialized
  | onStop reason => exact Within.seq (hdropped rfl) (fun _ => hinitialized)
  | waitAll initialized => exact hframe initialized

theorem dropTask_uses (site : Site) :
    (ActorTask.drop A site : P V Unit).Uses S :=
  Within.seq (h.perform rfl) fun _ =>
    Within.seq (h.perform rfl) fun _ =>
      Within.seq (dropUserValue_uses (h.mono rfl) (dropFrame_uses h site))
        fun _ => dropGuard_uses h

theorem dropSpawner_uses : (ActorSpawner.drop : P V Unit).Uses S :=
  Within.seq (h.perform rfl) fun _ =>
    Within.seq (dropInbox_uses (h.mono rfl)) fun _ =>
      Within.seq (dropQueue_uses (h.mono rfl)) fun _ =>
        dropChildren_uses (h.mono rfl)

end Loose

/-!
## The pieces
-/

variable {σ : Type} {M : Machine (Op V) σ (Input V) EnvAct Unit}

/--
What has to be shown of the pieces of a lifetime.  `K` holds between turns, `C`
where a child has exited, `E` before a turn of a drain, `F` before a wait for
replies, `G` where no replies are left, and `X` during a teardown.
-/
structure Spine (A : ActorConfig) (D : Discipline M) (K C F G X : σ -> Prop)
    (E : Bool -> σ -> Prop) : Prop where
  falls : forall s, K s -> X s
  waits : forall s, F s -> X s
  calm : (repertoire V calmParts).Keeps D K
  loose : (repertoire V looseParts).Keeps D X
  kill : Keeps D X X (killActor A)
  fail : Keeps D X X (failActor A)
  init : Keeps D K X runInit
  running : forall s, K s ->
    wp D (actorTurn A runningTurn) (fun turn => turn.Leads K C) X s
  hook : forall event s, C s ->
    wp D (handleChildExit event) (fun _ => K) X s
  shutdown : forall shutdown, Keeps D K X (callUser (.onShutdown shutdown))
  empties : forall drained s, K s ->
    wp D ActorInbox.isEmpty (fun empty => E (drained || empty)) X s
  draining : forall drained s, E drained s ->
    wp D (drainTurn A (!drained)) (fun turn => turn.Leads K C G) X s
  discards : Keeps D K X (closeAndDiscard true .stopping)
  idle : forall s, K s ->
    wp D (isIdle A) (fun idle s => if idle then G s else F s) X s
  modes : Keeps D F X mode
  stopping : forall s, F s -> wp D (finishRepliesTurn A) (fun _ => K) X s
  graceful : forall shutdown reason s, G s ->
    wp D (gracefulFinish shutdown reason) (fun _ => X) X s

namespace Spine

variable {D : Discipline M} {K C F G X : σ -> Prop} {E : Bool -> σ -> Prop}
  {s : σ} {b : β}

theorem looses (h : Spine A D K C F G X E) {p : P V α}
    (hp : p.Uses (repertoire V looseParts)) : Keeps D X X p :=
  hp.keeps h.loose

theorem calms (h : Spine A D K C F G X E) (op : Op V α)
    (hop : calmParts.contains op.part = true) : Keeps D K X (perform op) :=
  h.calm.perform op hop

theorem ends (_ : Spine A D K C F G X E) {p : P V ExitStatus}
    (hp : Keeps D X X p) {I : β -> σ -> Prop} (hs : X s) :
    wp D (do
      let status ← p
      (done status : P V (β ⊕ ExitStatus)))
      (Splits I (fun _ => X)) X s := by
  apply wp.seq (hp s hs)
  intro status s hs
  exact wp.done hs

theorem contains (h : Spine A D K C F G X E) :
    Keeps D X X (containPanic : P V Unit) :=
  h.looses (containPanic_uses (repertoire_has.mono rfl))

theorem marks (h : Spine A D K C F G X E) (point : Point) :
    Keeps D X X (perform (.reach point) : P V Unit) :=
  h.looses (repertoire_has.perform (by cases point <;> rfl))

theorem terminates (h : Spine A D K C F G X E) (reason : ExitReason)
    (work : Work Unit) : Keeps D X X (terminate A reason work) := by
  cases work with
  | complete _ =>
      exact h.looses (terminalStatus_uses (repertoire_has.mono rfl) reason)
  | killed => exact h.kill
  | panicked => exact h.fail
  | dropPanicked _ => exact h.fail

def Left (G X : σ -> Prop) : Option ExitStatus -> σ -> Prop
  | some _ => X
  | none => G

def Done (G X : σ -> Prop) : Work Unit -> σ -> Prop
  | .complete _ => G
  | _ => X

/-!
## Drain
-/

theorem drainRound (h : Spine A D K C F G X E) (drained : Bool) (hs : K s) :
    wp D (drainRound A drained)
      (Splits (fun _ => K) (Left G X)) X s := by
  apply wp.seq (h.empties drained s hs)
  intro empty s hs
  apply wp.bind
  apply wp.attempt
  apply wp.mono _ _ (h.draining (drained || empty) s hs)
  · intro turn s hs
    cases turn with
    | repliesFinished => exact wp.done hs
    | scheduled turn =>
        cases turn with
        | lifecycleHint => exact wp.again hs
        | progress => exact wp.again hs
        | inboxClosed => exact wp.again hs
        | child event =>
            apply wp.seq (h.hook event s hs)
            intro work s hs
            have hfails : wp D (do
                transact .beginFailure
                let status ← failActor A
                done (some status) : P V (Bool ⊕ Option ExitStatus))
                (Splits (fun _ => K) (Left G X)) X s := by
              apply wp.seq (h.contains s (h.falls s hs))
              intro _ s hs
              apply wp.seq (h.fail s hs)
              intro status s hs
              exact wp.done hs
            cases work with
            | complete _ => exact wp.again hs
            | killed =>
                apply wp.seq (h.kill s (h.falls s hs))
                intro status s hs
                exact wp.done hs
            | panicked => exact hfails
            | dropPanicked _ => exact hfails
  · intro s hs
    apply wp.seq (h.contains s hs)
    intro _ s hs
    apply wp.seq (h.fail s hs)
    intro status s hs
    exact wp.done hs

theorem drainLoop (h : Spine A D K C F G X E) (drained : Bool) (hs : K s) :
    wp D (drainLoop A drained) (Left G X) X s := by
  apply wp.rounds (fun _ => K) hs
  intro drained s hs
  apply wp.seq (h.calms .mode rfl s hs)
  intro mode s hs
  have hloose := h.falls s hs
  cases mode with
  | killing =>
      apply wp.seq (h.kill s hloose)
      intro status s hs
      exact wp.done hs
  | failing =>
      apply wp.seq (h.fail s hloose)
      intro status s hs
      exact wp.done hs
  | exited status => exact wp.done hloose
  | aborting => exact wp.done hloose
  | _ => exact h.drainRound drained hs

theorem drainActor (h : Spine A D K C F G X E) (hs : K s) :
    wp D (drainActor A) (fun _ => X) X s := by
  apply wp.seq (h.calms (.mail .close) rfl s hs)
  intro _ s hs
  apply wp.seq (h.calms (.mail .isEmpty) rfl s hs)
  intro empty s hs
  apply wp.seq (h.drainLoop empty hs)
  intro status s hs
  cases status with
  | some _ => exact wp.pure hs
  | none =>
      apply wp.seq (h.graceful .drain .drained s hs)
      intro work s hs
      exact h.terminates .drained work s hs

/-!
## Stop
-/

theorem finishReplies (h : Spine A D K C F G X E) (hs : K s) :
    wp D (finishReplies A)
      (Done G X) X s := by
  apply wp.rounds (fun _ => K) hs
  intro _ s hs
  apply wp.seq (h.idle s hs)
  intro idle s hs
  cases idle with
  | true => exact wp.done hs
  | false =>
      apply wp.seq (h.modes s hs)
      intro mode s hs
      have hloose := h.waits s hs
      cases mode with
      | killing => exact wp.done hloose
      | failing => exact wp.done hloose
      | aborting => exact wp.done hloose
      | exited status => exact wp.done hloose
      | _ =>
          apply wp.bind
          apply wp.attempt
          apply wp.mono _ _ (h.stopping s hs)
          · intro _ s hs
            exact wp.again hs
          · intro s hs
            apply wp.seq (h.contains s hs)
            intro _ s hs
            exact wp.done hs

theorem stopActor (h : Spine A D K C F G X E) (hs : K s) :
    wp D (stopActor A) (fun _ => X) X s := by
  apply wp.seq (h.discards s hs)
  intro outcome s hs
  cases outcome with
  | complete =>
      apply wp.seq (h.finishReplies hs)
      intro work s hs
      cases work with
      | complete _ =>
          apply wp.seq (h.graceful .stop .stopped s hs)
          intro work s hs
          exact h.terminates .stopped work s hs
      | killed => exact h.kill s hs
      | panicked => exact h.fail s hs
      | dropPanicked _ => exact h.fail s hs
  | modeChanged =>
      apply wp.seq (h.calms .mode rfl s hs)
      intro mode s hs
      have hloose := h.falls s hs
      have herrs : wp D (do
          perform (.reach .impossibleMode)
          .throw : P V ExitStatus) (fun _ => X) X s := by
        apply wp.seq (h.marks .impossibleMode s hloose)
        intro _ s hs
        exact hs
      cases mode with
      | killing => exact h.kill s hloose
      | failing => exact h.fail s hloose
      | _ => exact herrs

/-!
## Running
-/

theorem shutdownActor (h : Spine A D K C F G X E) (shutdown : Shutdown)
    {follow : P V ExitStatus}
    (hfollow : forall s, K s -> wp D follow (fun _ => X) X s) (hs : K s) :
    wp D (shutdownActor A shutdown follow) (fun _ => X) X s := by
  apply wp.bind
  apply wp.attempt
  apply wp.mono _ _ (h.shutdown shutdown s hs)
  · intro _ s hs
    exact hfollow s hs
  · intro s hs
    apply wp.seq (h.contains s hs)
    intro _ s hs
    exact h.fail s hs

theorem runningRound (h : Spine A D K C F G X E) (hs : K s) :
    wp D (runningRound A)
      (Splits (fun _ => K) (fun _ => X)) X s := by
  have hfails : forall s, X s -> wp D (do
      transact .beginFailure
      let status ← failActor A
      done status : P V (Unit ⊕ ExitStatus))
      (Splits (fun _ => K) (fun _ => X)) X s := by
    intro s hs
    apply wp.seq (h.contains s hs)
    intro _ s hs
    exact h.ends (I := fun _ => K) h.fail hs
  apply wp.bind
  apply wp.attempt
  apply wp.mono _ _ (h.running s hs)
  · intro turn s hs
    cases turn with
    | lifecycleHint => exact wp.again hs
    | progress => exact wp.again hs
    | child event =>
        apply wp.seq (h.hook event s hs)
        intro work s hs
        cases work with
        | complete _ => exact wp.again hs
        | killed => exact h.ends (I := fun _ => K) h.kill (h.falls s hs)
        | panicked => exact hfails s (h.falls s hs)
        | dropPanicked _ => exact hfails s (h.falls s hs)
    | inboxClosed =>
        apply wp.seq (h.marks .inboxClosed s (h.falls s hs))
        intro _ s hs
        exact hfails s hs
  · intro s hs
    exact hfails s hs

theorem runningLoop (h : Spine A D K C F G X E) (hs : K s) :
    wp D (runningLoop A) (fun _ => X) X s := by
  apply wp.rounds (fun _ => K) hs
  intro _ s hs
  apply wp.seq (h.calms .mode rfl s hs)
  intro mode s hs
  have hloose := h.falls s hs
  cases mode with
  | running => exact h.runningRound hs
  | draining =>
      apply wp.seq (h.shutdownActor .drain (fun _ => h.drainActor) hs)
      intro status s hs
      exact wp.done hs
  | stopping =>
      apply wp.seq (h.shutdownActor .stop (fun _ => h.stopActor) hs)
      intro status s hs
      exact wp.done hs
  | killing => exact h.ends (I := fun _ => K) h.kill hloose
  | failing => exact h.ends (I := fun _ => K) h.fail hloose
  | exited status => exact wp.done hloose
  | aborting => exact wp.done hloose

/-!
## The whole life
-/

theorem runActor (h : Spine A D K C F G X E) (hs : K s) :
    wp D (runActor A) (fun _ => X) X s := by
  have hinitialized : Keeps D X X (dropInitialized : P V Unit) :=
    h.looses (dropInitialized_uses (repertoire_has.mono rfl))
  have huninitialized : Keeps D X X (dropUninitialized : P V Unit) :=
    h.looses (dropUninitialized_uses (repertoire_has.mono rfl))
  have hframe : forall {p : P V ExitStatus} {frame : P V Unit} {s : σ},
      wp D p (fun _ => X) X s -> Keeps D X X frame ->
        wp D (onExit p frame) (fun _ => X) X s := by
    intro p frame s hp hframe
    apply wp.onExit
    exact wp.mono (fun _ => hframe) hframe hp
  apply wp.seq (h.init s hs)
  intro work s hs
  have hloose := h.falls s hs
  cases work with
  | complete _ => exact hframe (h.runningLoop hs) hinitialized
  | killed =>
      exact hframe (h.looses (killUninitialized_uses repertoire_has) s hloose)
        huninitialized
  | panicked =>
      exact hframe (h.looses (failUninitialized_uses repertoire_has) s hloose)
        huninitialized
  | dropPanicked _ =>
      refine hframe ?_ huninitialized
      have hactor : (callUser (.actor true) : P V Unit).Uses
          (repertoire V looseParts) := callUser_uses (repertoire_has.mono rfl)
      apply wp.seq (h.looses (requestAll_loose repertoire_has .kill) s hloose)
      intro _ s hs
      apply wp.seq (h.looses
        (dropUserValue_uses (repertoire_has.mono rfl) hactor) s hs)
      intro _ s hs
      exact h.looses (failUninitialized_uses repertoire_has) s hs

theorem run (h : Spine A D K C F G X E) (hs : K s) :
    wp D (ActorTask.run A) (fun _ => X) X s := by
  apply wp.seq (h.calms .start rfl s hs)
  intro _ s hs
  apply wp.seq (h.calms (.suspend .start) rfl s hs)
  intro _ s hs
  apply wp.bind
  apply wp.attempt
  apply wp.mono _ _ (h.runActor hs)
  · intro status s hs
    exact h.looses (publish_uses repertoire_has status) s hs
  · intro s hs
    apply wp.seq (h.marks .unwound s hs)
    intro _ s hs
    apply wp.seq (h.looses (repertoire_has.perform rfl) s hs)
    intro _ s hs
    exact h.looses (dropGuard_uses repertoire_has) s hs

theorem lifetime (h : Spine A D K C F G X E) (hs : K s) :
    wp D (lifetime A) (fun _ => X) X s := by
  unfold Loac.lifetime
  by_cases hparent : A.parent = true
  · rw [if_pos hparent]
    exact h.run hs
  · rw [if_neg hparent]
    apply wp.seq (h.calms .spawn rfl s hs)
    intro started s hs
    cases started with
    | true => exact h.run hs
    | false =>
        exact h.looses (dropSpawner_uses repertoire_has) s (h.falls s hs)

/-- An actor stays within the discipline for its whole life. -/
theorem safe (h : Spine A D K C F G X E) (hlawful : D.Lawful)
    (hcancel : forall {α : Type} (op : Op V α) (input : Input V),
      M.cancel op input = cancel A op input)
    (hdropped : forall s, D.inv s -> X s) (hinv : D.inv s) (hs : K s)
    {c : Config (Op V) σ Unit}
    (hreach : Machine.Reaches M D.Permits ⟨s, Loac.lifetime A⟩ c) :
    Safe D (fun _ => X) X c := by
  refine Safe.run hlawful ?_ ⟨hinv, s, .refl, h.lifetime hs⟩ hreach
  intro α op input p s hp hinv _ _
  rw [hcancel] at hp
  unfold cancel at hp
  split at hp
  · cases hp
    exact h.looses (dropTask_uses repertoire_has _) s (hdropped s hinv)
  · cases hp

end Spine

end Loac

import Loac.Capacity.Dispatch
import Loac.Retirement.Guarded

/-!
# Frames that own a guarded future

When the executor drops a task that waits for guarded work, the future is
dropped with the frame.  What the frame drops after it is other user code.
-/

namespace Loac

open Interleave Interleave.Prog

variable {V α ρ : Type} {A : ActorConfig} {site : Site} {poll drop : UserSite}
  {parks : Site -> World V × Log V -> Prop}
  {start : List (UserSite × UserStep V)} {stage : Stage} {s : World V × Log V}

/-- How far the future has come since some log, whatever else has run. -/
def Stands (start : List (UserSite × UserStep V)) (poll drop : UserSite)
    (stage : Stage) (s : World V × Log V) : Prop :=
  exists new, s.2.steps = new ++ start ∧
    stageOf poll drop new = some stage

theorem Progress.stands {R : List (UserSite × UserStep V) -> Prop}
    {H : World V × Log V -> Prop} (h : Progress start poll drop stage R H s) :
    Stands start poll drop stage s := by
  rcases h.left with ⟨new, hsteps, hstage, _, _⟩
  exact ⟨new, hsteps, hstage⟩

def foreign (V : Type) (poll drop : UserSite) : Vocabulary (Op V) where
  uses := fun op =>
    match op with
    | .user site => site ≠ poll ∧ site ≠ drop
    | .suspend _ => False
    | _ => True
  gives := fun _ _ => True

theorem stands_stable :
    (watching V A ρ parks).Stable (Stands start poll drop stage) := by
  intro e s s' _ _ henv hs
  rcases watching_env henv with ⟨_, hlog⟩
  unfold Stands
  rw [hlog]
  exact hs

theorem foreign_keeps :
    (foreign V poll drop).Keeps (watching V A ρ parks)
      (Stands start poll drop stage) where
  stable := stands_stable
  op := by
    intro β op hop s _ hs
    have hdemands : WatchDemands parks op s := by
      cases op with
      | suspend site => exact hop.elim
      | _ => trivial
    refine ⟨hdemands, ?_⟩
    intro input s' b _ hexec _
    rcases watching_exec hexec with ⟨_, hlog⟩
    refine ⟨?_, trivial⟩
    rcases hs with ⟨new, hsteps, hstage⟩
    cases op with
    | user code =>
        refine ⟨(code, b) :: new, ?_, ?_⟩
        · rw [hlog]
          exact congrArg ((code, b) :: ·) hsteps
        · rw [stageOf, hstage]
          show stage.after poll drop code b = some stage
          unfold Stage.after
          rw [if_neg hop.left, if_neg hop.right]
    | _ =>
        refine ⟨new, ?_, hstage⟩
        rw [hlog, record_steps rfl]
        exact hsteps

theorem foreign_has {site : Site} (h : Guarded site poll drop) :
    Has (foreign V poll drop) ownedParts := by
  intro α op hop
  cases op with
  | user code =>
      cases h <;> cases code <;> first
        | (cases hop; done)
        | (constructor <;> (intro heq; cases heq))
  | suspend site => cases site <;> cases hop
  | _ => trivial

theorem foreign_initialized (h : Guarded site poll drop) :
    (dropInitialized : P V Unit).Uses (foreign V poll drop) := by
  apply dropInitialized_within (foreign_has h)
  have hactor : UserSite.actor false ≠ poll ∧ UserSite.actor false ≠ drop := by
    cases h <;> (constructor <;> (intro heq; cases heq))
  refine Within.seq (Within.repeated fun _ => ?_) (fun _ => trivial)
  refine Within.seq (Within.perform hactor (fun _ _ => trivial)) fun step => ?_
  cases step with
  | continues => trivial
  | returns value => trivial
  | panics => trivial

/-- The drop of the frame retires the future before anything else. -/
theorem dropFrame_eq (h : Guarded site poll drop) :
    exists rest : P V Unit, rest.Uses (foreign V poll drop) ∧
      ActorTask.dropFrame site = (do
        let _ ← ActorWorkGuard.dropFuturePanicked (callUser drop)
        rest) := by
  cases h with
  | init =>
      exact ⟨dropUninitialized, dropUninitialized_uses (foreign_has .init), rfl⟩
  | hook child =>
      exact ⟨dropInitialized, foreign_initialized (.hook child), rfl⟩
  | stop reason =>
      exact ⟨dropInitialized, foreign_initialized (.stop reason), rfl⟩

/-- A frame that unwinds while it is dropped is contained. -/
theorem dropUserValue_stands {frame : P V Unit} {X : World V × Log V -> Prop}
    (hframe : wp (watching V A ρ parks) frame
      (fun _ => Stands start poll drop stage)
      (Stands start poll drop stage) s) :
    wp (watching V A ρ parks) (dropUserValue frame)
      (fun _ => Stands start poll drop stage) X s := by
  apply wp.bind
  apply wp.attempt
  apply wp.mono _ _ hframe
  · intro _ s hs
    exact wp.pure hs
  · intro s hs
    exact foreign_keeps.perform (.transact .beginFailure) (by trivial) s hs

theorem dropTask_retires (h : Guarded site poll drop)
    {X : World V × Log V -> Prop} (hs : Pending start poll drop s) :
    wp (watching V A ρ parks) (ActorTask.drop A site)
      (fun _ => Stands start poll drop .dropped) X s := by
  have hop : forall {α : Type} (op : Op V α), (foreign V poll drop).uses op ->
      Keeps (watching V A ρ parks) (Stands start poll drop .dropped) X
        (perform op) :=
    fun op hop => foreign_keeps.perform op hop
  apply wp.seq (progress_op abiding_true (.transact .beginAbort) rfl
    (by intro _ _; trivial) s hs)
  intro _ s hs
  apply wp.seq (progress_op abiding_true .dropNotified rfl
    (by intro _ _; trivial) s hs)
  intro _ s hs
  have hframe : wp (watching V A ρ parks) (ActorTask.dropFrame site)
      (fun _ => Stands start poll drop .dropped)
      (Stands start poll drop .dropped) s := by
    rcases dropFrame_eq (V := V) h with ⟨rest, hrest, hframe⟩
    rw [hframe]
    apply wp.seq (dropFuture_retires (R := fun _ => True) abiding_true
      h.distinct (fun _ _ _ => trivial) (by decide)
      (hs.mono (fun _ hclean => ⟨trivial, hclean⟩) (fun _ h => h)))
    intro panicked s hs
    exact hrest.keeps foreign_keeps s hs.dropped.stands
  apply wp.seq (dropUserValue_stands hframe)
  intro _ s hs
  apply wp.seq (hop (.transact .beginAbort) trivial s hs)
  intro _ s hs
  apply wp.seq (hop (.transact (.finish (.new .aborted .unconfirmed)))
    (by trivial) s hs)
  intro status s hs
  exact Keeps.onlyIf (hop (.publish status) trivial) s hs

/-!
## Guarded work
-/

theorem retired_stable {γ : Type} {pass : V -> γ} (work : Work γ) :
    (watching V A ρ parks).Stable (Retired start poll drop pass work) := by
  cases work with
  | complete c => exact progress_stable abiding_true
  | killed => exact progress_stable abiding_observed
  | panicked => exact progress_stable abiding_hard
  | dropPanicked c => exact progress_stable abiding_hard

abbrev guardedWork {γ : Type} (site : Site) (poll drop : UserSite)
    (pass : V -> γ) : P V (Work γ) :=
  awaitActorWork site () (fun _ => pollWith pass poll) (callUser drop)

theorem pending_start (w : World V) (log : Log V) :
    Pending log.steps poll drop (w, log) := by
  refine ⟨⟨[], rfl, rfl, ?_, ?_⟩, trivial⟩
  · intro entry hmem
    cases hmem
  · intro hmem
    cases hmem

theorem guardedWork_safe {γ : Type} (h : Guarded site poll drop)
    (pass : V -> γ) {w : World V} {log : Log V}
    {c : Config (Op V) (World V × Log V) (Work γ)}
    (hmeets : (logged V A).Meets (guardedWork site poll drop pass) (w, log) c) :
    Safe (watching V A (Work γ) (fun site' s => site' = site ∧
        Pending log.steps poll drop s))
      (Retired log.steps poll drop pass) (fun _ => False) c := by
  apply Machine.Meets.safe watching_lawful (fun _ _ _ => trivial)
    (fun _ _ => trivial) trivial _ hmeets
  exact awaitActorWork_retires h.distinct (fun _ hs => ⟨rfl, hs⟩)
    (pending_start w log)

/--
A wait for guarded work that returns has dropped the future once and did not
poll it after it finished, and its result tells how the future ended.  It never
unwinds, and wherever it is suspended the future is neither finished nor
dropped.  The task that is dropped there drops the future once as well, and
does not unwind.
-/
theorem guarded_work_retired (A : ActorConfig) {γ : Type} (pass : V -> γ)
    (h : Guarded site poll drop) :
    (forall (w w' : World V) (log log' : Log V) (work : Work γ),
      (logged V A).Returns (guardedWork site poll drop pass) (w, log)
        (w', log') work ->
        Retired log.steps poll drop pass work (w', log')) ∧
    (forall (w w' : World V) (log log' : Log V),
      ¬ (logged V A).Unwinds (guardedWork site poll drop pass) (w, log)
        (w', log')) ∧
    (forall (w : World V) (log : Log V)
      (c : Config (Op V) (World V × Log V) (Work γ)) site' next,
      (logged V A).Meets (guardedWork site poll drop pass) (w, log) c ->
        c.prog = .act (.suspend site') next ->
          site' = site ∧ Pending log.steps poll drop c.state) ∧
    (forall start (w : World V) (log : Log V),
      Pending start poll drop (w, log) ->
        (forall w' log', (logged V A).Returns (ActorTask.drop A site) (w, log)
          (w', log') () -> Stands start poll drop .dropped (w', log')) ∧
        (forall w' log', ¬ (logged V A).Unwinds (ActorTask.drop A site)
          (w, log) (w', log'))) := by
  refine ⟨?_, ?_, ?_, ?_⟩
  · intro w w' log log' work hreturns
    exact (guardedWork_safe h pass hreturns).returned (retired_stable work)
  · intro w w' log log' hunwinds
    apply (guardedWork_safe h pass hunwinds).unwound
    intro _ _ _ _ _ _ hfalse
    exact hfalse
  · intro w log c site' next hmeets hprog
    have hsafe := guardedWork_safe h pass hmeets
    rcases c with ⟨s, prog⟩
    subst hprog
    exact hsafe.demands
  · intro start w log hpending
    have hsafe : forall {c : Config (Op V) (World V × Log V) Unit},
        (logged V A).Meets (ActorTask.drop A site) (w, log) c ->
        Safe (watching V A Unit (fun _ _ => True))
          (fun _ => Stands start poll drop .dropped) (fun _ => False) c :=
      fun hmeets => Machine.Meets.safe watching_lawful (fun _ _ _ => trivial)
        (fun _ _ => trivial) trivial (dropTask_retires h hpending) hmeets
    constructor
    · intro w' log' hreturns
      exact Safe.returned (Q := fun _ => Stands start poll drop .dropped)
        stands_stable (hsafe hreturns)
    · intro w' log' hunwinds
      apply (hsafe hunwinds).unwound
      intro _ _ _ _ _ _ hfalse
      exact hfalse

def droppedInit : Config (Op Unit) (World Unit × Log Unit) (Work Unit) :=
  ((logged Unit paired).solo (Work Unit)).stage .next 20
    [.actor (.user (.returns none)), .env .wakeTask,
      .actor (.user (.returns (some ()))), .actor (.user .panics)] 20
    ⟨(World.new Unit, { steps := [], hard := false }),
      guardedWork .init .initPoll .initDrop id⟩

theorem droppedInit_retired :
    droppedInit.state.2.steps.length = 3 ∧
      exists work, Retired [] .initPoll .initDrop id work
        (droppedInit.state.1, droppedInit.state.2) := by
  refine ⟨by decide +kernel, ?_⟩
  have hmeets : (logged Unit paired).Meets
      (guardedWork .init .initPoll .initDrop id)
      (World.new Unit, { steps := [], hard := false }) droppedInit :=
    Machine.stage_reaches (fun _ => trivial) (fun _ _ _ => trivial) _ _ _
  rcases hmeets.returned (by decide +kernel) with ⟨work, hreturns⟩
  exact ⟨work, (guarded_work_retired paired id .init).left _ _ _ _ _ hreturns⟩

end Loac

import Loac.Retirement.Log

/-!
# Guarded lifecycle work

A guarded future is polled until it finishes or the wait for it is given up.
In both cases it is dropped once, inside a boundary of its own, and nothing of
it unwinds.
-/

namespace Loac

open Interleave Interleave.Prog

variable {V α γ ρ : Type} {A : ActorConfig} {site : Site}
  {poll drop : UserSite}

def WatchDemands (parks : Site -> World V × Log V -> Prop) :
    {α : Type} -> Op V α -> World V × Log V -> Prop
  | _, .suspend site, s => parks site s
  | _, _, _ => True

/-- A program that runs on its own, with a log of its user code. -/
def watching (V : Type) (A : ActorConfig) (ρ : Type)
    (parks : Site -> World V × Log V -> Prop) :
    Discipline ((logged V A).solo ρ) where
  inv := fun _ => True
  admits := fun _ _ _ => True
  tolerates := fun _ _ => True
  demands := WatchDemands parks

theorem watching_lawful {parks : Site -> World V × Log V -> Prop} :
    (watching V A ρ parks).Lawful where
  actor := fun _ _ _ _ _ _ _ _ _ => trivial
  env := fun _ _ _ _ _ _ => trivial

theorem watching_exec {op : Op V α} {input : Input V} {s s' : World V × Log V}
    {a : α} (h : ((logged V A).solo ρ).exec op input s = some (s', a)) :
    op.exec A input s.1 = some (s'.1, a) ∧ s'.2 = record op a s.2 := by
  exact @Machine.noting_exec _ _ _ _ _ _ (machine V A) (fun op _ => record op)
    _ _ _ _ _ _ h

theorem watching_env {e : EnvAct} {s s' : World V × Log V}
    (h : ((logged V A).solo ρ).env e s = some s') :
    e.exec A s.1 = some s'.1 ∧ s'.2 = s.2 := by
  have henv : (logged V A).env e s = some s' := h
  exact Machine.noting_env henv

structure Abiding (A : ActorConfig) (H : World V × Log V -> Prop) : Prop where
  env : forall (e : EnvAct) (s s' : World V × Log V),
    e.exec A s.1 = some s'.1 -> s'.2 = s.2 -> H s -> H s'
  op : forall {α : Type} (op : Op V α) (input : Input V)
    (s s' : World V × Log V) (a : α),
    op.exec A input s.1 = some (s'.1, a) -> s'.2 = record op a s.2 -> H s -> H s'

theorem abiding_true : Abiding (V := V) A (fun _ => True) where
  env := fun _ _ _ _ _ _ => trivial
  op := fun _ _ _ _ _ _ _ _ => trivial

theorem abiding_hard : Abiding (V := V) A (fun s => Hard s.1) where
  env := fun _ _ _ henv _ hs => (EnvAct.control_moves henv).isHard hs
  op := fun _ _ _ _ _ hexec _ hs => (Op.control_moves hexec).isHard hs

theorem record_hard (op : Op V α) (a : α) {log : Log V}
    (h : log.hard = true) : (record op a log).hard = true := by
  cases op with
  | mode =>
      show (log.hard || a.isHard) = true
      rw [h, Bool.true_or]
  | _ => exact h

def Observed (s : World V × Log V) : Prop :=
  s.2.hard = true ∧ Hard s.1

theorem abiding_observed : Abiding (V := V) A Observed where
  env := by
    intro e s s' henv hlog hs
    refine ⟨?_, abiding_hard.env e s s' henv hlog hs.right⟩
    rw [hlog]
    exact hs.left
  op := by
    intro α op input s s' a hexec hlog hs
    refine ⟨?_, abiding_hard.op op input s s' a hexec hlog hs.right⟩
    rw [hlog]
    exact record_hard op a hs.left

/-- The steps of user code since some log, and what is known beside them. -/
def Progress (start : List (UserSite × UserStep V)) (poll drop : UserSite)
    (stage : Stage) (R : List (UserSite × UserStep V) -> Prop)
    (H : World V × Log V -> Prop) (s : World V × Log V) : Prop :=
  (exists new, s.2.steps = new ++ start ∧
    stageOf poll drop new = some stage ∧
    (forall entry, entry ∈ new -> entry.1 = poll ∨ entry.1 = drop) ∧
    R new) ∧ H s

variable {parks : Site -> World V × Log V -> Prop}
  {start : List (UserSite × UserStep V)} {stage : Stage}
  {R : List (UserSite × UserStep V) -> Prop} {H : World V × Log V -> Prop}
  {s : World V × Log V}

theorem progress_stable (hH : Abiding A H) :
    (watching V A ρ parks).Stable (Progress start poll drop stage R H) := by
  intro e s s' _ _ henv hs
  rcases watching_env henv with ⟨henv, hlog⟩
  refine ⟨?_, hH.env e s s' henv hlog hs.right⟩
  rw [hlog]
  exact hs.left

theorem record_steps {op : Op V α} (hop : op.isUser = false) (a : α)
    (log : Log V) : (record op a log).steps = log.steps := by
  cases op with
  | user site => cases hop
  | _ => rfl

theorem progress_op (hH : Abiding A H) (op : Op V α)
    (hop : op.isUser = false)
    (hdemands : forall s, Progress start poll drop stage R H s ->
      WatchDemands parks op s) {X : World V × Log V -> Prop} :
    Keeps (watching V A ρ parks) (Progress start poll drop stage R H) X
      (perform op) := by
  intro s hs
  apply wp.op (progress_stable hH) hs
  intro s _ hs
  refine ⟨hdemands s hs, ?_⟩
  intro input s' a _ hexec _
  rcases watching_exec hexec with ⟨hexec, hlog⟩
  refine ⟨?_, hH.op op input s s' a hexec hlog hs.right⟩
  rw [hlog, record_steps hop]
  exact hs.left

theorem progress_user (hH : Abiding A H) (code : UserSite)
    (next : UserStep V -> Stage)
    (R' : UserStep V -> List (UserSite × UserStep V) -> Prop)
    (hcode : code = poll ∨ code = drop)
    (hstage : forall step,
      stage.after poll drop code step = some (next step))
    (hR : forall step new, R new -> R' step ((code, step) :: new))
    {X : World V × Log V -> Prop}
    (hs : Progress start poll drop stage R H s) :
    wp (watching V A ρ parks) (perform (.user code))
      (fun step => Progress start poll drop (next step) (R' step) H) X s := by
  apply wp.op (progress_stable hH) hs
  intro s _ hs
  refine ⟨trivial, ?_⟩
  intro input s' step _ hexec _
  rcases watching_exec hexec with ⟨hexec, hlog⟩
  refine ⟨?_, hH.op _ input s s' step hexec hlog hs.right⟩
  rcases hs.left with ⟨new, hsteps, hnew, hwithin, hfacts⟩
  refine ⟨(code, step) :: new, ?_, ?_, ?_, hR step new hfacts⟩
  · rw [hlog]
    exact congrArg ((code, step) :: ·) hsteps
  · rw [stageOf, hnew]
    exact hstage step
  · intro entry hmem
    cases List.mem_cons.mp hmem with
    | inl heq =>
        rw [heq]
        exact hcode
    | inr hold => exact hwithin entry hold

/-!
## Polls
-/

def DropHeld (drop : UserSite) (new : List (UserSite × UserStep V)) : Prop :=
  (drop, .panics) ∉ new

def Yielded (poll drop : UserSite) (value : V)
    (new : List (UserSite × UserStep V)) : Prop :=
  (poll, .returns (some value)) ∈ new ∧ DropHeld drop new

def Failed (poll drop : UserSite) (new : List (UserSite × UserStep V)) : Prop :=
  (poll, .panics) ∈ new ∧ DropHeld drop new

/-- Where a future is that has been polled once more. -/
def Polls (start : List (UserSite × UserStep V)) (poll drop : UserSite) :
    Option V -> World V × Log V -> Prop
  | none => Progress start poll drop .polling (DropHeld drop) (fun _ => True)
  | some value =>
      Progress start poll drop .finished (Yielded poll drop value)
        (fun _ => True)

def Stage.polled : UserStep V -> Stage
  | .continues => .polling
  | .returns none => .polling
  | .returns (some _) => .finished
  | .panics => .finished

theorem after_poll (step : UserStep V) :
    Stage.polling.after poll drop poll step = some (Stage.polled step) := by
  unfold Stage.after
  rw [if_pos rfl]
  cases step with
  | continues => rfl
  | returns value => cases value <;> rfl
  | panics => rfl

theorem DropHeld.cons {new : List (UserSite × UserStep V)} (h : DropHeld drop new)
    {entry : UserSite × UserStep V} (hentry : entry ≠ (drop, .panics)) :
    DropHeld drop (entry :: new) := by
  intro hmem
  cases List.mem_cons.mp hmem with
  | inl heq => exact hentry heq.symm
  | inr hold => exact h hold

theorem Progress.mono {R' : List (UserSite × UserStep V) -> Prop}
    {H' : World V × Log V -> Prop} (hR : forall new, R new -> R' new)
    (hH : forall s, H s -> H' s)
    (h : Progress start poll drop stage R H s) :
    Progress start poll drop stage R' H' s := by
  rcases h with ⟨⟨new, hsteps, hstage, hwithin, hfacts⟩, hs⟩
  exact ⟨⟨new, hsteps, hstage, hwithin, hR new hfacts⟩, hH s hs⟩

theorem runUser_polls (hdistinct : drop ≠ poll)
    (hs : Progress start poll drop .polling (DropHeld drop) (fun _ => True) s) :
    wp (watching V A ρ parks) (runUser poll)
      (Polls start poll drop)
      (Progress start poll drop .finished (Failed poll drop) (fun _ => True))
      s := by
  apply wp.rounds (fun _ =>
    Progress start poll drop .polling (DropHeld drop) (fun _ => True)) hs
  intro _ s hs
  have hfacts : forall (step : UserStep V) new, DropHeld drop new ->
      (poll, step) ∈ (poll, step) :: new ∧
        DropHeld drop ((poll, step) :: new) := by
    intro step new hclean
    refine ⟨List.mem_cons_self .., hclean.cons ?_⟩
    intro heq
    injection heq with hsite _
    exact hdistinct hsite.symm
  apply wp.seq (progress_user abiding_true poll Stage.polled
    (fun step new => (poll, step) ∈ new ∧ DropHeld drop new) (Or.inl rfl)
    after_poll hfacts hs)
  intro step s hs
  cases step with
  | continues => exact wp.again (hs.mono (fun _ h => h.right) (fun _ h => h))
  | returns value =>
      cases value with
      | none => exact wp.done (hs.mono (fun _ h => h.right) (fun _ h => h))
      | some value => exact wp.done hs
  | panics => exact wp.throw hs

/-!
## Drops
-/

def Stage.dropStep : UserStep V -> Stage
  | .continues => .dropping
  | _ => .dropped

theorem after_drop (hdistinct : drop ≠ poll) (hstage : stage ≠ .dropped)
    (step : UserStep V) :
    stage.after poll drop drop step = some (Stage.dropStep step) := by
  unfold Stage.after
  rw [if_neg hdistinct, if_pos rfl]
  cases stage with
  | dropped => exact absurd rfl hstage
  | _ => cases step <;> rfl

theorem runUser_drops (hH : Abiding A H) (hdistinct : drop ≠ poll)
    (hR : forall entry new, R new -> R (entry :: new))
    (hstage : stage ≠ .dropped)
    (hs : Progress start poll drop stage (fun new => R new ∧ DropHeld drop new)
      H s) :
    wp (watching V A ρ parks) (callUser drop)
      (fun _ => Progress start poll drop .dropped
        (fun new => R new ∧ DropHeld drop new) H)
      (Progress start poll drop .dropped
        (fun new => R new ∧ (drop, .panics) ∈ new) H) s := by
  have hrun : wp (watching V A ρ parks) (runUser drop)
      (fun _ => Progress start poll drop .dropped
        (fun new => R new ∧ DropHeld drop new) H)
      (Progress start poll drop .dropped
        (fun new => R new ∧ (drop, .panics) ∈ new) H) s := by
    apply wp.rounds (fun _ s => exists stage, stage ≠ .dropped ∧
      Progress start poll drop stage (fun new => R new ∧ DropHeld drop new) H s)
      ⟨stage, hstage, hs⟩
    intro _ s hs
    rcases hs with ⟨stage, hstage, hs⟩
    have hfacts : forall (step : UserStep V) new, R new ∧ DropHeld drop new ->
        R ((drop, step) :: new) ∧
          (step ≠ .panics -> DropHeld drop ((drop, step) :: new)) ∧
          (drop, step) ∈ (drop, step) :: new := by
      intro step new hfacts
      refine ⟨hR _ _ hfacts.left, ?_, List.mem_cons_self ..⟩
      intro hstep
      apply hfacts.right.cons
      intro heq
      injection heq with _ hpanics
      exact hstep hpanics
    apply wp.seq (progress_user hH drop Stage.dropStep
      (fun step new => R new ∧ (step ≠ .panics -> DropHeld drop new) ∧
        (drop, step) ∈ new) (Or.inr rfl) (after_drop hdistinct hstage) hfacts
      hs)
    intro step s hs
    cases step with
    | continues =>
        refine wp.again ⟨.dropping, by decide, hs.mono ?_ (fun _ h => h)⟩
        exact fun _ h => ⟨h.left, h.right.left (by intro heq; cases heq)⟩
    | returns value =>
        refine wp.done (hs.mono ?_ (fun _ h => h))
        exact fun _ h => ⟨h.left, h.right.left (by intro heq; cases heq)⟩
    | panics =>
        exact wp.throw (hs.mono (fun _ h => ⟨h.left, h.right.right⟩)
          (fun _ h => h))
  apply wp.seq hrun
  intro _ s hs
  exact wp.pure hs

theorem containPanic_hard (hH : Abiding A H) {X : World V × Log V -> Prop}
    (hs : Progress start poll drop stage R H s) :
    wp (watching V A ρ parks) (containPanic : P V Unit)
      (fun _ => Progress start poll drop stage R
        (fun s => H s ∧ Hard s.1)) X s := by
  apply wp.op (progress_stable hH) hs
  intro s _ hs
  refine ⟨trivial, ?_⟩
  intro input s' a _ hexec _
  rcases watching_exec hexec with ⟨hexec, hlog⟩
  refine ⟨?_, hH.op _ input s s' a hexec hlog hs.right,
    hard_beginFailure hexec⟩
  rw [hlog]
  exact hs.left

/-- A future whose drop panicked, or did not. -/
def Drops (start : List (UserSite × UserStep V)) (poll drop : UserSite)
    (R : List (UserSite × UserStep V) -> Prop) (H : World V × Log V -> Prop) :
    Bool -> World V × Log V -> Prop
  | true => Progress start poll drop .dropped
      (fun new => R new ∧ (drop, .panics) ∈ new) (fun s => H s ∧ Hard s.1)
  | false => Progress start poll drop .dropped
      (fun new => R new ∧ DropHeld drop new) H

theorem Drops.dropped {panicked : Bool}
    (h : Drops start poll drop R H panicked s) :
    Progress start poll drop .dropped R H s := by
  cases panicked with
  | true =>
      have h : Progress start poll drop .dropped
        (fun new => R new ∧ (drop, .panics) ∈ new)
        (fun s => H s ∧ Hard s.1) s := h
      exact h.mono (fun _ hR => hR.left) (fun _ hH => hH.left)
  | false =>
      have h : Progress start poll drop .dropped
        (fun new => R new ∧ DropHeld drop new) H s := h
      exact h.mono (fun _ hR => hR.left) (fun _ hH => hH)

theorem dropFuture_retires (hH : Abiding A H) (hdistinct : drop ≠ poll)
    (hR : forall entry new, R new -> R (entry :: new))
    (hstage : stage ≠ .dropped) {X : World V × Log V -> Prop}
    (hs : Progress start poll drop stage (fun new => R new ∧ DropHeld drop new)
      H s) :
    wp (watching V A ρ parks) (ActorWorkGuard.dropFuturePanicked (callUser drop))
      (Drops start poll drop R H) X s := by
  apply wp.bind
  apply wp.attempt
  apply wp.mono _ _ (runUser_drops hH hdistinct hR hstage hs)
  · intro _ s hs
    exact wp.pure hs
  · intro s hs
    apply wp.seq (containPanic_hard hH hs)
    intro _ s hs
    exact wp.pure hs

/-!
## The wait
-/

def Passed (poll : UserSite) (pass : V -> γ) (c : γ)
    (new : List (UserSite × UserStep V)) : Prop :=
  exists value, pass value = c ∧ (poll, .returns (some value)) ∈ new

theorem Passed.cons {pass : V -> γ} {c : γ} (entry : UserSite × UserStep V)
    (new : List (UserSite × UserStep V)) (h : Passed poll pass c new) :
    Passed poll pass c (entry :: new) := by
  rcases h with ⟨value, hvalue, hmem⟩
  exact ⟨value, hvalue, List.mem_cons_of_mem _ hmem⟩

/-- What the results of the wait tell of the future, which is dropped. -/
def Retired (start : List (UserSite × UserStep V)) (poll drop : UserSite)
    (pass : V -> γ) : Work γ -> World V × Log V -> Prop
  | .complete c => Progress start poll drop .dropped
      (fun new => Passed poll pass c new ∧ DropHeld drop new) (fun _ => True)
  | .dropPanicked c => Progress start poll drop .dropped
      (fun new => Passed poll pass c new ∧ (drop, .panics) ∈ new)
      (fun s => Hard s.1)
  | .panicked => Progress start poll drop .dropped
      (fun new => (poll, .panics) ∈ new) (fun s => Hard s.1)
  | .killed => Progress start poll drop .dropped (fun _ => True) Observed

abbrev Pending (start : List (UserSite × UserStep V)) (poll drop : UserSite) :
    World V × Log V -> Prop :=
  Progress start poll drop .polling (DropHeld drop) (fun _ => True)

abbrev Rounds (start : List (UserSite × UserStep V)) (poll drop : UserSite)
    (pass : V -> γ) : Unit ⊕ Work γ -> World V × Log V -> Prop :=
  Splits (fun _ => Pending start poll drop) (Retired start poll drop pass)

theorem guard_polls {pass : V -> γ} (hdistinct : drop ≠ poll)
    {X : World V × Log V -> Prop} (hs : Pending start poll drop s) :
    wp (watching V A ρ parks)
      (ActorWorkGuard.poll (fun _ => pollWith pass poll) (callUser drop) ())
      (Rounds start poll drop pass) X s := by
  have hpoll : wp (watching V A ρ parks) (pollWith pass poll)
      (Splits (fun _ => Pending start poll drop)
        (fun c => Progress start poll drop .finished
          (fun new => Passed poll pass c new ∧ DropHeld drop new)
          (fun _ => True)))
      (Progress start poll drop .finished (Failed poll drop) (fun _ => True))
      s := by
    apply wp.seq (runUser_polls hdistinct hs)
    intro value s hs
    cases value with
    | none => exact wp.pure hs
    | some value =>
        have hs : Progress start poll drop .finished (Yielded poll drop value)
          (fun _ => True) s := hs
        exact wp.pure (hs.mono
          (fun _ h => ⟨⟨value, rfl, h.left⟩, h.right⟩) (fun _ h => h))
  apply wp.bind
  apply wp.attempt
  apply wp.mono _ _ hpoll
  · intro r s hs
    cases r with
    | inl _ => exact wp.pure hs
    | inr c =>
        apply wp.seq (dropFuture_retires abiding_true hdistinct Passed.cons
          (by decide) hs)
        intro panicked s hs
        cases panicked with
        | true =>
            have hs : Progress start poll drop .dropped
              (fun new => Passed poll pass c new ∧ (drop, .panics) ∈ new)
              (fun s => True ∧ Hard s.1) s := hs
            have hretired : Progress start poll drop .dropped
              (fun new => Passed poll pass c new ∧ (drop, .panics) ∈ new)
              (fun s => Hard s.1) s :=
              hs.mono (fun _ h => h) (fun _ h => h.right)
            exact wp.pure hretired
        | false => exact wp.pure hs
  · intro s hs
    apply wp.seq (containPanic_hard abiding_true hs)
    intro _ s hs
    have hs : Progress start poll drop .finished
      (fun new => (poll, .panics) ∈ new ∧ DropHeld drop new)
      (fun s => Hard s.1) s := hs.mono (fun _ h => h) (fun _ h => h.right)
    have hfinished : Stage.finished ≠ .dropped := by decide
    have hgrows : forall (entry : UserSite × UserStep V) new,
        (poll, UserStep.panics) ∈ new -> (poll, UserStep.panics) ∈ entry :: new :=
      fun _ _ h => List.mem_cons_of_mem _ h
    apply wp.seq (dropFuture_retires abiding_hard hdistinct hgrows hfinished hs)
    intro panicked s hs
    exact wp.pure hs.dropped

/-- What is known of the future whatever a round came to. -/
theorem rounds_op {pass : V -> γ} (op : Op V α) (hop : op.isUser = false)
    (hdemands : forall s, WatchDemands parks op s)
    (r : Unit ⊕ Work γ) {X : World V × Log V -> Prop}
    (hs : Rounds start poll drop pass r s) :
    wp (watching V A ρ parks) (perform op)
      (fun _ => Rounds start poll drop pass r) X s := by
  have hdemands : forall {stage R H} s,
      Progress (V := V) start poll drop stage R H s ->
        WatchDemands parks op s := fun s _ => hdemands s
  cases r with
  | inl _ => exact progress_op abiding_true op hop hdemands s hs
  | inr work =>
      cases work with
      | complete c => exact progress_op abiding_true op hop hdemands s hs
      | dropPanicked c => exact progress_op abiding_hard op hop hdemands s hs
      | panicked => exact progress_op abiding_hard op hop hdemands s hs
      | killed => exact progress_op abiding_observed op hop hdemands s hs

theorem select_rounds {pass : V -> γ} (hdistinct : drop ≠ poll)
    (hparks : forall s, Pending start poll drop s -> parks site s)
    {X : World V × Log V -> Prop} (hs : Pending start poll drop s) :
    wp (watching V A ρ parks)
      (select site ()
        (ActorWorkGuard.poll (fun _ => pollWith pass poll) (callUser drop)))
      (Rounds start poll drop pass) X s := by
  apply wp.onExit
  apply wp.rounds (fun _ => Pending start poll drop) hs
  intro _ s hs
  apply wp.seq (progress_op abiding_true .pollNotified rfl
    (by intro _ _; trivial) s hs)
  intro notified s hs
  cases notified with
  | true =>
      apply wp.done
      exact rounds_op .dropNotified rfl (by intro _; trivial) (.inl ()) hs
  | false =>
      apply wp.seq (guard_polls hdistinct hs)
      intro r s hs
      cases r with
      | inl _ =>
          apply wp.seq (progress_op abiding_true (.suspend site) rfl hparks s
            hs)
          intro _ s hs
          exact wp.again hs
      | inr work =>
          apply wp.done
          exact rounds_op .dropNotified rfl (by intro _; trivial)
            (.inr work) hs

theorem awaitActorWork_retires {pass : V -> γ} (hdistinct : drop ≠ poll)
    (hparks : forall s, Pending start poll drop s -> parks site s)
    {X : World V × Log V -> Prop} (hs : Pending start poll drop s) :
    wp (watching V A ρ parks)
      (awaitActorWork site () (fun _ => pollWith pass poll) (callUser drop))
      (Retired start poll drop pass) X s := by
  apply wp.rounds (fun _ => Pending start poll drop) hs
  intro _ s hs
  have hmode : wp (watching V A ρ parks) mode
      (fun mode => Progress start poll drop .polling (DropHeld drop)
        (fun s => mode.isHard = true -> Observed s)) X s := by
    apply wp.op (progress_stable abiding_true) hs
    intro s _ hs
    refine ⟨trivial, ?_⟩
    intro input s' mode _ hexec _
    rcases watching_exec hexec with ⟨hexec, hlog⟩
    rw [Op.exec] at hexec
    injection hexec with hexec
    injection hexec with hworld hmode
    refine ⟨?_, ?_⟩
    · rw [hlog]
      exact hs.left
    · intro hhard
      refine ⟨?_, ?_⟩
      · rw [hlog]
        show (s.2.hard || mode.isHard) = true
        rw [hhard, Bool.or_true]
      · unfold Hard
        rw [← hworld, hmode]
        exact hhard
  apply wp.seq hmode
  intro mode s hs
  by_cases hhard : mode.isHard = true
  · simp only [if_pos hhard]
    apply wp.seq (dropFuture_retires (R := fun _ => True) abiding_observed
      hdistinct (fun _ _ _ => trivial) (by decide)
      (hs.mono (fun _ h => ⟨trivial, h⟩) (fun _ h => h hhard)))
    intro panicked s hs
    exact wp.done hs.dropped
  · simp only [if_neg hhard]
    apply wp.seq (select_rounds hdistinct hparks
      (hs.mono (fun _ h => h) (fun _ _ => trivial)))
    intro r s hs
    cases r with
    | inl _ => exact wp.again hs
    | inr work => exact wp.done hs

end Loac

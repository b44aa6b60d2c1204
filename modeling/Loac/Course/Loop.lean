import Loac.Course.Shutdown

/-!
# The loops in order

A running actor leaves its loop through the shutdown hook, or for a hard end.
A drain goes on until the queue of its closed inbox is empty and no replies are
left.
-/

namespace Loac

open Interleave Interleave.Prog

variable {V α : Type} {A : ActorConfig} {w w' : World V}
  {Y : World V -> Prop}

/-!
## Drain
-/

/-- What a drain relies on, which may have found its inbox drained. -/
def Emptying (A : ActorConfig) (drained : Bool) (w : World V) : Prop :=
  Sane A w ∧ Past .draining w ∧ Shut w ∧ (drained = true -> Spent w)

theorem emptying_lasts {parts : List Part} (drained : Bool)
    (hsane : Lasts A parts (Sane (V := V) A)) :
    Lasts A parts (Emptying (V := V) A drained) := by
  have hspent : Lasts A parts
      (fun w : World V => drained = true -> Spent w) := by
    cases drained with
    | false => exact ⟨fun _ _ _ _ _ h => (by cases h),
        fun _ _ _ _ _ _ _ _ h => (by cases h)⟩
    | true =>
        have hspent : Lasts A parts (Spent (V := V)) := spent_lasts
        exact ⟨fun e w w' henv hw _ => hspent.env e w w' henv (hw rfl),
          fun op input w w' a hop hexec hw _ =>
            hspent.op op input w w' a hop hexec (hw rfl)⟩
  exact hsane.and ((past_lasts (by decide)).and (shut_lasts.and hspent))

theorem Emptying.drained {drained : Bool} (hw : Emptying A drained w)
    (hspent : Spent w) : Emptying A true w :=
  ⟨hw.left, hw.right.left, hw.right.right.left, fun _ => hspent⟩

theorem isEmpty_tells {drained : Bool} {J : World V -> Prop}
    (hJ : Lasts A [.looks] J)
    (hw : (At (.ending .drain) w ∧ Emptying A drained w) ∧ J w) :
    wp (courseDiscipline V A) ActorInbox.isEmpty
      (fun empty w =>
        (At (.ending .drain) w ∧ Emptying A (drained || empty) w) ∧ J w)
      Y w := by
  have hemptying : Lasts A [.looks] (Emptying (V := V) A drained) :=
    emptying_lasts drained (sane_lasts rfl (fun _ => rfl))
  have hstays : Lasts A [.looks] (fun w : World V =>
      (At (.ending .drain) w ∧ Emptying A drained w) ∧ J w) :=
    ((at_waits.mono rfl).and hemptying).and hJ
  apply wp.op hstays.stable hw
  intro w _ hw
  refine ⟨trivial, ?_⟩
  intro input w' empty _ hexec _
  have hexec' : (Op.mail .isEmpty).exec A input w = some (w', empty) := hexec
  have hw' := hstays.op _ input w w' empty rfl hexec' hw
  have hresult : w' = w ∧ w.mail.queue.isEmpty = empty := by
    cases hexec
    exact ⟨rfl, rfl⟩
  refine ⟨⟨hw'.left.left, ?_⟩, hw'.right⟩
  cases empty with
  | false =>
      rw [Bool.or_false]
      exact hw'.left.right
  | true =>
      rw [Bool.or_true]
      have hshut := hw'.left.right.right.right.left
      refine hw'.left.right.drained ⟨hshut, ?_⟩
      rw [hresult.left]
      exact List.isEmpty_iff.mp hresult.right

/-- A receiver that reports its closure has nothing left. -/
theorem receives_spent {K : World V -> Prop} : Receives A K Spent := by
  intro input w w' turn _ hexec
  rw [Op.exec] at hexec
  injection hexec with hexec
  injection hexec with hworld hclosed
  rcases Mail.pollRecv_closed hclosed with ⟨hmail, hqueue, hshut, _⟩
  rw [← hworld]
  show Mail.closed (Mail.pollRecv w.mail _ _).1 = true ∧
    Mail.queue (Mail.pollRecv w.mail _ _).1 = []
  rw [hmail]
  exact ⟨hshut, hqueue⟩

theorem drainTurn_tells (drained : Bool)
    (hw : At (.ending .drain) w ∧ Emptying A drained w)
    (hheeded : Heeded (fun mode => mode = .draining) w) :
    wp (courseDiscipline V A) (drainTurn A (!drained))
      (fun turn w => (At (.ending .drain) w ∧ Emptying A drained w) ∧
        match turn with
        | .repliesFinished => Depleted w
        | .scheduled turn => turn.Tells Spent w)
      (fun w => At (.ending .drain) w ∧ Emptying A drained w) w := by
  have hemptying : Lasts A waitParts (Emptying (V := V) A drained) :=
    emptying_lasts drained (sane_lasts rfl (fun _ => rfl))
  have hstays : Lasts A [.looks] (fun w : World V =>
      (At (.ending .drain) w ∧ Emptying A drained w) ∧
        Heeded (fun mode => mode = .draining) w) :=
    ((at_waits.and hemptying).mono rfl).and (heeded_lasts rfl)
  apply wp.seq (isIdle_tells hstays (fun _ hw => hw.left.right.left)
    ⟨hw, hheeded⟩)
  intro idle w hw
  cases hfinished : !(!drained) && idle with
  | true =>
      rw [Bool.not_not, Bool.and_eq_true] at hfinished
      simp only [hfinished.left, if_true]
      refine wp.pure ⟨?_, hw.right hfinished.right, ?_⟩
      · rw [← hfinished.left]
        exact hw.left.left
      · exact hw.left.left.right.right.right.right hfinished.left
  | false =>
      simp only [Bool.false_eq_true, if_false]
      have hlax : (Phase.ending .drain).lax = true := rfl
      have hturn := actorTurn_tells (A := A) (K := Emptying A drained)
        (C := Spent) hlax rfl
        (emptying_lasts drained sane_turns) hemptying spent_lasts
        receives_spent
        { receiveMessages := !drained, expectedMode := .draining }
        hw.left.left hw.left.right
      apply wp.seq hturn
      intro turn w hw
      exact wp.pure hw

def Drains (w : World V) : Option ExitStatus -> Prop
  | some status => Concludes status w
  | none => At (.ending .drain) w ∧ Depleted w

theorem ending_loose {shutdown : Shutdown} {K : World V -> Prop}
    (hw : At (.ending shutdown) w ∧ K w) : Loose w :=
  ⟨.ending shutdown, rfl, hw.left⟩

theorem drainRound_drains (drained : Bool)
    (hw : At (.ending .drain) w ∧ Emptying A drained w)
    (hheeded : Heeded (fun mode => mode = .draining) w) :
    wp (courseDiscipline V A) (drainRound A drained)
      (Sound.Splits
        (fun drained w => At (.ending .drain) w ∧ Emptying A drained w)
        (fun result w => Drains w result)) Loose w := by
  have hparts : Lasts A exitParts (Sane (V := V) A) :=
    sane_lasts rfl (fun _ => rfl)
  apply wp.seq (isEmpty_tells (heeded_lasts rfl) ⟨hw, hheeded⟩)
  intro empty w hw
  apply wp.bind
  apply wp.attempt
  apply wp.mono _ _ (drainTurn_tells (drained || empty) hw.left hw.right)
  · intro turn w hw
    cases turn with
    | repliesFinished => exact wp.done ⟨hw.left.left, hw.right⟩
    | scheduled turn =>
        cases turn with
        | lifecycleHint => exact wp.again hw.left
        | progress => exact wp.again hw.left
        | inboxClosed =>
            exact wp.again ⟨hw.left.left, hw.left.right.drained hw.right⟩
        | child event =>
            have hclosing : forall w : World V,
                Emptying A (drained || empty) w ->
                  w.control.mode ≠ .running := by
              intro w hw hrunning
              cases hw.right.left with
              | inl hmode =>
                  rw [hmode] at hrunning
                  cases hrunning
              | inr hhard =>
                  unfold Hard at hhard
                  rw [hrunning] at hhard
                  cases hhard
            apply wp.seq (handleChildExit_ending event
              (emptying_lasts _ hparts) hclosing hw.left)
            intro work w hw
            rcases hw with ⟨rfl, hw⟩
            exact wp.again hw
  · intro w hw
    apply wp.seq (containPanic_loose (ending_loose hw))
    intro _ w hw
    apply wp.seq (failActor_concludes hw)
    intro status w hw
    exact wp.done hw

theorem drainLoop_drains (drained : Bool)
    (hw : At (.ending .drain) w ∧ Emptying A drained w) :
    wp (courseDiscipline V A) (drainLoop A drained)
      (fun result w => Drains w result) Loose w := by
  apply wp.iter
    (fun drained w => At (.ending .drain) w ∧ Emptying A drained w) hw
  intro drained w hw
  have hstays : Lasts A waitParts (fun w : World V =>
      At (.ending .drain) w ∧ Emptying A drained w) :=
    at_waits.and (emptying_lasts drained (sane_lasts rfl (fun _ => rfl)))
  apply wp.seq (mode_waits hstays hw)
  intro mode w hw
  rcases hw with ⟨hw, hmode⟩
  have hpast := hw.right.right.left
  unfold Past Hard at hpast
  rw [hmode] at hpast
  cases mode with
  | killing =>
      apply wp.seq (killActor_concludes (ending_loose hw))
      intro status w hw
      exact wp.done hw
  | failing =>
      apply wp.seq (failActor_concludes (ending_loose hw))
      intro status w hw
      exact wp.done hw
  | aborting => exact absurd hmode hw.right.left.mode
  | exited status =>
      have hopen := hw.left.unexited
      rw [hmode] at hopen
      cases hopen
  | draining =>
      apply wp.mono _ (fun _ hX => hX)
        (drainRound_drains drained hw (Or.inl hmode))
      intro r w hw
      cases r with
      | inl _ => exact hw
      | inr _ => exact hw
  | running => simp [Mode.isHard] at hpast
  | stopping => simp [Mode.isHard] at hpast

theorem drainActor_concludes
    (hw : At (.ending .drain) w ∧ Sane A w ∧ Past .draining w) :
    wp (courseDiscipline V A) (drainActor A) Concludes Loose w := by
  have hsane : Lasts A [.closes] (Sane (V := V) A) :=
    sane_lasts rfl (fun _ => rfl)
  have hat : Lasts A [.closes] (At (V := V) (.ending .drain)) := at_lasts rfl
  apply wp.seq (close_shuts (hat.and (hsane.and (past_lasts (by decide)))) hw)
  intro _ w hw
  have hemptying : Emptying A false w :=
    ⟨hw.left.right.left, hw.left.right.right, hw.right, fun h => by cases h⟩
  apply wp.seq (isEmpty_tells (J := fun _ => True) Lasts.true
    ⟨⟨hw.left.left, hemptying⟩, trivial⟩)
  intro empty w hw
  apply wp.seq (drainLoop_drains empty hw.left)
  intro result w hw
  cases result with
  | some status => exact wp.pure hw
  | none =>
      apply wp.seq (gracefulFinish_completes .drain hw)
      intro work w hw
      exact terminate_concludes hw

/-!
## Running
-/

def Open (A : ActorConfig) (w : World V) : Prop :=
  Sane A w ∧ Unshut w

theorem open_lasts {parts : List Part} (hcloses : parts.contains .closes = false)
    (hsane : Lasts A parts (Sane (V := V) A)) :
    Lasts A parts (Open (V := V) A) :=
  hsane.and (unshut_lasts hcloses)

/-- The receiver of an open inbox does not report its closure. -/
theorem receives_never :
    Receives A (Open (V := V) A) (fun _ => False) := by
  intro input w w' turn hw hexec
  have hspent := receives_spent (K := Open A) input w w' turn hw hexec
  have hunshut : Unshut w' := by
    have hlasts : Lasts A [.receives] (Unshut (V := V)) := unshut_lasts rfl
    exact hlasts.op _ input w w' _ rfl hexec hw.right
  unfold Unshut at hunshut
  rw [hspent.left] at hunshut
  cases hunshut

theorem shutdown_runs {shutdown : Shutdown} (hgraceful : shutdown ≠ .kill) :
    Phase.Runs (.onShutdown shutdown) [.running, .shutting shutdown]
      (.shutting shutdown) (.ending shutdown) (.ending shutdown)
      .complete where
  inside := by simp
  continues := by simp [Phase.user, Phase.onShutdown, hgraceful]
  pending := by simp [Phase.user, Phase.onShutdown, hgraceful]
  ready := by simp [Phase.user, Phase.onShutdown, hgraceful]
  panicked := by simp [Phase.user, Phase.onShutdown, hgraceful]

theorem shutdownActor_concludes {shutdown : Shutdown} {mode : Mode}
    {follow : P V ExitStatus} (hgraceful : shutdown ≠ .kill)
    (hmode : mode ≠ .running)
    (hfollow : forall w,
      At (.ending shutdown) w ∧ Sane A w ∧ Past mode w ->
        wp (courseDiscipline V A) follow Concludes Loose w)
    (hw : At .running w ∧ Sane A w ∧ Past mode w) :
    wp (courseDiscipline V A) (shutdownActor A shutdown follow) Concludes Loose
      w := by
  have hK : Lasts A [.shutdown]
      (fun w : World V => Sane A w ∧ Past mode w) :=
    (sane_lasts rfl (fun _ => rfl)).and (past_lasts hmode)
  apply wp.bind
  apply wp.attempt
  apply wp.mono _ _ (callUser_runs (shutdown_runs hgraceful) hK
    (fun h => by cases h) ⟨⟨.running, by simp, hw.left⟩, hw.right⟩)
  · intro _ w hw
    exact hfollow w hw
  · intro w hw
    exact containPanic_concludes ⟨.complete, rfl, hw.left⟩

theorem done_concludes {I : Unit -> World V -> Prop} {p : P V ExitStatus}
    (hp : wp (courseDiscipline V A) p Concludes Loose w) :
    wp (courseDiscipline V A) (do
      let status ← p
      done status) (Sound.Splits I Concludes) Loose w := by
  apply wp.seq hp
  intro status w hw
  exact wp.done hw

theorem runningRound_runs (hw : At .running w ∧ Open A w)
    (hheeded : Heeded (fun mode => mode = .running) w) :
    wp (courseDiscipline V A) (runningRound A)
      (Sound.Splits (fun _ w => At .running w ∧ Open A w) Concludes) Loose
      w := by
  have hlax : Phase.running.lax = true := rfl
  have hturns : Lasts A (actorParts A) (Open (V := V) A) := by
    have hcloses : (actorParts A).contains Part.closes = false := by
      unfold actorParts
      cases A.mailbox <;> rfl
    exact open_lasts hcloses sane_turns
  have hwaits : Lasts A waitParts (Open (V := V) A) :=
    open_lasts rfl (sane_lasts rfl (fun _ => rfl))
  have hexits : Lasts A exitParts (Open (V := V) A) :=
    open_lasts rfl (sane_lasts rfl (fun _ => rfl))
  have hfail : forall {w : World V}, Loose w ->
      wp (courseDiscipline V A) (do
        transact .beginFailure
        let status ← failActor A
        done status)
        (Sound.Splits (fun (_ : Unit) w => At .running w ∧ Open A w) Concludes)
        Loose w := by
    intro w hw
    apply wp.seq (containPanic_loose hw)
    intro _ w hw
    exact done_concludes (failActor_concludes hw)
  have hturn := actorTurn_tells (A := A) (K := Open A) (C := fun _ => False)
    hlax rfl hturns hwaits Lasts.never receives_never
    { receiveMessages := true, expectedMode := .running } hw hheeded
  apply wp.bind
  apply wp.attempt
  apply wp.mono _ _ hturn
  · intro turn w hw
    cases turn with
    | lifecycleHint => exact wp.again hw.left
    | progress => exact wp.again hw.left
    | inboxClosed => exact hw.right.elim
    | child event =>
        apply wp.seq (handleChildExit_running event hexits hw.left)
        intro work w hw
        cases work with
        | complete _ => exact wp.again hw
        | killed => exact done_concludes (killActor_concludes hw)
        | panicked => exact hfail hw
        | dropPanicked _ => exact hfail hw
  · intro w hw
    exact hfail ⟨.running, hlax, hw.left⟩

theorem runningLoop_concludes (hw : At .running w ∧ Open A w) :
    wp (courseDiscipline V A) (runningLoop A) Concludes Loose w := by
  apply wp.iter (fun _ w => At .running w ∧ Open A w) hw
  intro _ w hw
  have hstays : Lasts A waitParts (fun w : World V =>
      At .running w ∧ Open A w) :=
    at_waits.and (open_lasts rfl (sane_lasts rfl (fun _ => rfl)))
  apply wp.seq (mode_waits hstays hw)
  intro mode w hw
  rcases hw with ⟨hw, hmode⟩
  have hloose : Loose w := ⟨.running, rfl, hw.left⟩
  apply wp.mono (X := Loose)
    (Q := Sound.Splits (fun _ w => At .running w ∧ Open A w) Concludes)
  · intro r w hw
    cases r with
    | inl _ => exact hw
    | inr _ => exact hw
  · exact fun _ hX => hX
  cases mode with
  | running => exact runningRound_runs hw (Or.inl hmode)
  | draining =>
      exact done_concludes (shutdownActor_concludes (by decide) (by decide)
        (fun _ hw => drainActor_concludes hw)
        ⟨hw.left, hw.right.left, Or.inl hmode⟩)
  | stopping =>
      exact done_concludes (shutdownActor_concludes (by decide) (by decide)
        (fun _ hw => stopActor_concludes hw)
        ⟨hw.left, hw.right.left, Or.inl hmode⟩)
  | killing => exact done_concludes (killActor_concludes hloose)
  | failing => exact done_concludes (failActor_concludes hloose)
  | aborting => exact absurd hmode hw.right.left.mode
  | exited status =>
      have hopen := hw.left.unexited
      rw [hmode] at hopen
      cases hopen

end Loac

import Loac.Delivery.Loop

/-!
# Whole deliveries

From the first poll of a task to the last drop of its frame the books are
balanced wherever the task is suspended, and they are squared at its end.
-/

namespace Loac

open Interleave Interleave.Prog

variable {V α : Type} {A : ActorConfig} {w w' : World V}
  {P Q : World V -> Prop} {Y : World V -> Prop}

/-!
## Dropping frames
-/

/-- Nothing is queued or scheduled, and nothing will be. -/
abbrev Vacated (w : World V) : Prop :=
  Clean (fun w => Emptied w ∧ NoReplies w) w

theorem vacated_lasting :
    Lasting A (fun w : World V => Emptied w ∧ NoReplies w) :=
  (emptied_enduring.and noReplies_enduring).lasting

/-- Dropping the scheduler answers whatever it holds. -/
theorem dropQueue_ending (hQ : Enduring A Q) (hw : Clean Q w) :
    wp (deliveryDiscipline V A) Queue.drop
      (fun _ => Clean (fun w => Q w ∧ NoReplies w)) Y w := by
  apply wp.mono _ (fun _ hY => hY) (dropQueue_pays hQ.lasting hw)
  intro _ w hw
  exact ⟨hw.left.left, hw.left.right, hw.right⟩

theorem dropInitialized_vacates (hw : Down w) :
    wp (deliveryDiscipline V A) dropInitialized (fun _ => Vacated) Vacated
      w := by
  have hending : Lasting A (Ending (NoReplies (V := V))) :=
    (ending_enduring noReplies_enduring).lasting
  have hinbox : forall w : World V, Clean (Ending NoReplies) w ->
      wp (deliveryDiscipline V A) ActorInbox.drop (fun _ => Vacated) Vacated
        w :=
    fun _ hw => dropInbox_pays noReplies_enduring hw
  apply wp.onExit
  apply wp.mono (fun _ => hinbox) hinbox
  apply wp.seq (dropQueue_ending (ending_enduring Enduring.true) hw)
  intro _ w hw
  have hactor := Keeps.onExit
    (hending.callClean (.actor false) rfl)
    (dropChildren_keeps hending) (dropChildren_keeps hending)
  exact hactor w ⟨hw.left, hw.right.left.left, hw.right.right⟩

theorem dropUninitialized_vacates (hw : Down w) :
    wp (deliveryDiscipline V A) dropUninitialized (fun _ => Vacated) Y w := by
  apply wp.seq (dropQueue_ending (ending_enduring Enduring.true) hw)
  intro _ w hw
  apply wp.seq (dropInbox_pays noReplies_enduring
    ⟨hw.left, hw.right.left.left, hw.right.right⟩)
  intro _ w hw
  exact dropChildren_keeps vacated_lasting w hw

theorem dropUnpolled_vacates (hw : Down w) :
    wp (deliveryDiscipline V A) dropUnpolled (fun _ => Vacated) Vacated
      w := by
  have hdown := down_lasting (V := V) (A := A)
  have hrest : forall w : World V, Down w ->
      wp (deliveryDiscipline V A)
        (do
          ChildSet.drop
          ActorInbox.drop
          Queue.drop)
        (fun _ => Vacated) Vacated w := by
    intro w hw
    apply wp.seq (dropChildren_keeps hdown w hw)
    intro _ w hw
    apply wp.seq (dropInbox_pays Enduring.true hw)
    intro _ w hw
    exact dropQueue_ending emptied_enduring ⟨hw.left, hw.right.left⟩
  apply wp.onExit
  exact wp.mono (fun _ => hrest) hrest (hdown.callUser .args rfl w hw)

theorem dropFrame_vacates (site : Site) (hw : Down w) :
    wp (deliveryDiscipline V A) (ActorTask.dropFrame site)
      (fun _ => Vacated) Vacated w := by
  have hdown := down_lasting (V := V) (A := A)
  have hretire {site : UserSite}
      (hbooks : (Op.user site : Op V _).books = false) :
      Keeps (deliveryDiscipline V A) Down Vacated
        (ActorWorkGuard.dropFuturePanicked (callUser site)) :=
    hdown.sound.dropFuturePanicked (hdown.callUser site hbooks)
  have hinitialized := fun w (hw : Down w) =>
    dropInitialized_vacates (V := V) (A := A) hw
  have huninitialized := fun w (hw : Down w) =>
    dropUninitialized_vacates (V := V) (A := A) (Y := Vacated) hw
  cases site with
  | start => exact dropUnpolled_vacates hw
  | init =>
      exact wp.seq (hretire rfl w hw) (fun _ => huninitialized)
  | turn => exact hinitialized w hw
  | hook => exact wp.seq (hretire rfl w hw) (fun _ => hinitialized)
  | discard initialized =>
      cases initialized with
      | true => exact hinitialized w hw
      | false => exact huninitialized w hw
  | finishReplies => exact hinitialized w hw
  | children => exact hinitialized w hw
  | onStop => exact wp.seq (hretire rfl w hw) (fun _ => hinitialized)
  | waitAll initialized =>
      cases initialized with
      | true => exact hinitialized w hw
      | false => exact huninitialized w hw

/-!
## Squared books
-/

structure Squared (w : World V) : Prop where
  emptied : Emptied w
  hand : w.mail.hand = []
  answered : forall e, e ∈ w.mail.admitted -> e.kind.hasReceiver = true ->
    w.mail.Answered e.id
  delivered : forall id v, (id, v) ∈ w.mail.returned ->
    Hardened w ∨ (id, .ok (some v)) ∈ w.mail.responses

theorem Vacated.squared (h : Vacated w) : Squared w where
  emptied := h.right.left
  hand := h.left.inHand
  answered := by
    intro e hmem hkind
    rcases h.left.owned e hmem hkind with
      hanswered | hqueue | hhand | ⟨key, hkey⟩ | hdebt
    · exact hanswered
    · rw [h.right.left.right] at hqueue
      cases hqueue
    · cases hhand
    · have hnone := Slots.isEmpty_iff.mp h.right.right key
      unfold Sched.holds at hkey
      rw [hnone] at hkey
      cases hkey
    · cases hdebt
  delivered := by
    intro id v hmem
    rcases h.left.delivered id v hmem with hhard | hsent | heq
    · exact Or.inl hhard
    · exact Or.inr hsent
    · cases heq

theorem Squared.keeps (h : Squared w) (hmail : w'.mail = w.mail)
    (hmoves : w.control.Moves w'.control) : Squared w' where
  emptied := by
    refine ⟨hmoves.closing h.emptied.left, ?_⟩
    rw [hmail]
    exact h.emptied.right
  hand := by
    rw [hmail]
    exact h.hand
  answered := by
    rw [hmail]
    exact h.answered
  delivered := by
    intro id v hmem
    rw [hmail] at hmem ⊢
    exact (h.delivered id v hmem).imp_left
      (Hardened.mono (fun _ => hmoves.committed))

theorem squared_stable :
    (deliveryDiscipline V A).Stable (Squared (V := V)) := by
  intro e w w' hinv _ henv hw
  have hundisturbed := EnvAct.undisturbed henv
  have hclosing := hw.emptied.left
  rcases EnvAct.mail_exec henv with
    ⟨_, _, _, _, admitted, _, _, hmail, _, hqueue⟩
  have hadmitted : w'.mail.admitted = w.mail.admitted := by
    rcases hqueue with ⟨_, hsame⟩ | ⟨hrunning, _⟩
    · rw [hmail]
      exact hsame
    · exact absurd hrunning hclosing
  exact {
    emptied := emptied_enduring.env e w w' hinv henv hw.emptied
    hand := hundisturbed.inHand.trans hw.hand
    answered := by
      intro e hmem hkind
      rw [hadmitted] at hmem
      rw [hundisturbed.answered]
      exact hw.answered e hmem hkind
    delivered := by
      intro id v hmem
      rw [hundisturbed.returned] at hmem
      rw [hundisturbed.responses]
      exact (hw.delivered id v hmem).imp_left
        (Hardened.mono hundisturbed.committed) }

theorem publish_squared (proposed : ExitStatus) (hw : Vacated w) :
    wp (deliveryDiscipline V A) (ExitGuard.publish A proposed)
      (fun _ => Squared) Y w := by
  apply wp.seq (R := fun _ => Squared)
  · apply wp.op vacated_lasting.book hw
    intro w _ hw
    refine ⟨⟨hw.right.left.left, hw.right.left.right, hw.left.inHand⟩, ?_⟩
    intro input w' status _ hexec _
    have hmoves := Op.control_moves
      (show (Op.transact (.finish proposed)).exec A input w =
        some (w', status) from hexec)
    have hmail : w'.mail = w.mail := by
      cases hexec
      rfl
    exact (Vacated.squared hw).keeps hmail hmoves
  · intro status w hw
    apply wp.onlyIf
    · intro _
      apply wp.op squared_stable hw
      intro w _ hw
      refine ⟨trivial, ?_⟩
      intro input w' _ _ hexec _
      cases hexec
      exact hw.keeps rfl (.stays rfl rfl)
    · intro _
      exact hw

theorem beginAbort_clean (hP : Lasting A P) (hw : Clean P w) :
    wp (deliveryDiscipline V A) (transact .beginAbort)
      (fun _ w => Clean P w ∧ Down w) Y w := by
  apply wp.op hP.book hw
  intro w hinv hw
  refine ⟨trivial, ?_⟩
  intro input w' _ _ hexec _
  have hexec' : (Op.transact .beginAbort).exec A input w =
      some (w', ()) := hexec
  have hbook := hw.left.op_step rfl hexec'
  have hhard : Hard w' := by
    cases hexec
    show (w.control.commit (Loac.beginAbort w.control.mode)).mode.isHard = true
    rw [Control.commit_mode]
    cases w.control.mode <;> rfl
  exact ⟨⟨hbook, hP.op (.transact .beginAbort) input w w' () rfl hinv hexec'
    hw.right⟩, hbook, hhard.cut.ending⟩

theorem dropGuard_squared (hw : Vacated w) :
    wp (deliveryDiscipline V A) (ExitGuard.drop A) (fun _ => Squared) Y
      w := by
  apply wp.seq (beginAbort_clean vacated_lasting hw)
  intro _ w hw
  exact publish_squared _ hw.left

theorem dropTask_squared (site : Site) (hw : Settled w) :
    wp (deliveryDiscipline V A) (ActorTask.drop A site)
      (fun _ => Squared) Y w := by
  have hstart : Clean (fun _ => True) w := ⟨hw, trivial⟩
  apply wp.seq (beginAbort_clean Enduring.true.lasting hstart)
  intro _ w hw
  have hdown := down_lasting (V := V) (A := A)
  apply wp.seq (hdown.perform .dropNotified rfl (fun _ => trivial)
    (fun _ => rfl) w hw.right)
  intro _ w hw
  apply wp.seq (R := fun _ => Vacated)
  · apply wp.bind
    apply wp.attempt
    apply wp.mono _ _ (dropFrame_vacates site hw)
    · intro _ w hw
      exact hw
    · intro w hw
      exact vacated_lasting.sound.containPanic hw
  · intro _ w hw
    exact dropGuard_squared hw

/-!
## The actor task
-/

theorem runInit_pays (hw : Running w) :
    wp (deliveryDiscipline V A) runInit
      (Sound.Worked Running (fun _ => Running)) Y w := by
  have hrunning := running_lasting (V := V) (A := A)
  apply wp.seq (R := fun begun w => Running w ∧ (begun = false -> Hard w))
  · apply wp.op hrunning.book hw
    intro w hinv hw
    refine ⟨trivial, ?_⟩
    intro input w' begun _ hexec _
    have hexec' : (Op.transact .beginInitialization).exec A input w =
        some (w', begun) := hexec
    refine ⟨⟨hw.left.op_step rfl hexec', hrunning.op
      (.transact .beginInitialization) input w w' begun rfl hinv hexec'
      hw.right⟩, ?_⟩
    intro hfalse
    have hmoves := Op.control_moves hexec'
    apply hmoves.isHard
    cases hexec
    change (Loac.beginInitialization w.control.mode).2 = false at hfalse
    cases hmode : w.control.mode with
    | running =>
        rw [hmode] at hfalse
        cases hfalse
    | draining =>
        rw [hmode] at hfalse
        cases hfalse
    | stopping =>
        rw [hmode] at hfalse
        cases hfalse
    | _ => rfl
  · intro begun w hw
    cases begun with
    | true =>
        apply wp.bind
        apply wp.attempt
        apply wp.mono _ _ (hrunning.callUser .initCall rfl w hw.left)
        · intro _ w hw
          exact hrunning.await .init .initPoll .initDrop rfl rfl hw
        · intro w hw
          apply wp.seq (hrunning.sound.containPanic hw)
          intro _ w hw
          exact wp.pure hw
    | false =>
        have hhard := hrunning.and hard_enduring.lasting
        apply wp.seq (hhard.dropCalled .args rfl w
          ⟨hw.left.left, hw.left.right, hw.right rfl⟩)
        intro _ w hw
        exact wp.pure ⟨⟨hw.left, hw.right.left⟩, hw.right.right⟩

theorem runActor_vacates (hw : Running w) :
    wp (deliveryDiscipline V A) (runActor A) (fun _ => Vacated) Vacated
      w := by
  have hrunning := running_lasting (V := V) (A := A)
  have hframe {p : Loac.P V ExitStatus} {w : World V}
      (hp : wp (deliveryDiscipline V A) p (fun _ => Down) Down w) :
      wp (deliveryDiscipline V A) (onExit p dropUninitialized)
        (fun _ => Vacated) Vacated w := by
    apply wp.onExit
    apply wp.mono _ _ hp
    · intro _ w hw
      exact dropUninitialized_vacates hw
    · intro w hw
      exact dropUninitialized_vacates hw
  apply wp.seq (runInit_pays hw)
  intro work w hw
  cases work with
  | complete _ =>
      apply wp.onExit
      apply wp.mono _ _ (runningLoop_pays hw)
      · intro _ w hw
        exact dropInitialized_vacates hw
      · intro w hw
        exact dropInitialized_vacates hw
  | killed =>
      exact hframe (killUninitialized_pays w
        ⟨hw.left.left, hw.right.cut.ending⟩)
  | panicked => exact hframe (failUninitialized_pays hrunning hw)
  | dropPanicked _ =>
      apply hframe
      apply wp.seq (requestAll_keeps hrunning .kill w hw)
      intro _ w hw
      apply wp.seq (hrunning.dropCalled (.actor true) rfl w hw)
      intro _ w hw
      exact failUninitialized_pays hrunning hw

theorem poll_squared (hw : Running w) :
    wp (deliveryDiscipline V A) (ActorTask.poll A) (fun _ => Squared) Y
      w := by
  apply wp.bind
  apply wp.attempt
  apply wp.mono _ _ (runActor_vacates hw)
  · intro status w hw
    exact publish_squared status hw
  · intro w hw
    apply wp.seq (R := fun _ => Vacated)
    · apply wp.op vacated_lasting.book hw
      intro w _ hw
      refine ⟨trivial, ?_⟩
      intro input w' _ _ hexec _
      cases hexec
      exact hw
    · intro _ w hw
      apply wp.seq (beginAbort_clean vacated_lasting hw)
      intro _ w hw
      exact dropGuard_squared hw.left

theorem run_squared (hw : Running w) :
    wp (deliveryDiscipline V A) (ActorTask.run A) (fun _ => Squared) Y
      w := by
  have hrunning := running_lasting (V := V) (A := A)
  apply wp.seq (hrunning.perform .start rfl (fun _ => trivial)
    (fun _ => rfl) w hw)
  intro _ w hw
  apply wp.seq (hrunning.idle.waits .start w hw)
  intro _ w hw
  exact poll_squared hw

theorem dropSpawner_squared (hw : Running w) :
    wp (deliveryDiscipline V A) ActorSpawner.drop (fun _ => Squared) Y
      w := by
  apply wp.seq (R := fun _ => Down)
  · apply wp.op running_lasting.book hw
    intro w _ hw
    refine ⟨trivial, ?_⟩
    intro input w' status _ hexec _
    have hexec' : (Op.transact (.request .kill)).exec A input w =
        some (w', status) := hexec
    have hhard : Hard w' := by
      cases hexec
      show (w.control.commit (request w.control.mode .kill).1).mode.isHard = true
      rw [Control.commit_mode]
      exact request_kill_isHard _
    exact ⟨hw.left.op_step rfl hexec', hhard.cut.ending⟩
  · intro _ w hw
    apply wp.seq (dropInbox_pays Enduring.true hw)
    intro _ w hw
    apply wp.seq (dropQueue_ending emptied_enduring ⟨hw.left, hw.right.left⟩)
    intro _ w hw
    apply wp.mono _ (fun _ hY => hY)
      (dropChildren_keeps vacated_lasting w hw)
    intro _ w hw
    exact Vacated.squared hw

theorem lifetime_squared (hw : Running w) :
    wp (deliveryDiscipline V A) (lifetime A) (fun _ => Squared) Y w := by
  unfold lifetime
  cases A.parent with
  | true => exact run_squared hw
  | false =>
      have hrunning := running_lasting (V := V) (A := A)
      apply wp.seq (hrunning.perform .spawn rfl (fun _ => trivial)
        (fun _ => rfl) w hw)
      intro started w hw
      cases started with
      | true => exact run_squared hw
      | false => exact dropSpawner_squared hw

theorem delivery_cancels :
    Safe.Cancels (deliveryDiscipline V A) (fun _ => Squared)
      (fun _ => False) := by
  intro β op input p w hcancel _ hdemands _
  cases op with
  | suspend site =>
      cases input with
      | abort =>
          cases hcancel
          exact dropTask_squared site hdemands
      | _ => cases hcancel
  | _ => cases hcancel

theorem Balanced.new (V : Type) : Settled (World.new V) where
  mode := rfl
  inHand := rfl
  owned := fun _ hmem => by cases hmem
  held := by
    intro key reply hkey
    cases hkey
  distinct := by
    intro key key' id hkey
    cases hkey
  owed := trivial
  delivered := fun _ _ hmem => by cases hmem

theorem running_new (V : Type) : Running (World.new V) :=
  ⟨Balanced.new V, ⟨rfl, Or.inl (fun _ hmem => by cases hmem)⟩, trivial⟩

theorem delivery_safe {c : ActorState V} (h : Reachable A c) :
    Safe (deliveryDiscipline V A) (fun _ => Squared) (fun _ => False) c := by
  apply Safe.run deliveryDiscipline_lawful delivery_cancels _ (h.weaken _)
  · exact ⟨MailInv.new V, _, .refl, lifetime_squared (running_new V)⟩
  · intro c event _
    cases event with
    | env e => trivial
    | actor input =>
        unfold Discipline.Permits
        cases c.prog <;> trivial

/-- An actor whose life is over owes nobody anything. -/
theorem squared_of_isOver {c : ActorState V} (h : Reachable A c)
    (hover : isOver c = true) : Squared c.state := by
  have hsafe := delivery_safe h
  rcases c with ⟨w, prog⟩
  cases prog with
  | pure a => exact hsafe.returned squared_stable
  | throw => exact (hsafe.unwound (fun _ _ _ _ _ _ h => h)).elim
  | act op next => cases hover
  | loop body start next => cases hover

end Loac

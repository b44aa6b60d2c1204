import Loac.Containment.Waiting
import Loac.Course.Keeping

/-!
# Waits that listen

A wait for the lifecycle looks for a hint before it polls and again before it
gives up, so it is only ever suspended while it listens.
-/

namespace Loac

open Interleave Interleave.Prog

variable {V α β γ : Type} {A : ActorConfig} {w w' : World V}
  {X Y : World V -> Prop} {site : Site}

theorem pollNotified_waits {I : World V -> Prop} {good : Mode -> Prop}
    (hI : Lasts A waitParts I) (hw : I w) (hheeded : Heeded good w) :
    wp (courseDiscipline V A) (perform .pollNotified)
      (fun notified w => I w ∧ (notified = false -> Listening good w)) Y w := by
  have hlasts : Lasts A [] (Heeded (V := V) good) := heeded_lasts rfl
  apply wp.op (hI.stable.and hlasts.stable) ⟨hw, hheeded⟩
  intro w hinv hw
  refine ⟨trivial, ?_⟩
  intro input w' notified _ hexec _
  have hexec' : (Op.pollNotified).exec A input w = some (w', notified) := hexec
  refine ⟨hI.op _ input w w' notified rfl hexec' hw.left, ?_⟩
  intro hnone
  have htidy := hinv.tidy
  rcases hw with ⟨_, hgood⟩
  cases hexec
  unfold Heeded Notify.pending at hgood
  unfold Notify.Tidy at htidy
  show exists notified, w.control.actorWake.poll.1.waiter = some notified ∧ _
  change w.control.actorWake.poll.2 = false at hnone
  unfold Notify.poll at hnone ⊢
  cases hwaiter : w.control.actorWake.waiter with
  | some reached =>
      cases reached with
      | true =>
          rw [hwaiter] at hnone
          cases hnone
      | false =>
          have hpermit := htidy hwaiter
          rw [hpermit, hwaiter] at hgood
          refine ⟨false, hwaiter, (fun h => by cases h), ?_⟩
          exact Or.inl (hgood.resolve_right (by simp))
  | none =>
      rw [hwaiter] at hnone
      cases hpermit : w.control.actorWake.permit with
      | true => simp [hpermit] at hnone
      | false =>
          rw [hpermit, hwaiter] at hgood
          refine ⟨false, rfl, (fun h => by cases h), ?_⟩
          exact Or.inl (hgood.resolve_right (by simp))

theorem dropNotified_waits {I : World V -> Prop} (hI : Lasts A waitParts I)
    (hw : I w) :
    wp (courseDiscipline V A) (perform .dropNotified) (fun _ => I) Y w := by
  apply wp.op hI.stable hw
  intro w _ hw
  refine ⟨trivial, ?_⟩
  intro input w' a _ hexec _
  exact hI.op .dropNotified input w w' a rfl hexec hw

theorem suspend_waits {I : World V -> Prop} (hI : Lasts A waitParts I)
    (hsite : site.part = .parks) (hholds : forall w, I w -> site.Holds w)
    (hw : I w)
    (hlistening : Listening site.Accepts w) :
    wp (courseDiscipline V A) (suspend site)
      (fun _ w => I w ∧ Heeded site.Accepts w) Y w := by
  have hlasts : Lasts A [] (Listening (V := V) site.Accepts) :=
    listening_lasts rfl
  apply wp.op (hI.stable.and hlasts.stable) ⟨hw, hlistening⟩
  intro w _ hw
  refine ⟨⟨hholds w hw.left, fun _ => hw.right⟩, ?_⟩
  intro input w' a _ hexec _
  have hexec' : (Op.suspend site).exec A input w = some (w', a) := hexec
  have hkept := hI.op _ input w w' a (by
    show List.contains waitParts site.part = true
    rw [hsite]
    rfl) hexec' hw.left
  refine ⟨hkept, ?_⟩
  rcases hw.right with ⟨notified, hwaiter, _, hgood⟩
  rw [Op.exec] at hexec'
  split at hexec'
  · cases hexec'
    cases hgood with
    | inl hgood => exact Or.inl hgood
    | inr hnotified =>
        apply Or.inr
        show Notify.pending w.control.actorWake = true
        unfold Notify.pending
        rw [hwaiter, hnotified]
        simp
  · cases hexec'

theorem select_waits (site : Site) (hsite : site.part = .parks) (start : β)
    {poll : β -> P V (β ⊕ γ)} {I : β -> World V -> Prop}
    {Q : γ -> World V -> Prop} (hI : forall b, Lasts A waitParts (I b))
    (hQ : forall c, Lasts A waitParts (Q c)) (hX : Lasts A waitParts X)
    (hholds : forall b w, I b w -> site.Holds w)
    (hpoll : forall b w, I b w -> Listening site.Accepts w ->
      wp (courseDiscipline V A) (poll b)
        (Sound.Splits (fun b w => I b w ∧ Listening site.Accepts w) Q) X w)
    (hw : I start w) (hheeded : Heeded site.Accepts w) :
    wp (courseDiscipline V A) (select site start poll) (Sound.Splits I Q) X
      w := by
  apply wp.onExit
  apply wp.mono (Q := Sound.Splits I Q) (X := X)
  · intro r w hw
    cases r with
    | inl b => exact dropNotified_waits (hI b) hw
    | inr c => exact dropNotified_waits (hQ c) hw
  · intro w hw
    exact dropNotified_waits hX hw
  · apply wp.iter (fun b w => I b w ∧ Heeded site.Accepts w) ⟨hw, hheeded⟩
    intro b w hw
    apply wp.seq (pollNotified_waits (hI b) hw.left hw.right)
    intro notified w hw
    cases notified with
    | true => exact wp.done hw.left
    | false =>
        apply wp.seq (hpoll b w hw.left (hw.right rfl))
        intro r w hw
        cases r with
        | inl b' =>
            apply wp.seq (suspend_waits (hI b') hsite (hholds b') hw.left
              hw.right)
            intro _ w hw
            exact wp.again hw
        | inr c => exact wp.done hw

/-!
## Lifecycle work
-/

def Completes (Q : γ -> World V -> Prop) : Work γ -> World V -> Prop
  | .complete c => Q c
  | _ => Loose

theorem completes_waits {Q : γ -> World V -> Prop}
    (hQ : forall c, Lasts A waitParts (Q c)) (work : Work γ) :
    Lasts A waitParts (Completes (V := V) Q work) := by
  cases work with
  | complete c => exact hQ c
  | killed => exact loose_waits
  | panicked => exact loose_waits
  | dropPanicked _ => exact loose_waits

theorem loose_uses {p : P V α} {parts : List Part}
    (hparts : parts.all Part.loose = true)
    (hp : p.Uses (vocabulary V parts)) (hw : Loose w) :
    wp (courseDiscipline V A) p (fun _ => Loose) Loose w := by
  have hkeeps := loose_keeps (V := V) (A := A) hparts Lasts.true
  apply wp.mono _ _ (hp.keeps hkeeps w ⟨hw, trivial⟩)
  · exact fun _ _ hw => hw.left
  · exact fun _ hw => hw.left

theorem containPanic_loose (hw : Loose w) :
    wp (courseDiscipline V A) containPanic (fun _ => Loose) Y w := by
  have hkeeps : (vocabulary V [.fails]).Keeps (courseDiscipline V A)
      (fun w => Loose w ∧ True) := loose_keeps rfl Lasts.true
  apply wp.op hkeeps.stable ⟨hw, trivial⟩
  intro w hinv hw
  have hop := hkeeps.op (.transact .beginFailure) rfl w hinv hw
  refine ⟨hop.left, ?_⟩
  intro input w' a hadmits hexec hinv'
  exact (hop.right input w' a hadmits hexec hinv').left.left

theorem dropUserValue_loose {value : P V Unit}
    (hvalue : wp (courseDiscipline V A) value (fun _ => Loose) Loose w) :
    wp (courseDiscipline V A) (dropUserValue value) (fun _ => Loose) Y w := by
  apply wp.bind
  apply wp.attempt
  apply wp.mono _ _ hvalue
  · exact fun _ _ hw => wp.pure hw
  · exact fun _ hw => containPanic_loose hw

theorem dropFuturePanicked_loose {drop : P V Unit} {K : World V -> Prop}
    (hdrop : wp (courseDiscipline V A) drop (fun _ => K) Loose w) :
    wp (courseDiscipline V A) (ActorWorkGuard.dropFuturePanicked drop)
      (fun panicked w => if panicked then Loose w else K w) Y w := by
  apply wp.bind
  apply wp.attempt
  apply wp.mono _ _ hdrop
  · intro _ w hw
    exact hw
  · intro w hw
    apply wp.seq (containPanic_loose hw)
    intro _ w hw
    exact hw

theorem mode_waits {I : World V -> Prop} (hI : Lasts A waitParts I) (hw : I w) :
    wp (courseDiscipline V A) mode
      (fun mode w => I w ∧ w.control.mode = mode) Y w := by
  apply wp.op hI.stable hw
  intro w _ hw
  refine ⟨trivial, ?_⟩
  intro input w' mode _ hexec _
  have hkept := hI.op .mode input w w' mode rfl hexec hw
  cases hexec
  exact ⟨hkept, rfl⟩

theorem awaitActorWork_completes (site : Site) (hsite : site.part = .parks)
    (haccepts : forall mode, mode.isHard = false -> site.Accepts mode)
    (start : β) {future : β -> P V (β ⊕ γ)} {drop : P V Unit}
    {I : β -> World V -> Prop} {Q R : γ -> World V -> Prop}
    (hI : forall b, Lasts A waitParts (I b))
    (hQ : forall c, Lasts A waitParts (Q c))
    (hholds : forall b w, I b w -> site.Holds w)
    (hfuture : forall b w, I b w -> Listening site.Accepts w ->
      wp (courseDiscipline V A) (future b)
        (Sound.Splits (fun b w => I b w ∧ Listening site.Accepts w) R) Loose w)
    (hdrop : forall b w, I b w ->
      wp (courseDiscipline V A) drop (fun _ => Loose) Loose w)
    (hdropLoose : forall w, Loose w ->
      wp (courseDiscipline V A) drop (fun _ => Loose) Loose w)
    (hdropReady : forall c w, R c w ->
      wp (courseDiscipline V A) drop (fun _ => Q c) Loose w)
    (hw : I start w) :
    wp (courseDiscipline V A) (awaitActorWork site start future drop)
      (Completes Q) Y w := by
  have hguard : forall b w, I b w -> Listening site.Accepts w ->
      wp (courseDiscipline V A) (ActorWorkGuard.poll future drop b)
        (Sound.Splits (fun b w => I b w ∧ Listening site.Accepts w)
          (Completes Q)) (fun _ => False) w := by
    intro b w hw hlistening
    apply wp.bind
    apply wp.attempt
    apply wp.mono _ _ (hfuture b w hw hlistening)
    · intro r w hw
      cases r with
      | inl b' => exact wp.pure hw
      | inr c =>
          apply wp.seq (dropFuturePanicked_loose (hdropReady c w hw))
          intro panicked w hw
          cases panicked with
          | true => exact wp.pure hw
          | false => exact wp.pure hw
    · intro w hw
      apply wp.seq (containPanic_loose hw)
      intro _ w hw
      apply wp.seq (dropFuturePanicked_loose (hdropLoose w hw))
      intro panicked w hw
      cases panicked with
      | true => exact wp.pure hw
      | false => exact wp.pure hw
  apply wp.iter I hw
  intro b w hw
  apply wp.seq (mode_waits (hI b) hw)
  intro mode w hw
  cases hhard : mode.isHard with
  | true =>
      apply wp.seq (dropFuturePanicked_loose (hdrop b w hw.left))
      intro panicked w hw
      cases panicked with
      | true => exact wp.done hw
      | false => exact wp.done hw
  | false =>
      have hheeded : Heeded site.Accepts w := by
        apply Or.inl
        rw [hw.right]
        exact haccepts mode hhard
      have hselect := select_waits site hsite b hI (completes_waits hQ)
        Lasts.never hholds hguard hw.left hheeded
      apply wp.seq (wp.mono (fun _ _ hw => hw) (fun _ hX => hX.elim) hselect)
      intro r w hw
      cases r with
      | inl b' => exact wp.again hw
      | inr work => exact wp.done hw

theorem callUser_retires {site : UserSite} {starts : List Phase}
    (hsite : site.part = .retires)
    (hretire : forall phase, phase ∈ starts -> exists phase',
      phase'.lax = true ∧ forall outcome,
        phase.user site outcome = some phase')
    (hw : AtSome starts w) :
    wp (courseDiscipline V A) (callUser site) (fun _ => Loose) Loose w := by
  have hsome : Lasts A [] (AtSome (V := V) starts) :=
    (atSome_waits starts).mono rfl
  have hloose : Lasts A [] (Loose (V := V)) := loose_waits.mono rfl
  have heither : Lasts A []
      (fun w : World V => AtSome starts w ∨ Loose w) := {
    env := fun e w w' henv hw =>
      hw.imp (hsome.env e w w' henv) (hloose.env e w w' henv)
    op := fun _ _ _ _ _ hop _ _ => by cases hop }
  apply wp.seq (R := fun _ => Loose)
  · apply wp.iter (fun _ w => AtSome starts w ∨ Loose w) (Or.inl hw)
    intro _ w hw
    apply wp.bind
    apply wp.op heither.stable hw
    intro w _ hw
    have hstep : exists phase phase', phase'.lax = true ∧ At phase w ∧
        forall outcome, phase.user site outcome = some phase' := by
      rcases hw with ⟨phase, hmem, hat⟩ | ⟨phase, hlax, hat⟩
      · rcases hretire phase hmem with ⟨phase', hlax, huser⟩
        exact ⟨phase, phase', hlax, hat, huser⟩
      · refine ⟨phase, phase, hlax, hat, Phase.user_of_allows ?_⟩
        rw [hsite]
        exact hlax
    rcases hstep with ⟨phase, phase', hlax, hat, huser⟩
    constructor
    · constructor
      · intro outcome
        apply hat.inOrder
        show (phase.user site outcome).isSome = true
        rw [huser outcome]
        rfl
      · intro hstop
        rw [hsite] at hstop
        cases hstop
    · intro input w' step _ hexec _
      have hexec' : (Op.user site).exec A input w = some (w', step) := hexec
      have hopen : w'.control.mode.isExited = false :=
        unexited_of_presses (Op.control_presses rfl hexec') hat.unexited
      cases input with
      | user act =>
          have hloose : Loose w' := ⟨phase', hlax, hat.called (huser _)
            (World.userStep_course hexec') hopen⟩
          cases step with
          | continues => exact Or.inr hloose
          | panics => exact hloose
          | returns value => exact hloose
      | _ => cases hexec'
  · intro _ w hw
    exact wp.pure hw

theorem awaitUser_completes (site : Site) {pollSite : UserSite}
    (dropSite : UserSite) (hsite : site.part = .parks)
    (haccepts : forall mode, mode.isHard = false -> site.Accepts mode)
    {starts : List Phase}
    {within finished failed : Phase}
    (hruns : Phase.Runs pollSite starts within within finished failed)
    (hpart : pollSite.part.hears = true)
    {K J : World V -> Prop} (hK : Lasts A (pollSite.part :: waitParts) K)
    (hJ : Lasts A (pollSite.part :: .retires :: waitParts) J)
    (hstop : pollSite.part = .stop -> forall w, K w -> Quiescent w)
    (hretires : dropSite.part = .retires)
    (hretire : forall phase, phase ∈ starts -> exists phase',
      phase'.lax = true ∧ forall outcome,
        phase.user dropSite outcome = some phase')
    (hfinished : finished.lax = true) (hfailed : failed.lax = true)
    (hholds : forall w, AtSome starts w -> site.Holds (V := V) w)
    (hw : AtSome starts w ∧ K w ∧ J w) :
    wp (courseDiscipline V A)
      (awaitActorWork site () (fun _ => pollUser pollSite) (callUser dropSite))
      (Completes (fun _ w => At finished w ∧ J w ∧
        Entry.user pollSite .ready ∈ w.life.course)) Y w := by
  have huses : (callUser dropSite : P V Unit).Uses
      (vocabulary V [.retires]) := by
    apply callUser_uses
    rw [hretires]
    exact vocabulary_has
  have hdropLoose : forall w : World V, Loose w ->
      wp (courseDiscipline V A) (callUser dropSite) (fun _ => Loose) Loose
        w := by
    intro w hw
    exact loose_uses rfl huses hw
  have hready : Lasts A [.retires]
      (fun w => J w ∧ Entry.user pollSite .ready ∈ w.life.course) :=
    (hJ.mono (by simp)).and (course_lasts _)
  apply awaitActorWork_completes site hsite haccepts ()
    (I := fun _ w => AtSome starts w ∧ K w ∧ J w)
    (R := fun _ w => At finished w ∧ J w ∧
      Entry.user pollSite .ready ∈ w.life.course)
  · intro _
    exact (atSome_waits starts).and ((hK.mono (by simp [waitParts])).and
      (hJ.mono (by simp [waitParts])))
  · intro _
    exact at_waits.and ((hJ.mono (by simp [waitParts])).and (course_lasts _))
  · exact fun _ w hw => hholds w hw.left
  · intro _ w hw hlistening
    have hlasts : Lasts A [pollSite.part]
        (fun w => K w ∧ J w ∧ Listening site.Accepts w) :=
      (hK.mono (by simp)).and ((hJ.mono (by simp)).and
        (listening_lasts (by simp [hpart])))
    apply wp.seq (wp.mono (fun _ _ hw => hw) _
      (runUser_runs hruns hlasts (fun heq w hw => hstop heq w hw.left)
        ⟨hw.left, hw.right.left, hw.right.right, hlistening⟩))
    · intro value w hw
      rcases hw with ⟨⟨hwK, hwJ, hlistening⟩, hleads⟩
      cases value with
      | none =>
          exact wp.pure ⟨⟨⟨within, hruns.inside, hleads⟩, hwK, hwJ⟩,
            hlistening⟩
      | some _ => exact wp.pure ⟨hleads.left, hwJ, hleads.right⟩
    · intro w hw
      exact ⟨failed, hfailed, hw.left⟩
  · intro _ w hw
    exact callUser_retires hretires hretire hw.left
  · exact hdropLoose
  · intro _ w hw
    have hallows : [Part.retires].all finished.allows = true := by
      simpa [Phase.allows] using hfinished
    have hkeeps := at_keeps hallows hready
    apply wp.mono (fun _ _ hw => hw) _ (huses.keeps hkeeps w hw)
    intro w hw
    exact ⟨finished, hfinished, hw.left⟩
  · exact hw

end Loac

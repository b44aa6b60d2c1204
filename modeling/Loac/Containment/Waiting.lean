import Loac.Containment.Layers

/-!
# What waiting keeps

The actor task waits in selects and behind guards around user futures.  What is
known before a wait is known after it, if the poll and the wait keep it.
-/

namespace Loac

open Interleave

variable {V α β γ : Type}

namespace Sound

open Prog

variable {A : ActorConfig} {D : Discipline (machine V A)} {n : Nat}
  {K X Y : World V -> Prop}

/-!
## Selects
-/

def Splits (I : β -> World V -> Prop) (Q : γ -> World V -> Prop) :
    β ⊕ γ -> World V -> Prop
  | .inl b => I b
  | .inr c => Q c

/-- A select whose suspension is entered with more than it gives back. -/
theorem selectParked (site : Site) (start : β) {poll : β -> P V (β ⊕ γ)}
    {I J : β -> World V -> Prop} {Q : γ -> World V -> Prop}
    (hI : forall b, Steady D 0 (I b) (I b))
    (hQ : forall c, Steady D 0 (Q c) (Q c)) (hX : Steady D 0 X X)
    (hpoll : forall b w, I b w -> wp D (poll b) (Splits J Q) X w)
    (hsuspend : forall b w, J b w ->
      wp D (Loac.suspend site) (fun _ => I b) X w)
    {w : World V} (hw : I start w) :
    wp D (Loac.select site start poll) (Splits I Q) X w := by
  have hdropped {K : World V -> Prop} (h : Steady D 0 K K) :
      Keeps D K X (Prog.perform .dropNotified : P V Unit) :=
    h.perform _ (Nat.le_refl 0) (fun _ => rfl)
  apply wp.onExit
  apply wp.mono (Q := Splits I Q) (X := X)
  · intro r w hw
    cases r with
    | inl b => exact hdropped (hI b) w hw
    | inr c => exact hdropped (hQ c) w hw
  · intro w hw
    exact hdropped hX w hw
  · apply wp.iter I hw
    intro b w hw
    have hnotified : Keeps D (I b) X (Prog.perform .pollNotified : P V Bool) :=
      (hI b).perform _ (Nat.le_refl 0) (fun _ => rfl)
    apply wp.seq (hnotified w hw)
    intro notified w hw
    cases notified with
    | true => exact wp.done hw
    | false =>
        apply wp.seq (hpoll b w hw)
        intro r w hw
        cases r with
        | inl b' =>
            apply wp.seq (hsuspend b' w hw)
            intro _ w hw
            exact wp.again hw
        | inr c => exact wp.done hw

theorem select (site : Site) (start : β) {poll : β -> P V (β ⊕ γ)}
    {I : β -> World V -> Prop} {Q : γ -> World V -> Prop}
    (hI : forall b, Idle D (I b)) (hQ : forall c, Idle D (Q c)) (hX : Idle D X)
    (hpoll : forall b w, I b w -> wp D (poll b) (Splits I Q) X w)
    {w : World V} (hw : I start w) :
    wp D (Loac.select site start poll) (Splits I Q) X w :=
  selectParked site start (fun b => (hI b).toSteady)
    (fun c => (hQ c).toSteady) hX.toSteady hpoll
    (fun b => (hI b).waits site) hw

/-!
## Guards
-/

theorem dropFuturePanicked (h : Sound D n K X) {drop : P V Unit}
    (hdrop : Keeps D K X drop) :
    Keeps D K Y (ActorWorkGuard.dropFuturePanicked drop) := by
  intro w hw
  apply wp.bind
  apply wp.attempt
  apply wp.mono _ _ (hdrop w hw)
  · intro _ w' hw'
    exact hw'
  · intro w' hw'
    apply wp.bind
    exact wp.mono (fun _ _ hK => hK) (fun _ hX => hX) (h.containPanic hw')

def Worked (K : World V -> Prop) (Q : γ -> World V -> Prop) :
    Work γ -> World V -> Prop
  | .complete c => Q c
  | .killed => fun w => K w ∧ Hard w
  | .panicked => K
  | .dropPanicked _ => K

theorem awaitActorWork (h : Sound D n K X) (site : Site) (start : β)
    (hidle : Idle D K)
    {future : β -> P V (β ⊕ γ)} {drop : P V Unit}
    {I : β -> World V -> Prop} {Q : γ -> World V -> Prop}
    (hI : forall b, Idle D (I b)) (hIK : forall b w, I b w -> K w)
    (hQ : forall c, Idle D (Q c))
    (hfuture : forall b w, I b w -> wp D (future b) (Splits I Q) X w)
    (hdrop : Keeps D K X drop)
    (hdropHard : Keeps D (fun w => K w ∧ Hard w) (fun w => X w ∧ Hard w) drop)
    (hdropQ : forall c, Keeps D (Q c) X drop)
    {w : World V} (hw : I start w) :
    wp D (Loac.awaitActorWork site start future drop) (Worked K Q) Y w := by
  have hhard := h.and Carried.hard
  have hworked : forall work, Idle D (Worked K Q work) := by
    intro work
    cases work with
    | complete c => exact hQ c
    | killed => exact hidle.and Carried.hard
    | panicked => exact hidle
    | dropPanicked _ => exact hidle
  have hguard : forall b w, I b w ->
      wp D (ActorWorkGuard.poll future drop b) (Splits I (Worked K Q))
        (fun _ => False) w := by
    intro b w hw
    apply wp.bind
    apply wp.attempt
    apply wp.mono _ _ (hfuture b w hw)
    · intro r w hw
      cases r with
      | inl b' => exact wp.pure hw
      | inr c =>
          apply wp.bind
          apply wp.bind
          apply wp.attempt
          apply wp.mono _ _ (hdropQ c w hw)
          · intro _ w hw
            exact hw
          · intro w hw
            apply wp.seq (h.containPanic hw)
            intro _ w hw
            exact hw
    · intro w hw
      apply wp.seq (h.containPanic hw)
      intro _ w hw
      apply wp.seq (h.dropFuturePanicked hdrop w hw)
      intro _ w hw
      exact wp.pure hw
  apply wp.iter I hw
  intro b w hw
  apply wp.bind
  apply wp.op (hI b).stable hw
  intro w hinv hw
  have hop := (hI b).op .mode (Nat.le_refl 0) w hinv hw
  refine ⟨hop.left, ?_⟩
  intro input w' mode hadmits hexec hinv'
  have hw' := (hop.right input w' mode hadmits hexec hinv').left rfl
  cases hexec
  cases hmode : w.control.mode.isHard with
  | true =>
      apply wp.seq (hhard.dropFuturePanicked hdropHard w ⟨hIK b w hw', hmode⟩)
      intro _ w hw
      exact wp.done hw
  | false =>
      have hselect := select site b hI hworked Idle.never hguard hw'
      apply wp.seq (wp.mono (fun _ _ hw => hw) (fun _ hw => hw.elim) hselect)
      intro r w hw
      cases r with
      | inl b' => exact wp.again hw
      | inr work => exact wp.done hw

theorem awaitKept (h : Sound D n K X) (site : Site) (pollSite : UserSite)
    {drop : P V Unit} (hidle : Idle D K)
    (hpoll : Keeps D K X (Loac.pollUser pollSite)) (hdrop : Keeps D K X drop)
    (hdropHard : Keeps D (fun w => K w ∧ Hard w) (fun w => X w ∧ Hard w) drop)
    {w : World V} (hw : K w) :
    wp D (Loac.awaitActorWork site () (fun _ => Loac.pollUser pollSite) drop)
      (Worked K (fun _ => K)) Y w := by
  apply h.awaitActorWork site () hidle (fun _ => hidle) (fun _ _ hw => hw)
    (fun _ => hidle) _ hdrop hdropHard (fun _ => hdrop) hw
  intro _ w hw
  apply wp.mono _ (fun _ hX => hX) (hpoll w hw)
  intro r w hw
  cases r with
  | inl _ => exact hw
  | inr _ => exact hw

theorem awaitUser (h : Sound D n K X) (site : Site)
    (pollSite dropSite : UserSite) (hidle : Idle D K)
    (hpoll : pollSite.level <= n)
    (hdrop : dropSite.level <= n) {w : World V} (hw : K w) :
    wp D (Loac.awaitActorWork site () (fun _ => Loac.pollUser pollSite)
      (Loac.callUser dropSite)) (Worked K (fun _ => K)) Y w :=
  h.awaitKept site pollSite hidle (h.pollUser pollSite hpoll)
    (h.callUser dropSite hdrop) ((h.and Carried.hard).callUser dropSite hdrop)
    hw

end Sound

end Loac

import Loac.Course.Frame
import Loac.EndOfLife.Blame

/-!
# No lifecycle change is slept through

The single hint of the lifecycle gate is shared by all waits of the actor task.
Wherever the task is parked, it either agrees with the mode or is about to run
again, and every change that commits meanwhile makes it run again.
-/

namespace Loac

open Interleave

variable {V : Type} {A : ActorConfig} {w w' : World V}

def Site.listens : Site -> Bool
  | .turn _ => true
  | .finishReplies => true
  | .init => true
  | .hook _ => true
  | .children => true
  | .onStop _ => true
  | .start => false
  | .discard _ => false
  | .waitAll _ => false

theorem Site.parks_of_listens {site : Site} (h : site.listens = true) :
    site.part = .parks := by
  cases site <;> first
    | rfl
    | cases h

theorem Listening.agrees {good : Mode -> Prop} (h : Listening good w) :
    good w.control.mode ∨
      (w.control.actorWake.pending = true ∧ w.task = true) := by
  rcases h with ⟨notified, hwaiter, hwoken, hgood⟩
  cases hgood with
  | inl hgood => exact Or.inl hgood
  | inr hnotified =>
      subst hnotified
      refine Or.inr ⟨?_, hwoken rfl⟩
      unfold Notify.pending
      rw [hwaiter]
      simp

theorem Listening.woken {good : Mode -> Prop} (h : Listening good w)
    (hheard : Heard w w') (hchanged : w'.control.mode ≠ w.control.mode) :
    w'.task = true := by
  cases hheard with
  | quiet hmode _ _ => exact absurd hmode hchanged
  | hint _ htask =>
      rw [htask]
      rcases h with ⟨notified, hwaiter, hwoken, _⟩
      cases notified with
      | true =>
          rw [hwoken rfl]
          rfl
      | false =>
          unfold Notify.wakes
          rw [hwaiter]
          simp

theorem listening_of_parked {c : ActorState V} {site : Site}
    (h : Reachable A c) (hparked : suspendedAt c = some site)
    (hlistens : site.listens = true) : Listening site.Accepts c.state := by
  have hsafe := course_safe h
  rcases c with ⟨w, prog⟩
  cases prog with
  | act op next =>
      cases op with
      | suspend site' =>
          cases hparked
          exact hsafe.demands.right (Site.parks_of_listens hlistens)
      | _ => cases hparked
  | _ => cases hparked

/--
A parked task agrees with the mode as far as its wait is concerned, or a hint
and a wake of the task are pending.  A change that commits meanwhile leaves a
wake of the task pending.
-/
theorem change_not_slept_through (A : ActorConfig) (c : ActorState V)
    (h : Reachable A c) (site : Site) (hparked : suspendedAt c = some site)
    (hlistens : site.listens = true) :
    (site.Accepts c.state.control.mode ∨
      (c.state.control.actorWake.pending = true ∧ c.state.task = true)) ∧
    forall (e : EnvAct) (c' : ActorState V),
      (machine V A).step c (.env e) = some c' ->
        c'.state.control.mode ≠ c.state.control.mode ->
          c'.state.task = true := by
  have hlistening := listening_of_parked h hparked hlistens
  constructor
  · exact hlistening.agrees
  · intro e c' hstep hchanged
    rcases Option.map_eq_some_iff.mp hstep with ⟨w', henv, hc'⟩
    subst hc'
    exact hlistening.woken (EnvAct.heard henv) hchanged

def killedParked : ActorState Unit :=
  (machine Unit solitary).stage .next 40
    [.actor (.spawn true), silent, ready, silent, .env (.request .kill)] 0
    (initial Unit solitary)

/-- The statement applies to an actor that is killed in a turn. -/
theorem killedParked_woken :
    suspendedAt killedParked = some (.turn .running) ∧
      (Site.Accepts (.turn .running) killedParked.state.control.mode ∨
        (killedParked.state.control.actorWake.pending = true ∧
          killedParked.state.task = true)) := by
  have hparked : suspendedAt killedParked = some (.turn .running) := by
    decide +kernel
  exact ⟨hparked, (change_not_slept_through solitary killedParked
    (Machine.stage_reaches (fun _ => trivial) (fun _ _ _ => trivial) _ _ _)
    (.turn .running) hparked rfl).left⟩

end Loac

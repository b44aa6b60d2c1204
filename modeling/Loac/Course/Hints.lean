import Loac.Containment.Layers
import Loac.Containment.Repertoire

/-!
# Lifecycle hints

A transaction that changes the mode leaves a hint.  Whoever is about to wait
either knows the mode or has a hint pending, and whoever waits is woken by the
next hint.
-/

namespace Loac

open Interleave Interleave.Prog

variable {V α β γ : Type} {A : ActorConfig} {w w' : World V}
  {good : Mode -> Prop}

def Heeded (good : Mode -> Prop) (w : World V) : Prop :=
  good w.control.mode ∨ w.control.actorWake.pending = true

/--
The waiter is registered.  If a hint reached it, then the actor task was woken,
and otherwise the mode is acceptable.
-/
def Listening (good : Mode -> Prop) (w : World V) : Prop :=
  exists notified, w.control.actorWake.waiter = some notified ∧
    (notified = true -> w.task = true) ∧
    (good w.control.mode ∨ notified = true)

/-- A waiter that no hint has reached finds no hint stored either. -/
def Notify.Tidy (notify : Notify) : Prop :=
  notify.waiter = some false -> notify.permit = false

/-!
## What a step does to the hints
-/

inductive Heard (w w' : World V) : Prop where
  | quiet : w'.control.mode = w.control.mode ->
      w'.control.actorWake = w.control.actorWake ->
      (w.task = true -> w'.task = true) -> Heard w w'
  | hint : w'.control.actorWake = w.control.actorWake.notifyOne ->
      w'.task = (w.task || w.control.actorWake.wakes) -> Heard w w'

theorem Heard.same (hcontrol : w'.control = w.control)
    (htask : w.task = true -> w'.task = true) : Heard w w' :=
  .quiet (by rw [hcontrol]) (by rw [hcontrol]) htask

theorem Heard.transact {t : Transaction α} {life : Life} :
    Heard w { (w.transact t).1 with life := life } := by
  by_cases hmode : w.control.mode = (t.run w.control.mode).1
  · apply Heard.same
    · show w.control.commit (t.run w.control.mode).1 = w.control
      exact if_pos hmode
    · intro htask
      show (w.task || _) = true
      rw [htask]
      rfl
  · apply Heard.hint
    · show (w.control.commit (t.run w.control.mode).1).actorWake = _
      unfold Control.commit
      rw [if_neg hmode]
    · show (w.task || w.control.wakes (t.run w.control.mode).1) = _
      unfold Control.wakes
      simp [hmode]

theorem Notify.pending_notifyOne (notify : Notify) :
    notify.notifyOne.pending = true := by
  unfold notifyOne
  split <;> simp [pending]

theorem Notify.tidy_notifyOne (notify : Notify) : notify.notifyOne.Tidy := by
  unfold notifyOne
  split
  · intro hwaiter
    cases hwaiter
  · rename_i hne
    intro hwaiter
    exact absurd hwaiter hne

theorem Notify.tidy_poll {notify : Notify} (h : notify.Tidy) :
    notify.poll.1.Tidy := by
  unfold poll
  split
  · intro hwaiter
    cases hwaiter
  · exact h
  · split
    · rename_i hwaiter _
      intro hwaiter'
      exact absurd (hwaiter.symm.trans hwaiter') (by simp)
    · rename_i hpermit
      exact fun _ => by simpa using hpermit

theorem Notify.tidy_dropWaiter (notify : Notify) : notify.dropWaiter.Tidy := by
  unfold dropWaiter
  split
  · intro hwaiter
    cases hwaiter
  · intro hwaiter
    cases hwaiter

theorem Heard.task_kept (h : Heard w w') (htask : w.task = true) :
    w'.task = true := by
  cases h with
  | quiet _ _ hkept => exact hkept htask
  | hint _ hwoken =>
      rw [hwoken, htask]
      rfl

theorem Heard.tidy (h : Heard w w') (htidy : w.control.actorWake.Tidy) :
    w'.control.actorWake.Tidy := by
  cases h with
  | quiet _ hwake _ =>
      rw [hwake]
      exact htidy
  | hint hwake _ =>
      rw [hwake]
      exact Notify.tidy_notifyOne _

theorem Heard.heeded (h : Heard w w') (hheeded : Heeded good w) :
    Heeded good w' := by
  cases h with
  | quiet hmode hwake _ =>
      unfold Heeded
      rw [hmode, hwake]
      exact hheeded
  | hint hwake _ =>
      apply Or.inr
      rw [hwake]
      exact Notify.pending_notifyOne _

theorem Heard.listening (h : Heard w w') (hlistening : Listening good w) :
    Listening good w' := by
  rcases hlistening with ⟨notified, hwaiter, htask, hgood⟩
  cases h with
  | quiet hmode hwake htask' =>
      refine ⟨notified, ?_, fun h => htask' (htask h), ?_⟩
      · rw [hwake, hwaiter]
      · rw [hmode]
        exact hgood
  | hint hwake htask' =>
      refine ⟨true, ?_, ?_, Or.inr rfl⟩
      · rw [hwake]
        unfold Notify.notifyOne
        cases notified with
        | false => rw [hwaiter]
        | true => simp [hwaiter]
      · intro _
        rw [htask']
        cases notified with
        | false => simp [Notify.wakes, hwaiter]
        | true => simp [htask rfl]

theorem EnvAct.heard {e : EnvAct} (h : e.exec A w = some w') : Heard w w' := by
  cases e with
  | request shutdown =>
      cases h
      exact Heard.transact
  | fail =>
      cases h
      exact Heard.transact
  | child key act =>
      rw [EnvAct.exec] at h
      split at h
      · cases h
        exact Heard.same rfl (fun htask => by simp [World.wakeIf, htask])
      · cases h
  | _ =>
      apply Heard.same
      · grind [EnvAct.exec, World.wakeIf, Option.map_eq_some_iff]
      · grind [EnvAct.exec, World.wakeIf, Option.map_eq_some_iff]

/-- The operation neither waits nor looks at hints. -/
def Part.hears : Part -> Bool
  | .notified => false
  | .yields => false
  | .parks => false
  | _ => true

theorem Op.heard {op : Op V α} {input : Input V} {a : α}
    (hhears : op.part.hears = true) (h : op.exec A input w = some (w', a)) :
    Heard w w' := by
  cases op with
  | transact t =>
      cases h
      exact Heard.transact
  | user site =>
      cases input with
      | user act =>
          apply Heard.same (World.userStep_control h)
          intro htask
          cases act <;> grind [Op.exec, World.userStep, World.task_recordReturn]
      | _ => cases h
  | pollNotified => cases hhears
  | dropNotified => cases hhears
  | suspend site => cases site <;> cases hhears
  | spawn =>
      rw [Op.spawn_exec h]
      exact Heard.same rfl id
  | _ =>
      cases h
      exact Heard.same rfl (fun htask => by simp [World.wakeIf, htask])

end Loac

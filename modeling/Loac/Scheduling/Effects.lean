import Loac.Frames

/-!
# What steps do to the scheduler

Only the operations of the scheduler and user code change its state.  The
environment takes the steps of wakes, and these leave the replies and the lease
alone.
-/

namespace Loac

open Interleave

variable {V α : Type} {A : ActorConfig} {e : EnvAct} {w w' : World V}

/-- The operation may change the state of the scheduler. -/
def Op.schedules : Op V α -> Bool
  | .sched _ => true
  | .user _ => true
  | _ => false

theorem Op.sched_exec {op : Op V α} {input : Input V} {a : α}
    (hop : op.schedules = false)
    (h : op.exec A input w = some (w', a)) : w'.sched = w.sched := by
  cases op with
  | sched op => cases hop
  | user site => cases hop
  | spawn => rw [Op.spawn_exec h]
  | _ => grind [Op.exec, World.wakeIf, World.transact]

/-- An operation of the scheduler changes nothing else. -/
theorem Op.sched_result {op : SchedOp α} {input : Input V} {a : α}
    (h : (Op.sched op).exec A input w = some (w', a)) :
    w' = { w with sched := (op.exec w.sched).1 } ∧
      (op.exec w.sched).2 = a := by
  cases h
  exact ⟨rfl, rfl⟩

inductive UserSite.Schedules (site : UserSite) (sched : Sched) :
    Sched -> UserStep V -> Prop where
  | nothing (step : UserStep V) :
      (forall key value, site = .replyPoll key -> step ≠ .returns (some value)) ->
      Schedules site sched sched step
  | acquired (key : Key) : site.cx = some key ->
      Schedules site sched { sched with lease := some key } .continues
  | released (key : Key) : site.cx = some key ->
      Schedules site sched { sched with lease := none } .continues
  | returned (key : Key) (value : V) : site = .replyPoll key ->
      Schedules site sched (sched.setReturned key) (.returns (some value))

theorem World.userStep_schedules {site : UserSite} {act : UserAct V}
    {step : UserStep V} (h : w.userStep A site act = some (w', step)) :
    site.Schedules w.sched w'.sched step := by
  cases act with
  | acquireLease =>
      unfold World.userStep at h
      cases hcx : site.cx with
      | none =>
          simp only [hcx] at h
          cases h
      | some key =>
          simp only [hcx] at h
          cases h
          exact .acquired key hcx
  | releaseLease =>
      unfold World.userStep at h
      cases hcx : site.cx with
      | none =>
          simp only [hcx] at h
          cases h
      | some key =>
          simp only [hcx] at h
          cases h
          exact .released key hcx
  | spawnChild =>
      unfold World.userStep at h
      dsimp only at h
      split at h
      · cases h
        exact .nothing _ (by intro _ _ _ heq; cases heq)
      · cases h
  | panics =>
      cases h
      exact .nothing _ (by intro _ _ _ heq; cases heq)
  | returns value =>
      cases h
      show site.Schedules w.sched (w.recordReturn site value).sched _
      unfold World.recordReturn
      split
      · exact .returned _ _ rfl
      · rename_i hsite
        refine .nothing _ ?_
        intro key v hkey hreturns
        injection hreturns with hvalue
        exact hsite key v hkey hvalue

theorem Op.user_schedules {site : UserSite} {input : Input V}
    {step : UserStep V}
    (h : (Op.user site).exec A input w = some (w', step)) :
    site.Schedules w.sched w'.sched step := by
  cases input with
  | user act => exact World.userStep_schedules h
  | _ => cases h

/-- A step of a wake leaves the replies and the lease alone. -/
theorem EnvAct.lease_exec (h : e.exec A w = some w') :
    w'.sched.lease = w.sched.lease := by
  cases e with
  | notifySwap key =>
      rw [EnvAct.exec] at h
      split at h
      · cases h
        unfold Sched.notifySwap
        split <;> rfl
      · cases h
  | notifyPush index =>
      rcases Option.map_eq_some_iff.mp h with ⟨sched, hpush, hw'⟩
      subst hw'
      unfold Sched.notifyPush at hpush
      split at hpush
      · cases hpush
        rfl
      · cases hpush
  | notifyWake index =>
      rcases Option.map_eq_some_iff.mp h with ⟨r, hwake, hw'⟩
      subst hw'
      unfold Sched.notifyWake at hwake
      split at hwake
      · cases hwake
        rfl
      · cases hwake
  | _ => grind [EnvAct.exec, World.transact, World.wakeIf, Option.map_eq_some_iff]

/-- The operation may change the replies of the queue. -/
def SchedOp.handles : SchedOp α -> Bool
  | .reserve => true
  | .place _ _ => true
  | .remove _ => true
  | .drain => true
  | .takeReply _ => true
  | .takeFinal _ => true
  | _ => false

/-- The operation may change the replies of the queue. -/
def Op.handles : Op V α -> Bool
  | .user (.replyPoll _) => true
  | .sched op => op.handles
  | _ => false

theorem SchedOp.items_same {op : SchedOp α} (hop : op.handles = false)
    (sched : Sched) : (op.exec sched).1.items = sched.items := by
  cases op with
  | markReady key =>
      show (sched.markReady key).items = _
      unfold Sched.markReady
      split <;> rfl
  | takeReady key =>
      show (sched.takeReady key).1.items = _
      unfold Sched.takeReady
      split <;> rfl
  | popReady =>
      show sched.popReady.1.items = _
      unfold Sched.popReady
      split <;> rfl
  | _ => first
      | rfl
      | cases hop

/-- User code that polls no reply leaves the replies alone. -/
theorem Op.items_same {op : Op V α} {input : Input V} {a : α}
    (hop : op.handles = false) (h : op.exec A input w = some (w', a)) :
    w'.sched.items = w.sched.items := by
  cases op with
  | sched op =>
      rw [(Op.sched_result h).left]
      exact SchedOp.items_same hop w.sched
  | user site =>
      have hschedules := Op.user_schedules h
      revert hschedules
      generalize w'.sched = sched'
      intro hschedules
      cases hschedules with
      | nothing step _ => rfl
      | acquired key _ => rfl
      | released key _ => rfl
      | returned key value hsite =>
          rw [hsite] at hop
          cases hop
  | _ => rw [Op.sched_exec rfl h]

/-- The operation may give the lease to another reply, or to none. -/
def Op.leases : Op V α -> Bool
  | .sched .forceRelease => true
  | .user site => site.cx.isSome
  | _ => false

theorem Op.lease_same {op : Op V α} {input : Input V} {a : α}
    (hop : op.leases = false) (h : op.exec A input w = some (w', a)) :
    w'.sched.lease = w.sched.lease := by
  cases op with
  | sched op =>
      rw [(Op.sched_result h).left]
      cases op with
      | forceRelease => cases hop
      | markReady key =>
          show (w.sched.markReady key).lease = _
          unfold Sched.markReady
          split <;> rfl
      | takeReady key =>
          show (w.sched.takeReady key).1.lease = _
          unfold Sched.takeReady
          split <;> rfl
      | popReady =>
          show w.sched.popReady.1.lease = _
          unfold Sched.popReady
          split <;> rfl
      | drain =>
          show w.sched.drain.1.lease = _
          unfold Sched.drain
          split <;> rfl
      | takeReply key =>
          show (w.sched.takeReply key).1.lease = _
          unfold Sched.takeReply
          split <;> rfl
      | takeFinal key =>
          show (w.sched.takeFinal key).1.lease = _
          unfold Sched.takeFinal
          split <;> rfl
      | _ => rfl
  | user site =>
      have hschedules := Op.user_schedules h
      revert hschedules
      generalize w'.sched = sched'
      intro hschedules
      have hfree : site.cx = none := by
        cases hcx : site.cx with
        | none => rfl
        | some key =>
            change site.cx.isSome = false at hop
            rw [hcx] at hop
            cases hop
      cases hschedules with
      | nothing step _ => rfl
      | acquired key hcx =>
          rw [hfree] at hcx
          cases hcx
      | released key _ =>
          rename_i hcx
          rw [hfree] at hcx
          cases hcx
      | returned key value _ => rfl
  | _ => rw [Op.sched_exec rfl h]

end Loac

import Loac.Interleave.Padding
import Loac.Rotation.Ahead

/-!
# The keys of replies that are gone

A waker outlives its reply, and a late wake queues a key that names no reply of
the queue.  Nothing but a drain looks at the queued keys, so two states that
differ in such keys only take the same steps outside of a drain.
-/

namespace Loac

open Interleave

variable {V α : Type} {A : ActorConfig} {w w' w₁ : World V} {keys : List Key}
  {R : Pairing Key} {rel : (Key -> Bool) -> List Key -> List Key -> Prop}

def World.withKeys (w : World V) (keys : List Key) : World V :=
  { w with sched := { w.sched with ready := keys } }

@[simp] theorem World.mail_withKeys (w : World V) (keys : List Key) :
    (w.withKeys keys).mail = w.mail := rfl

@[simp] theorem World.control_withKeys (w : World V) (keys : List Key) :
    (w.withKeys keys).control = w.control := rfl

@[simp] theorem World.withKeys_self (w : World V) :
    w.withKeys w.sched.ready = w := rfl

/-- The states differ in the queued keys at most, and these are related. -/
def Beside (rel : (Key -> Bool) -> List Key -> List Key -> Prop)
    (w w' : World V) : Prop :=
  w' = w.withKeys w'.sched.ready ∧
    rel w.sched.isLive w.sched.ready w'.sched.ready

abbrev Alike (R : Pairing Key) (w w' : World V) : Prop :=
  Beside R.rel w w'

theorem Beside.control (h : Beside rel w w') : w'.control = w.control := by
  rw [h.left]
  rfl

/-!
## Steps that look at no key
-/

/-- The operation looks at no queued key, queues none and places no reply. -/
def Op.keyless : Op V α -> Bool
  | .sched .popReady => false
  | .sched (.readyIsEmpty _) => false
  | .sched (.markReady _) => false
  | .sched (.place _ _) => false
  | .sched .reserve => false
  | _ => true

theorem World.userStep_withKeys (w : World V) (keys : List Key)
    (site : UserSite) (act : UserAct V) :
    (w.withKeys keys).userStep A site act =
      (w.userStep A site act).map fun r => (r.1.withKeys keys, r.2) := by
  cases act with
  | acquireLease =>
      unfold World.userStep
      cases site.cx <;> rfl
  | releaseLease =>
      unfold World.userStep
      cases site.cx <;> rfl
  | spawnChild =>
      unfold World.userStep
      dsimp only
      split <;> rfl
  | panics => rfl
  | returns value =>
      unfold World.userStep World.recordReturn
      dsimp only
      split <;> rfl

theorem SchedOp.exec_ready {op : SchedOp α} (hop : (Op.sched op : Op V α).keyless)
    (sched : Sched) (keys : List Key) :
    op.exec { sched with ready := keys } =
      ({ (op.exec sched).1 with ready := keys }, (op.exec sched).2) := by
  cases op with
  | takeReady key =>
      show Sched.takeReady _ key = _
      unfold SchedOp.exec Sched.takeReady
      dsimp only
      split <;> rfl
  | drain =>
      show Sched.drain _ = _
      unfold SchedOp.exec Sched.drain
      dsimp only
      split <;> rfl
  | takeReply key =>
      show Sched.takeReply _ key = _
      unfold SchedOp.exec Sched.takeReply
      dsimp only
      split <;> rfl
  | takeFinal key =>
      show Sched.takeFinal _ key = _
      unfold SchedOp.exec Sched.takeFinal
      dsimp only
      split <;> rfl
  | _ => first
      | rfl
      | cases hop

theorem Op.exec_withKeys {op : Op V α} (hop : op.keyless = true)
    (w : World V) (keys : List Key) (input : Input V) :
    op.exec A input (w.withKeys keys) =
      (op.exec A input w).map fun r => (r.1.withKeys keys, r.2) := by
  cases op with
  | sched op =>
      have hexec := SchedOp.exec_ready hop w.sched keys
      show some ({ w with sched := (op.exec { w.sched with ready := keys }).1 },
        (op.exec { w.sched with ready := keys }).2) = _
      rw [hexec]
      rfl
  | user site =>
      cases input with
      | user act => exact World.userStep_withKeys w keys site act
      | _ => rfl
  | suspend site =>
      show (if w.task then _ else _) = Option.map _ (if w.task then _ else _)
      split <;> rfl
  | spawn => cases input <;> rfl
  | _ => rfl

theorem Op.keyless_places {op : Op V α} (hop : op.keyless = true) :
    op.places = false := by
  cases op with
  | sched op => cases op <;> first
      | rfl
      | cases hop
  | _ => rfl

/-- An operation that looks at no key does the same in states that are alike. -/
theorem Beside.exec {op : Op V α} {input : Input V} {a : α}
    (halike : Alike R w w') (hop : op.keyless = true)
    (h : op.exec A input w = some (w₁, a)) :
    exists w₁', op.exec A input w' = some (w₁', a) ∧ Alike R w₁ w₁' := by
  refine ⟨w₁.withKeys w'.sched.ready, ?_, rfl, ?_⟩
  · rw [halike.left, Op.exec_withKeys hop, h]
    rfl
  · have hready : w₁.sched.ready = w.sched.ready := by
      have hself := Op.exec_withKeys (A := A) hop w w.sched.ready input
      rw [World.withKeys_self, h] at hself
      exact congrArg (fun r => r.1.sched.ready) (Option.some.inj hself)
    rw [hready]
    exact R.fewer (Op.live_exec (Op.keyless_places hop) h) halike.right

/-!
## Steps of the environment
-/

def EnvAct.queues : EnvAct -> Sched -> List Key
  | .notifyPush index, sched =>
      match sched.calls[index]? with
      | some { key, push := true, .. } => [key]
      | _ => []
  | _, _ => []

theorem EnvAct.exec_withKeys (e : EnvAct) (w : World V) (keys : List Key) :
    e.exec A (w.withKeys keys) =
      (e.exec A w).map fun w₁ => w₁.withKeys (keys ++ e.queues w.sched) := by
  cases e with
  | notifyPush index =>
      unfold EnvAct.exec EnvAct.queues Sched.notifyPush World.withKeys
      dsimp only
      generalize w.sched.calls[index]? = call
      rcases call with _ | ⟨key, push, seen⟩
      · rfl
      · cases push <;> rfl
  | notifyWake index =>
      unfold EnvAct.exec EnvAct.queues Sched.notifyWake World.withKeys
      dsimp only
      rw [List.append_nil]
      split <;> rfl
  | notifySwap key =>
      unfold EnvAct.exec EnvAct.queues Sched.notifySwap World.withKeys
      dsimp only
      rw [List.append_nil]
      by_cases hkey : key < w.sched.items.next
      · rw [if_pos hkey, if_pos hkey]
        split <;> rfl
      · rw [if_neg hkey, if_neg hkey]
        rfl
  | reserve =>
      simp only [EnvAct.exec, EnvAct.queues, List.append_nil,
        World.mail_withKeys]
      cases A.mailbox with
      | none => rfl
      | some transport =>
          dsimp only
          cases w.mail.reserve transport <;> rfl
  | release =>
      simp only [EnvAct.exec, EnvAct.queues, List.append_nil,
        World.mail_withKeys]
      cases w.mail.release <;> rfl
  | admitEnvelope kind =>
      simp only [EnvAct.exec, EnvAct.queues, List.append_nil,
        World.mail_withKeys, World.control_withKeys]
      cases w.mail.admitEnvelope w.control.mode kind <;> rfl
  | refuse =>
      unfold EnvAct.exec EnvAct.queues
      rw [List.append_nil]
      dsimp only
      by_cases hrefuses : (A.mailbox.isSome &&
          (w.mail.closed || w.control.mode ≠ .running)) = true
      · rw [if_pos hrefuses]
        exact if_pos hrefuses
      · rw [if_neg hrefuses]
        exact if_neg hrefuses
  | child key act =>
      unfold EnvAct.exec EnvAct.queues
      rw [List.append_nil]
      dsimp only
      by_cases hkey : key < w.kin.next
      · rw [if_pos hkey]
        exact if_pos hkey
      · rw [if_neg hkey]
        exact if_neg hkey
  | childPublish key =>
      unfold EnvAct.exec EnvAct.queues
      rw [List.append_nil]
      dsimp only
      by_cases hkey : key < w.kin.next
      · rw [if_pos hkey]
        refine (if_pos hkey).trans ?_
        show Option.map _ (w.kin.publish key) =
          Option.map _ (Option.map _ (w.kin.publish key))
        cases w.kin.publish key <;> rfl
      · rw [if_neg hkey]
        exact if_neg hkey
  | _ =>
      simp only [EnvAct.exec, EnvAct.queues, List.append_nil]
      rfl

structure EnvStep (A : ActorConfig) (e : EnvAct) (w w₁ : World V)
    (keys : List Key) : Prop where
  exec : e.exec A (w.withKeys keys) =
    some (w₁.withKeys (keys ++ e.queues w.sched))
  ready : w₁.sched.ready = w.sched.ready ++ e.queues w.sched
  live : forall key, w₁.sched.isLive key = w.sched.isLive key

theorem EnvAct.step_withKeys {e : EnvAct} (h : e.exec A w = some w₁)
    (keys : List Key) : EnvStep A e w w₁ keys where
  exec := by
    rw [EnvAct.exec_withKeys, h]
    rfl
  ready := by
    have hself := EnvAct.exec_withKeys (A := A) e w w.sched.ready
    rw [World.withKeys_self, h] at hself
    exact congrArg (fun w => w.sched.ready) (Option.some.inj hself)
  live := by
    intro key
    unfold Sched.isLive
    rw [EnvAct.items_exec h]

theorem Beside.env {e : EnvAct}
    (hgrows : forall {live l l'} (more : List Key), rel live l l' ->
      rel live (l ++ more) (l' ++ more))
    (hbeside : Beside rel w w') (h : e.exec A w = some w₁) :
    exists w₁', e.exec A w' = some w₁' ∧ Beside rel w₁ w₁' := by
  have hstep := EnvAct.step_withKeys h w'.sched.ready
  have hexec := hstep.exec
  rw [← hbeside.left] at hexec
  refine ⟨_, hexec, rfl, ?_⟩
  have hlive : w₁.sched.isLive = w.sched.isLive := funext hstep.live
  rw [hlive, hstep.ready]
  exact hgrows _ hbeside.right

/-!
## Wakes of the task

Whether a wake of the actor task is outstanding makes no difference to others.
-/

/-- The same state with another flag for the wake of the task. -/
def World.withTask (w : World V) (task : Bool) : World V :=
  { w with task := task }

/-- What one side does, the other one does but for the flag. -/
theorem withTask_map {β : Type} {x : Option β} {f g : β -> World V}
    (h : x.map f = some w₁)
    (hfg : forall b, exists task, g b = (f b).withTask task) :
    exists task, x.map g = some (w₁.withTask task) := by
  rcases Option.map_eq_some_iff.mp h with ⟨b, hx, hb⟩
  rcases hfg b with ⟨task, htask⟩
  refine ⟨task, ?_⟩
  rw [hx, ← hb, ← htask]
  rfl

theorem withTask_ite {c : Prop} [Decidable c] {w₂ : World V} {task : Bool}
    (h : (if c then some w else none) = some w₁)
    (hw : w₂ = w.withTask task) :
    exists task, (if c then some w₂ else none) = some (w₁.withTask task) := by
  by_cases hc : c
  · rw [if_pos hc] at h
    refine ⟨task, ?_⟩
    rw [if_pos hc, hw, Option.some.inj h]
  · rw [if_neg hc] at h
    cases h

theorem EnvAct.exec_withTask {e : EnvAct} (task : Bool)
    (h : e.exec A w = some w₁) :
    exists task', e.exec A (w.withTask task) = some (w₁.withTask task') := by
  have hsome : forall {w₀ : World V}, some w₀ = some w₁ -> w₀ = w₁ :=
    Option.some.inj
  cases e with
  | request shutdown =>
      rw [← hsome h]
      exact ⟨_, rfl⟩
  | fail =>
      rw [← hsome h]
      exact ⟨_, rfl⟩
  | wakeTask =>
      rw [← hsome h]
      exact ⟨_, rfl⟩
  | abandon id =>
      rw [← hsome h]
      exact ⟨_, rfl⟩
  | reserve =>
      unfold EnvAct.exec at h ⊢
      cases hmailbox : A.mailbox with
      | none =>
          rw [hmailbox] at h
          cases h
      | some transport =>
          rw [hmailbox] at h
          exact withTask_map h (fun _ => ⟨_, rfl⟩)
  | refuse => exact withTask_ite h rfl
  | notifySwap key => exact withTask_ite h rfl
  | child key act => exact withTask_ite h rfl
  | childPublish key =>
      by_cases hkey : key < w.kin.next
      · unfold EnvAct.exec at h
        have hpublish := (if_pos hkey).symm.trans h
        have hmap := withTask_map (g := fun kin =>
            ({ w.withTask task with kin := kin } : World V).wakeIf w.kin.waker)
          hpublish (fun _ => ⟨_, rfl⟩)
        rcases hmap with ⟨task', htask⟩
        exact ⟨task', (if_pos hkey).trans htask⟩
      · have hnone := (if_neg hkey).symm.trans h
        cases hnone
  | release => exact withTask_map h (fun _ => ⟨_, rfl⟩)
  | admitEnvelope kind => exact withTask_map h (fun _ => ⟨_, rfl⟩)
  | notifyPush index => exact withTask_map h (fun _ => ⟨_, rfl⟩)
  | notifyWake index => exact withTask_map h (fun _ => ⟨_, rfl⟩)

end Loac

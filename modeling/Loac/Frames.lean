import Loac.Supervision.Registrations
import Loac.World

/-!
# What steps leave alone

Each step of the environment, and each operation of the actor task, changes
only some parts of the state, and those only in a few ways.
-/

namespace Loac

open Interleave

variable {V α : Type} {A : ActorConfig} {e : EnvAct} {w w' : World V}

theorem World.control_transact (w : World V) (t : Transaction α) :
    (w.transact t).1.control = w.control.commit (t.run w.control.mode).1 := rfl

@[simp] theorem World.control_recordReturn (w : World V) (site : UserSite)
    (value : Option V) : (w.recordReturn site value).control = w.control := by
  unfold World.recordReturn
  split <;> rfl

@[simp] theorem World.kin_recordReturn (w : World V) (site : UserSite)
    (value : Option V) : (w.recordReturn site value).kin = w.kin := by
  unfold World.recordReturn
  split <;> rfl

@[simp] theorem World.task_recordReturn (w : World V) (site : UserSite)
    (value : Option V) : (w.recordReturn site value).task = w.task := by
  unfold World.recordReturn
  split <;> rfl

theorem World.isEmpty_recordReturn (w : World V) (site : UserSite)
    (value : Option V) :
    (w.recordReturn site value).sched.items.isEmpty =
      w.sched.items.isEmpty := by
  unfold World.recordReturn
  split
  · exact Slots.isEmpty_modify ..
  · rfl

/-!
## The environment
-/

theorem EnvAct.life_exec (h : e.exec A w = some w') : w'.life = w.life := by
  cases e <;> grind [EnvAct.exec, World.transact, World.wakeIf,
    Option.map_eq_some_iff]

theorem EnvAct.control_exec (h : e.exec A w = some w') :
    w'.control = w.control ∨
      exists next, w.control.mode.Presses next ∧
        w'.control = w.control.commit next := by
  cases e with
  | request shutdown =>
      cases h
      cases request_presses w.control.mode shutdown with
      | inl heq =>
          apply Or.inl
          show w.control.commit (Loac.request w.control.mode shutdown).1 = _
          rw [heq, Control.commit_self]
      | inr hpresses => exact Or.inr ⟨_, hpresses, rfl⟩
  | fail =>
      cases h
      cases beginFailure_presses w.control.mode with
      | inl heq =>
          apply Or.inl
          show w.control.commit (Loac.beginFailure w.control.mode) = _
          rw [heq, Control.commit_self]
      | inr hpresses => exact Or.inr ⟨_, hpresses, rfl⟩
  | _ =>
      apply Or.inl
      grind [EnvAct.exec, World.wakeIf, Option.map_eq_some_iff]

theorem EnvAct.kin_exec (h : e.exec A w = some w') : w.kin.Follows w'.kin := by
  cases e with
  | child key act =>
      rw [EnvAct.exec] at h
      by_cases hlt : key < w.kin.next
      · rw [if_pos hlt] at h
        cases h
        exact Kin.advance_follows (act.next_advances _)
      · rw [if_neg hlt] at h
        cases h
  | childPublish key =>
      rw [EnvAct.exec] at h
      by_cases hlt : key < w.kin.next
      · rw [if_pos hlt] at h
        rcases Option.map_eq_some_iff.mp h with ⟨kin, hpublish, hw'⟩
        subst hw'
        exact Kin.publish_follows hlt hpublish
      · rw [if_neg hlt] at h
        cases h
  | _ =>
      have hkin : w'.kin = w.kin := by
        grind [EnvAct.exec, World.transact, World.wakeIf, Option.map_eq_some_iff]
      rw [hkin]
      exact Kin.Follows.refl _

theorem EnvAct.items_exec {A : ActorConfig} {e : EnvAct} {w w' : World V}
    (h : e.exec A w = some w') : w'.sched.items = w.sched.items := by
  cases e with
  | notifySwap key =>
      rw [EnvAct.exec] at h
      by_cases hlt : key < w.sched.items.next
      · rw [if_pos hlt] at h
        cases h
        unfold Sched.notifySwap
        split <;> rfl
      · rw [if_neg hlt] at h
        cases h
  | notifyPush index =>
      rcases Option.map_eq_some_iff.mp h with ⟨sched, hpush, hw'⟩
      subst hw'
      unfold Sched.notifyPush at hpush
      split at hpush
      · cases hpush
        rfl
      · cases hpush
  | notifyWake index =>
      rcases Option.map_eq_some_iff.mp h with ⟨r, hwake, hw'⟩
      subst hw'
      unfold Sched.notifyWake at hwake
      split at hwake
      · cases hwake
        rfl
      · cases hwake
  | _ => grind [EnvAct.exec, World.transact, World.wakeIf, Option.map_eq_some_iff]

/-!
## The mode
-/

inductive Control.Moves (control control' : Control) : Prop where
  | stays : control'.mode = control.mode ->
      control'.committed = control.committed -> Moves control control'
  | advances : control.mode.Advances control'.mode ->
      control'.committed = control'.mode :: control.committed ->
      Moves control control'

theorem Control.commit_moves {control : Control} {next : Mode}
    (h : next = control.mode ∨ control.mode.Advances next) :
    control.Moves (control.commit next) := by
  by_cases heq : control.mode = next
  · subst heq
    rw [commit_self]
    exact .stays rfl rfl
  · cases h with
    | inl hnext => exact absurd hnext.symm heq
    | inr hadvances =>
        unfold commit
        rw [if_neg heq]
        exact .advances hadvances rfl

theorem EnvAct.control_moves (h : e.exec A w = some w') :
    w.control.Moves w'.control := by
  cases EnvAct.control_exec h with
  | inl heq =>
      rw [heq]
      exact .stays rfl rfl
  | inr hpress =>
      rcases hpress with ⟨next, hpresses, hcontrol⟩
      rw [hcontrol]
      exact Control.commit_moves (Or.inr (.press hpresses))

theorem World.userStep_control {site : UserSite} {act : UserAct V}
    {step : UserStep V} (h : w.userStep A site act = some (w', step)) :
    w'.control = w.control := by
  cases act <;> grind [World.userStep, World.control_recordReturn]

theorem Op.spawn_exec {input : Input V} {a : Bool}
    (h : Op.spawn.exec A input w = some (w', a)) : w' = w := by
  cases input with
  | spawn started =>
      cases h
      rfl
  | _ => cases h

theorem Op.control_moves {op : Op V α} {input : Input V} {a : α}
    (h : op.exec A input w = some (w', a)) : w.control.Moves w'.control := by
  cases op with
  | transact t =>
      cases h
      exact Control.commit_moves (t.run_advances _)
  | user site =>
      cases input with
      | user act =>
          rw [World.userStep_control h]
          exact .stays rfl rfl
      | _ => cases h
  | pollNotified =>
      cases h
      exact .stays rfl rfl
  | dropNotified =>
      cases h
      exact .stays rfl rfl
  | spawn =>
      rw [Op.spawn_exec h]
      exact .stays rfl rfl
  | _ =>
      have hcontrol : w'.control = w.control := by
        grind [Op.exec, World.wakeIf]
      rw [hcontrol]
      exact .stays rfl rfl

/-- The operation may abort the actor or publish its status. -/
def Op.ends : Op V α -> Bool
  | .transact .beginAbort => true
  | .transact (.finish _) => true
  | _ => false

/-- Everybody but the ending of the actor merely presses. -/
theorem Op.control_presses {op : Op V α} {input : Input V} {a : α}
    (hends : op.ends = false) (h : op.exec A input w = some (w', a)) :
    w'.control.mode = w.control.mode ∨
      w.control.mode.Presses w'.control.mode := by
  cases op with
  | transact t =>
      cases h
      show (w.control.commit (t.run w.control.mode).1).mode = _ ∨
        w.control.mode.Presses (w.control.commit (t.run w.control.mode).1).mode
      rw [Control.commit_mode]
      cases t with
      | beginChildHook => exact Or.inl rfl
      | beginInitialization =>
          apply Or.inl
          show (Loac.beginInitialization _).1 = _
          unfold Loac.beginInitialization
          split <;> rfl
      | request shutdown => exact request_presses _ shutdown
      | beginFailure => exact beginFailure_presses _
      | beginAbort => cases hends
      | finish proposed => cases hends
      | beginDispatch =>
          apply Or.inl
          show (Loac.beginDispatch _).1 = _
          unfold Loac.beginDispatch
          split <;> rfl
      | beginCompletion =>
          apply Or.inl
          show (Loac.beginCompletion _).1 = _
          unfold Loac.beginCompletion
          split <;> rfl
  | user site =>
      cases input with
      | user act =>
          rw [World.userStep_control h]
          exact Or.inl rfl
      | _ => cases h
  | pollNotified =>
      cases h
      exact Or.inl rfl
  | dropNotified =>
      cases h
      exact Or.inl rfl
  | spawn =>
      rw [Op.spawn_exec h]
      exact Or.inl rfl
  | _ =>
      have hcontrol : w'.control = w.control := by
        grind [Op.exec, World.wakeIf]
      rw [hcontrol]
      exact Or.inl rfl

def Hard (w : World V) : Prop :=
  w.control.mode.isHard = true

theorem Control.Moves.isHard {control control' : Control}
    (h : control.Moves control') (hhard : control.mode.isHard = true) :
    control'.mode.isHard = true := by
  cases h with
  | stays hmode _ => rw [hmode, hhard]
  | advances hadvances _ => exact hadvances.isHard hhard

theorem hard_beginFailure {input : Input V} {a : Unit}
    (hexec : (Op.transact .beginFailure).exec A input w = some (w', a)) :
    Hard w' := by
  cases hexec
  show (w.control.commit (Loac.beginFailure w.control.mode)).mode.isHard = true
  rw [Control.commit_mode]
  exact beginFailure_isHard _

theorem Control.Moves.committed {control control' : Control}
    (h : control.Moves control') {mode : Mode} (hmem : mode ∈ control.committed) :
    mode ∈ control'.committed := by
  cases h with
  | stays _ hcommitted => rwa [hcommitted]
  | advances _ hcommitted =>
      rw [hcommitted]
      exact List.mem_cons_of_mem _ hmem

/-!
## Children
-/

/-- Whether the operation, on this input, registers a child. -/
def Op.spawns : Op V α -> Input V -> Bool
  | .user site, .user .spawnChild => site.scope
  | _, _ => false

def Op.isUser : Op V α -> Bool
  | .user _ => true
  | _ => false

theorem Op.isUser_of_spawns {op : Op V α} {input : Input V}
    (h : op.spawns input = true) : op.isUser = true := by
  cases op with
  | user site => rfl
  | _ => cases h

/-- The operation changes what the parent knows of its children. -/
def Op.accounts : Op V α -> Bool
  | .kin (.reap _) => true
  | .kin (.wait _) => true
  | .kin .clear => true
  | _ => false

theorem World.userStep_kin {site : UserSite} {act : UserAct V}
    {step : UserStep V} (h : w.userStep A site act = some (w', step)) :
    w'.kin = w.kin ∨
      ((Op.user site).spawns (.user act) = true ∧ w'.kin = w.kin.spawn) := by
  cases act with
  | spawnChild =>
      rw [World.userStep] at h
      split at h
      · rename_i limit _ hscope
        cases h
        cases ActorScope.kin_spawnChild limit w.kin () () with
        | inl hkin => exact Or.inl hkin
        | inr hspawn => exact Or.inr ⟨hscope, hspawn⟩
      · cases h
  | _ =>
      apply Or.inl
      grind [World.userStep, World.kin_recordReturn]

theorem Op.kin_exec {op : Op V α} {input : Input V} {a : α}
    (haccounts : op.accounts = false) (h : op.exec A input w = some (w', a)) :
    w.kin.Follows w'.kin ∨
      (op.spawns input = true ∧ w'.kin = w.kin.spawn) := by
  cases op with
  | user site =>
      cases input with
      | user act =>
          cases World.userStep_kin h with
          | inl hkin =>
              rw [hkin]
              exact Or.inl (Kin.Follows.refl _)
          | inr hspawn => exact Or.inr hspawn
      | _ => cases h
  | kin op =>
      apply Or.inl
      cases h
      cases op with
      | pollExit => exact Kin.pollExit_follows _ _
      | reap event => cases haccounts
      | actors => exact Kin.Follows.refl _
      | request key shutdown => exact Kin.request_follows _ _ _
      | wait key => cases haccounts
      | clear => cases haccounts
      | subtree => exact Kin.Follows.refl _
  | spawn =>
      rw [Op.spawn_exec h]
      exact Or.inl (Kin.Follows.refl _)
  | _ =>
      apply Or.inl
      have hkin : w'.kin = w.kin := by
        grind [Op.exec, World.wakeIf, World.transact]
      rw [hkin]
      exact Kin.Follows.refl _

/-!
## Life
-/

def Op.lives : Op V α -> Bool
  | .start => true
  | .publish _ => true
  | _ => false

/-- Whether the operation unwinds in a way that the actor is blamed for. -/
def Op.blamed : Op V α -> α -> Bool
  | .user site, .panics => !site.foreign
  | _, _ => false

theorem World.userStep_life {site : UserSite} {act : UserAct V}
    {step : UserStep V} (h : w.userStep A site act = some (w', step)) :
    w'.life.started = w.life.started ∧ w'.life.exits = w.life.exits ∧
      (w'.life.panics = w.life.panics ∨
        (step = .panics ∧ w'.life.panics = site :: w.life.panics)) := by
  cases act <;> grind [World.userStep, Life.note]

theorem World.userStep_panics {site : UserSite} {act : UserAct V}
    (h : w.userStep A site act = some (w', .panics)) :
    w'.life.panics = site :: w.life.panics := by
  cases act <;> grind [World.userStep, Life.note]

theorem Life.invoke_panics (life : Life) (waker : UserSite) (panicked : Bool) :
    (life.invoke waker panicked).panics = life.panics ∨
      (life.invoke waker panicked).panics = waker :: life.panics := by
  cases panicked with
  | false => exact Or.inl rfl
  | true => exact Or.inr rfl

theorem Life.mem_panics_invoke {life : Life} {site : UserSite}
    (h : site ∈ life.panics) (waker : UserSite) (panicked : Bool) :
    site ∈ (life.invoke waker panicked).panics := by
  cases life.invoke_panics waker panicked with
  | inl hsame =>
      rw [hsame]
      exact h
  | inr hcons =>
      rw [hcons]
      exact List.mem_cons_of_mem _ h

theorem Op.life_exec {op : Op V α} {input : Input V} {a : α}
    (hlives : op.lives = false) (h : op.exec A input w = some (w', a)) :
    w'.life.started = w.life.started ∧ w'.life.exits = w.life.exits ∧
      (w'.life.panics = w.life.panics ∨
        exists site, w'.life.panics = site :: w.life.panics ∧
          ((op.isUser = true ∧ op.blamed a = true) ∨ site.foreign = true)) := by
  cases op with
  | user site =>
      cases input with
      | user act =>
          rcases World.userStep_life h with ⟨hstarted, hexits, hpanics⟩
          refine ⟨hstarted, hexits, hpanics.imp_right ?_⟩
          intro hpanic
          refine ⟨site, hpanic.right, ?_⟩
          rw [hpanic.left]
          cases hforeign : site.foreign with
          | true => exact Or.inr rfl
          | false => exact Or.inl ⟨rfl, congrArg (!·) hforeign⟩
      | _ => cases h
  | start => cases hlives
  | publish status => cases hlives
  | spawn =>
      rw [Op.spawn_exec h]
      exact ⟨rfl, rfl, Or.inl rfl⟩
  | transact t =>
      cases h
      have hcontinues := w.life.noteTransaction_continues t
        (w.control.transact t).2
      refine ⟨hcontinues.started, hcontinues.exits, ?_⟩
      rw [← hcontinues.panics]
      exact (Life.invoke_panics _ .modeWaker _).imp_right fun hpanics =>
        ⟨.modeWaker, hpanics, Or.inr rfl⟩
  | mail op =>
      cases h
      exact ⟨rfl, rfl, (Life.invoke_panics _ .capacityWaker _).imp_right
        fun hpanics => ⟨.capacityWaker, hpanics, Or.inr rfl⟩⟩
  | kin op =>
      cases h
      have hcontinues := w.life.noteKin_continues op
        (op.exec input.reception w.kin).2
      exact ⟨hcontinues.started, hcontinues.exits, Or.inl hcontinues.panics⟩
  | _ =>
      have hlife : w'.life = w.life := by
        grind [Op.exec, World.transact, World.wakeIf]
      rw [hlife]
      exact ⟨rfl, rfl, Or.inl rfl⟩

/-!
## Replies
-/

theorem Sched.drain_none {sched : Sched} (h : sched.drain.2 = none) :
    sched.items.isEmpty = true ∧ sched.drain.1 = sched := by
  unfold Sched.drain at h ⊢
  cases hentries : sched.items.entries with
  | nil =>
      constructor
      · unfold Slots.isEmpty
        rw [hentries]
        rfl
      · rfl
  | cons entry rest =>
      rw [hentries] at h
      cases h

theorem Sched.drain_empty {sched : Sched} (h : sched.items.isEmpty = true) :
    sched.drain = (sched, none) := by
  unfold Slots.isEmpty at h
  unfold Sched.drain
  rw [List.isEmpty_iff.mp h]

/-- The operation may put a reply into the queue. -/
def Op.places : Op V α -> Bool
  | .sched (.place _ _) => true
  | _ => false

theorem SchedOp.isEmpty_exec {op : SchedOp α} {sched : Sched}
    (hplaces : (Op.sched op : Op V α).places = false)
    (hempty : sched.items.isEmpty = true) :
    (op.exec sched).1.items.isEmpty = true := by
  cases op with
  | place key future => cases hplaces
  | reserve => exact hempty
  | markReady key =>
      show (sched.markReady key).items.isEmpty = true
      unfold Sched.markReady
      split <;> exact hempty
  | takeReady key =>
      show (sched.takeReady key).1.items.isEmpty = true
      unfold Sched.takeReady
      split <;> exact hempty
  | popReady =>
      show sched.popReady.1.items.isEmpty = true
      unfold Sched.popReady
      split <;> exact hempty
  | remove key => exact Slots.isEmpty_remove hempty
  | drain =>
      show sched.drain.1.items.isEmpty = true
      rw [Sched.drain_empty hempty]
      exact hempty
  | takeReply key =>
      show (sched.takeReply key).1.items.isEmpty = true
      unfold Sched.takeReply
      split
      · rw [Slots.isEmpty_modify]
        exact hempty
      · exact hempty
  | takeFinal key =>
      show (sched.takeFinal key).1.items.isEmpty = true
      unfold Sched.takeFinal
      split
      · rw [Slots.isEmpty_modify]
        exact hempty
      · exact hempty
  | _ => exact hempty

theorem Op.isEmpty_exec {op : Op V α} {input : Input V} {a : α}
    (hplaces : op.places = false) (hempty : w.sched.items.isEmpty = true)
    (h : op.exec A input w = some (w', a)) :
    w'.sched.items.isEmpty = true := by
  cases op with
  | sched op =>
      cases h
      exact SchedOp.isEmpty_exec hplaces hempty
  | user site =>
      cases input with
      | user act =>
          have hitems : w'.sched.items.isEmpty = w.sched.items.isEmpty := by
            cases act <;> grind [Op.exec, World.userStep,
              World.isEmpty_recordReturn]
          rw [hitems, hempty]
      | _ => cases h
  | spawn =>
      rw [Op.spawn_exec h]
      exact hempty
  | _ =>
      have hsched : w'.sched = w.sched := by
        grind [Op.exec, World.wakeIf, World.transact]
      rw [hsched, hempty]

end Loac

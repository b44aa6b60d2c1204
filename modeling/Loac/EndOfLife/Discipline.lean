import Loac.Containment.Turns
import Loac.EndOfLife.History

/-!
# The ledger of a life

An actor ends once.  What its status says is settled before it is published:
the reason was committed, the children were accounted for, and a panic that
was blamed on the actor left its mark on the mode.
-/

namespace Loac

open Interleave

variable {V α : Type}

structure Terms where
  /-- The executor drops the task. -/
  abort : Prop
  /-- A reply that teardown clears registers a child. -/
  lateSpawn : Prop

/-- The drop of the actor value unwound through the actor task. -/
def ActorPanicked (w : World V) : Prop :=
  UserSite.actor false ∈ w.life.panics

/-- Panics that are blamed on the actor left a hard mode behind. -/
def Blamed (w : World V) : Prop :=
  forall site, site ∈ w.life.panics -> site.foreign = false -> Hard w

/-- The task runs and has not published anything. -/
structure Unpublished (w : World V) : Prop where
  mode : w.control.mode.isExited = false
  exits : w.life.exits = []
  started : w.life.started = true

/-!
## The invariant
-/

structure Ended (w : World V) (status : ExitStatus) : Prop where
  justified : Justified w.control.committed status.reason
  reason : status.reason = localReason w.control.committed
  settled : .aborting ∉ w.control.committed ->
    w.kin.actors = [] ∧ status.subtree = w.kin.subtree
  blamed : .aborting ∉ w.control.committed ->
    forall site, site ∈ w.life.panics -> site.foreign = false ->
      status.reason = .panicked ∨ status.reason = .killed

structure LifeInv (A : ActorConfig) (T : Terms) (w : World V) : Prop where
  history : History w.control.mode w.control.committed
  abortCause : .aborting ∈ w.control.committed -> T.abort ∨ ActorPanicked w
  kin : w.kin.Faithful
  started : w.control.mode.isExited = true -> w.life.started = true
  sent : w.life.exits = [] ∨
    (A.parent = true ∧ exists status,
      w.control.mode = .exited status ∧ w.life.exits = [status])
  ended : forall status, w.control.mode = .exited status -> Ended w status

/-!
## Demands
-/

structure Proposed (w : World V) (status : ExitStatus) : Prop where
  reason : status.reason ≠ .aborted
  actors : w.kin.actors = []
  subtree : status.subtree = w.kin.subtree
  justified : w.control.mode.isHard = false ->
    Justified w.control.committed status.reason
  blamed : Blamed w

def LifeDemands (A : ActorConfig) (T : Terms) :
    {α : Type} -> Op V α -> World V -> Prop
  | _, .transact (.finish status), w =>
      Unpublished w ∧ (w.control.mode ≠ .aborting -> Proposed w status)
  | _, .transact .beginAbort, w => T.abort ∨ ActorPanicked w
  | _, .suspend _, w => Unpublished w
  | _, .user _, w => w.control.mode.isExited = false
  | _, .kin op, w => w.control.mode.isExited = false ∧ op.Demands w.kin
  | _, .publish status, w =>
      A.parent = true ∧ w.control.mode = .exited status ∧ w.life.exits = []
  | _, .reach .hardWait, w => T.lateSpawn ∨ w.kin.Hunted
  | _, .reach .unwound, w => ActorPanicked w
  | _, _, _ => True

/-- There is no room for another child, so that a spawn is refused. -/
def NoRoom (A : ActorConfig) (w : World V) : Prop :=
  forall limit, A.children = some limit -> w.kin.AtLimit limit

def LifeAdmits (A : ActorConfig) (T : Terms) :
    {α : Type} -> Op V α -> Input V -> World V -> Prop
  | _, .suspend _, .abort, _ => T.abort
  | _, .user (.replyDrop _ true), .user .spawnChild, w =>
      T.lateSpawn ∨ NoRoom A w
  | _, _, _, _ => True

def lifeDiscipline (V : Type) (A : ActorConfig) (T : Terms) :
    Discipline (machine V A) where
  inv := LifeInv A T
  admits := LifeAdmits A T
  tolerates := fun _ _ => True
  demands := LifeDemands A T

/-!
## The invariant is kept
-/

variable {A : ActorConfig} {T : Terms} {w w' : World V}

structure LifeStep (T : Terms) (w w' : World V) : Prop where
  control : w.control.Moves w'.control
  kin : w'.kin.Faithful
  started : w.life.started = true -> w'.life.started = true
  exits : w'.life.exits = w.life.exits
  panics : forall site, site ∈ w.life.panics -> site ∈ w'.life.panics
  aborts : w'.control.mode = .aborting ->
    w.control.mode = .aborting ∨ T.abort ∨ ActorPanicked w
  /-- Nothing happens to an actor that has exited. -/
  quiet : w.control.mode.isExited = true ->
    w'.kin.actors = w.kin.actors ∧ w'.kin.subtree = w.kin.subtree ∧
      forall site, site ∈ w'.life.panics -> site.foreign = false ->
        site ∈ w.life.panics
  exit : w.control.mode.isExited = false ->
    forall status, w'.control.mode = .exited status ->
      w'.life.started = true ∧ Ended w' status

theorem LifeInv.step (h : LifeInv A T w) (hstep : LifeStep T w w') :
    LifeInv A T w' where
  history := hstep.control.history h.history
  abortCause := by
    intro haborting
    have hcause : T.abort ∨ ActorPanicked w := by
      cases hstep.control.aborting haborting with
      | inl hmem => exact h.abortCause hmem
      | inr hmode =>
          cases hstep.aborts hmode with
          | inl hold =>
              have hrecorded := h.history.recorded
              rw [hold] at hrecorded
              exact h.abortCause hrecorded
          | inr hcause => exact hcause
    exact hcause.imp_right (hstep.panics _)
  kin := hstep.kin
  started := by
    intro hexited
    cases hbefore : w.control.mode.isExited with
    | true => exact hstep.started (h.started hbefore)
    | false =>
        rcases Mode.isExited_iff.mp hexited with ⟨status, hstatus⟩
        exact (hstep.exit hbefore status hstatus).left
  sent := by
    rw [hstep.exits]
    rcases h.sent with hnone | ⟨hparent, status, hmode, hexits⟩
    · exact Or.inl hnone
    · exact Or.inr ⟨hparent, status, (hstep.control.exited hmode).left, hexits⟩
  ended := by
    intro status hstatus
    cases hbefore : w.control.mode.isExited with
    | false => exact (hstep.exit hbefore status hstatus).right
    | true =>
        rcases Mode.isExited_iff.mp hbefore with ⟨status', hstatus'⟩
        have hexited := hstep.control.exited hstatus'
        have heq : status' = status := by
          have hmode := hexited.left
          rw [hstatus] at hmode
          cases hmode
          rfl
        subst heq
        have hended := h.ended status' hstatus'
        have hquiet := hstep.quiet hbefore
        constructor
        · rw [hexited.right]
          exact hended.justified
        · rw [hexited.right]
          exact hended.reason
        · rw [hexited.right, hquiet.left, hquiet.right.left]
          exact hended.settled
        · rw [hexited.right]
          intro haborting site hsite hown
          exact hended.blamed haborting site
            (hquiet.right.right site hsite hown) hown

/-!
## Steps of the environment
-/

theorem LifeInv.env_step {e : EnvAct} (h : LifeInv A T w)
    (henv : e.exec A w = some w') : LifeInv A T w' := by
  have hlife := EnvAct.life_exec henv
  have hkin := EnvAct.kin_exec henv
  apply h.step
  exact {
    control := EnvAct.control_moves henv
    kin := hkin.faithful h.kin
    started := by
      rw [hlife]
      exact id
    exits := by rw [hlife]
    panics := by
      rw [hlife]
      exact fun _ => id
    aborts := by
      intro hmode
      rcases EnvAct.control_exec henv with heq | ⟨next, hpresses, hcontrol⟩
      · rw [heq] at hmode
        exact Or.inl hmode
      · rw [hcontrol, Control.commit_mode] at hmode
        exact absurd hmode hpresses.tentative.left
    quiet := by
      intro _
      refine ⟨hkin.actors, hkin.subtree, ?_⟩
      rw [hlife]
      exact fun _ hsite _ => hsite
    exit := by
      intro hbefore status hmode
      rcases EnvAct.control_exec henv with heq | ⟨next, hpresses, hcontrol⟩
      · rw [heq] at hmode
        rw [hmode] at hbefore
        cases hbefore
      · rw [hcontrol, Control.commit_mode] at hmode
        have hnext := hpresses.tentative.right
        rw [hmode] at hnext
        cases hnext }

/-!
## Steps of the actor task
-/

theorem finish_of_not_exited {mode : Mode} (h : mode.isExited = false)
    (proposed : ExitStatus) :
    finish mode proposed =
      (.exited (.new (finishReason mode proposed.reason) proposed.subtree),
        .new (finishReason mode proposed.reason) proposed.subtree) := by
  cases mode with
  | exited status => cases h
  | _ => rfl

theorem ended_finish {proposed : ExitStatus} (h : LifeInv A T w)
    (hopen : w.control.mode.isExited = false)
    (hproposed : w.control.mode ≠ .aborting -> Proposed w proposed) :
    Ended (w.transact (.finish proposed)).1
      (.new (finishReason w.control.mode proposed.reason)
        proposed.subtree) := by
  have hmoves : w.control.Moves (w.transact (.finish proposed)).1.control :=
    Control.commit_moves (Transaction.run_advances _ _)
  have hmode : (w.transact (.finish proposed)).1.control.mode =
      .exited (.new (finishReason w.control.mode proposed.reason)
        proposed.subtree) := by
    rw [World.control_transact, Control.commit_mode]
    show (finish w.control.mode proposed).1 = _
    rw [finish_of_not_exited hopen]
  have hcommitted : forall mode, w.control.mode = mode ->
      mode ∈ (w.transact (.finish proposed)).1.control.committed := by
    intro mode heq
    exact hmoves.committed (heq ▸ h.history.recorded)
  have hnotAborting :
      .aborting ∉ (w.transact (.finish proposed)).1.control.committed ->
        w.control.mode ≠ .aborting :=
    fun hmem heq => hmem (hcommitted _ heq)
  constructor
  · show Justified _ (finishReason w.control.mode proposed.reason)
    cases hbefore : w.control.mode with
    | aborting =>
        rw [finishReason_aborting]
        exact hcommitted _ hbefore
    | killing =>
        have hne : w.control.mode ≠ .aborting := by simp [hbefore]
        rw [finishReason_killing (hproposed hne).reason]
        exact hcommitted _ hbefore
    | failing =>
        have hne : w.control.mode ≠ .aborting := by simp [hbefore]
        rw [finishReason_failing (hproposed hne).reason]
        exact hcommitted _ hbefore
    | exited status =>
        rw [hbefore] at hopen
        cases hopen
    | _ =>
        have hne : w.control.mode ≠ .aborting := by simp [hbefore]
        have hjustified := (hproposed hne).justified (by simp [hbefore, Mode.isHard])
        rw [finishReason_soft rfl]
        exact hjustified.mono (fun _ => hmoves.committed)
  · have hcommitted : (w.transact (.finish proposed)).1.control.committed =
        .exited (.new (finishReason w.control.mode proposed.reason)
          proposed.subtree) :: w.control.committed := by
      cases hmoves with
      | stays hsame _ =>
          rw [hmode] at hsame
          rw [← hsame] at hopen
          cases hopen
      | advances _ hcommitted => rw [hcommitted, hmode]
    rw [hcommitted, localReason_exited]
    exact h.history.finishReason_eq hopen
      (fun hne => (hproposed hne).reason)
      (fun hsoft => (hproposed (by
        intro heq
        rw [heq] at hsoft
        cases hsoft)).justified hsoft)
  · intro hmem
    have hproposed := hproposed (hnotAborting hmem)
    refine ⟨hproposed.actors, ?_⟩
    rw [ExitStatus.subtree_new_of_ne _
      (finishReason_ne_aborted (hnotAborting hmem) hproposed.reason)]
    exact hproposed.subtree
  · intro hmem site hsite hne
    have hproposed := hproposed (hnotAborting hmem)
    have hhard : w.control.mode.isHard = true := hproposed.blamed site hsite hne
    show finishReason w.control.mode proposed.reason = _ ∨
      finishReason w.control.mode proposed.reason = _
    cases hbefore : w.control.mode with
    | aborting => exact absurd hbefore (hnotAborting hmem)
    | killing => exact Or.inr (finishReason_killing hproposed.reason)
    | failing => exact Or.inl (finishReason_failing hproposed.reason)
    | exited status =>
        rw [hbefore] at hopen
        cases hopen
    | _ =>
        rw [hbefore] at hhard
        cases hhard

theorem LifeInv.finish_step {proposed : ExitStatus} (h : LifeInv A T w)
    (hunpublished : Unpublished w)
    (hproposed : w.control.mode ≠ .aborting -> Proposed w proposed) :
    LifeInv A T (w.transact (.finish proposed)).1 := by
  have hmode : (w.transact (.finish proposed)).1.control.mode =
      .exited (.new (finishReason w.control.mode proposed.reason)
        proposed.subtree) := by
    rw [World.control_transact, Control.commit_mode]
    show (finish w.control.mode proposed).1 = _
    rw [finish_of_not_exited hunpublished.mode]
  apply h.step
  exact {
    control := Control.commit_moves (Transaction.run_advances _ _)
    kin := h.kin
    started := id
    exits := rfl
    panics := fun _ => id
    aborts := by
      intro haborting
      rw [hmode] at haborting
      cases haborting
    quiet := fun _ => ⟨rfl, rfl, fun _ hsite _ => hsite⟩
    exit := by
      intro _ status hstatus
      rw [hmode] at hstatus
      cases hstatus
      exact ⟨hunpublished.started, ended_finish h hunpublished.mode hproposed⟩ }

theorem LifeInv.abort_step (h : LifeInv A T w)
    (hcause : T.abort ∨ ActorPanicked w) :
    LifeInv A T (w.transact .beginAbort).1 := by
  have hmode : (w.transact .beginAbort).1.control.mode =
      Loac.beginAbort w.control.mode := by
    rw [World.control_transact, Control.commit_mode]
    rfl
  apply h.step
  exact {
    control := Control.commit_moves (Transaction.run_advances _ _)
    kin := h.kin
    started := id
    exits := rfl
    panics := fun _ => id
    aborts := fun _ => Or.inr hcause
    quiet := fun _ => ⟨rfl, rfl, fun _ hsite _ => hsite⟩
    exit := by
      intro hbefore status hstatus
      rw [hmode] at hstatus
      cases hold : w.control.mode with
      | exited _ =>
          rw [hold] at hbefore
          cases hbefore
      | _ =>
          rw [hold] at hstatus
          cases hstatus }

theorem LifeInv.publish_step {status : ExitStatus} (h : LifeInv A T w)
    (hparent : A.parent = true) (hmode : w.control.mode = .exited status)
    (hexits : w.life.exits = []) :
    LifeInv A T
      { w with life := { w.life with exits := status :: w.life.exits } } where
  history := h.history
  abortCause := h.abortCause
  kin := h.kin
  started := h.started
  sent := Or.inr ⟨hparent, status, hmode, by rw [hexits]⟩
  ended := by
    intro status hstatus
    have hended := h.ended status hstatus
    exact ⟨hended.justified, hended.reason, hended.settled, hended.blamed⟩

theorem LifeInv.invoke (h : LifeInv A T w) {waker : UserSite}
    (hforeign : waker.foreign = true) (panicked : Bool) :
    LifeInv A T { w with life := w.life.invoke waker panicked } where
  history := h.history
  abortCause := fun hmem => (h.abortCause hmem).imp_right fun hsite =>
    Life.mem_panics_invoke hsite waker panicked
  kin := h.kin
  started := h.started
  sent := h.sent
  ended := by
    intro status hstatus
    have hended := h.ended status hstatus
    refine ⟨hended.justified, hended.reason, hended.settled, ?_⟩
    intro haborting site hsite hown
    apply hended.blamed haborting site _ hown
    cases panicked with
    | false => exact hsite
    | true =>
        cases List.mem_cons.mp hsite with
        | inl heq =>
            rw [← heq, hown] at hforeign
            cases hforeign
        | inr hold => exact hold

theorem kin_exec_faithful {op : Op V α} {input : Input V} {a : α}
    (h : w.kin.Faithful) (hdemands : LifeDemands A T op w)
    (hexec : op.exec A input w = some (w', a)) : w'.kin.Faithful := by
  cases haccounts : op.accounts with
  | false =>
      cases Op.kin_exec haccounts hexec with
      | inl hfollows => exact hfollows.faithful h
      | inr hspawn =>
          rw [hspawn.right]
          exact Kin.spawn_faithful h
  | true =>
      cases op with
      | kin op =>
          cases hexec
          exact KinOp.exec_faithful op input.reception h hdemands.right
      | _ => cases haccounts

theorem LifeInv.start_step (h : LifeInv A T w) :
    LifeInv A T
      { w.wakeIf true with life := { w.life with started := true } } where
  history := h.history
  abortCause := h.abortCause
  kin := h.kin
  started := fun _ => rfl
  sent := h.sent
  ended := by
    intro status hstatus
    have hended := h.ended status hstatus
    exact ⟨hended.justified, hended.reason, hended.settled, hended.blamed⟩

/-- An operation that an exited actor may still run leaves its life alone. -/
theorem quiet_exec {op : Op V α} {input : Input V} {a : α}
    (hexited : w.control.mode.isExited = true)
    (hlives : op.lives = false) (hdemands : LifeDemands A T op w)
    (hexec : op.exec A input w = some (w', a)) :
    w'.kin.actors = w.kin.actors ∧ w'.kin.subtree = w.kin.subtree ∧
      forall site, site ∈ w'.life.panics -> site.foreign = false ->
        site ∈ w.life.panics := by
  have huser : op.isUser = false := by
    cases op with
    | user site =>
        change w.control.mode.isExited = false at hdemands
        rw [hexited] at hdemands
        cases hdemands
    | _ => rfl
  have haccounts : op.accounts = false := by
    cases op with
    | kin op =>
        have hopen : w.control.mode.isExited = false := hdemands.left
        rw [hexited] at hopen
        cases hopen
    | _ => rfl
  have hpanics : forall site, site ∈ w'.life.panics ->
      site.foreign = false -> site ∈ w.life.panics := by
    intro site hsite hown
    rcases (Op.life_exec hlives hexec).right.right with
      hsame | ⟨site', hcons, ⟨hop, _⟩ | hforeign⟩
    · rwa [hsame] at hsite
    · rw [huser] at hop
      cases hop
    · rw [hcons] at hsite
      cases List.mem_cons.mp hsite with
      | inl heq =>
          rw [← heq, hown] at hforeign
          cases hforeign
      | inr hold => exact hold
  cases Op.kin_exec haccounts hexec with
  | inl hfollows => exact ⟨hfollows.actors, hfollows.subtree, hpanics⟩
  | inr hspawn =>
      have hop := Op.isUser_of_spawns hspawn.left
      rw [huser] at hop
      cases hop

/-- What an operation does that neither ends nor publishes a life. -/
theorem LifeInv.op_step {op : Op V α} {input : Input V} {a : α}
    (h : LifeInv A T w) (hends : op.ends = false) (hlives : op.lives = false)
    (hdemands : LifeDemands A T op w)
    (hexec : op.exec A input w = some (w', a)) : LifeInv A T w' := by
  have hlife := Op.life_exec hlives hexec
  have hpresses := Op.control_presses hends hexec
  apply h.step
  exact {
    control := Op.control_moves hexec
    kin := kin_exec_faithful h.kin hdemands hexec
    started := by
      rw [hlife.left]
      exact id
    exits := hlife.right.left
    panics := by
      intro site hsite
      rcases hlife.right.right with hsame | ⟨site', hpanics, _⟩
      · rw [hsame]
        exact hsite
      · rw [hpanics]
        exact List.mem_cons_of_mem _ hsite
    aborts := by
      intro hmode
      cases hpresses with
      | inl hsame => exact Or.inl (hsame.symm.trans hmode)
      | inr hpress => exact absurd hmode hpress.tentative.left
    quiet := fun hexited => quiet_exec hexited hlives hdemands hexec
    exit := by
      intro hbefore status hmode
      cases hpresses with
      | inl hsame =>
          rw [← hsame, hmode] at hbefore
          cases hbefore
      | inr hpress =>
          have hnext := hpress.tentative.right
          rw [hmode] at hnext
          cases hnext }

theorem lifeDiscipline_lawful : (lifeDiscipline V A T).Lawful where
  env := fun _ _ _ hinv _ henv => LifeInv.env_step hinv henv
  actor := by
    intro β op input w w' b hinv hdemands _ hexec
    cases hends : op.ends with
    | true =>
        cases op with
        | transact t =>
            cases t with
            | beginAbort =>
                cases hexec
                exact (LifeInv.abort_step hinv hdemands).invoke rfl _
            | finish status =>
                cases hexec
                exact (LifeInv.finish_step hinv hdemands.left
                  hdemands.right).invoke rfl _
            | _ => cases hends
        | _ => cases hends
    | false =>
        cases hlives : op.lives with
        | true =>
            cases op with
            | start =>
                cases hexec
                exact LifeInv.start_step hinv
            | publish status =>
                cases hexec
                exact LifeInv.publish_step hinv hdemands.left
                  hdemands.right.left hdemands.right.right
            | _ => cases hlives
        | false => exact LifeInv.op_step hinv hends hlives hdemands hexec

theorem LifeInv.new (V : Type) (A : ActorConfig) (T : Terms) :
    LifeInv A T (World.new V) where
  history := .start
  abortCause := by
    intro hmem
    cases List.mem_singleton.mp hmem
  kin := Kin.new_faithful
  started := by
    intro hexited
    cases hexited
  sent := Or.inl rfl
  ended := by
    intro status hstatus
    cases hstatus

end Loac

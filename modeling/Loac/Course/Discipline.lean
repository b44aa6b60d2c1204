import Loac.Course.Hints
import Loac.Course.Order
import Loac.EndOfLife.History

/-!
# A life in order

User code runs in order, the task waits only for what it was told of, and a
graceful reason is given only to an actor whose stop hook has returned.
-/

namespace Loac

open Interleave Interleave.Prog

variable {V α β γ : Type} {A : ActorConfig} {w w' : World V}

structure Quiescent (w : World V) : Prop where
  replies : NoReplies w
  queue : w.mail.queue = []
  actors : w.kin.actors = []

/-- A graceful reason needs a stop hook that returned. -/
def Earned (status : ExitStatus) (w : World V) : Prop :=
  status.reason.isHard = false ->
    Entry.user (.stopPoll status.reason) .ready ∈ w.life.course

structure At (phase : Phase) (w : World V) : Prop where
  after : Phase.after w.life.course = some phase
  unexited : w.control.mode.isExited = false

/-- No user code is in the middle of something. -/
def Loose (w : World V) : Prop :=
  exists phase, phase.lax = true ∧ At phase w

def AtSome (starts : List Phase) (w : World V) : Prop :=
  exists phase, phase ∈ starts ∧ At phase w

/-- What the course has led to where the task is suspended. -/
def Site.Holds (w : World V) : Site -> Prop
  | .hook child => AtSome [.admitted child, .hooking child] w
  | _ => Loose w

def Site.Accepts (site : Site) (mode : Mode) : Prop :=
  match site with
  | .turn expectedMode => mode = expectedMode
  | _ => mode.isHard = false

def InOrder (w : World V) (entry : Entry) : Prop :=
  ((Phase.after w.life.course).bind (fun phase => phase.step entry)).isSome =
    true

structure CourseInv (w : World V) : Prop where
  ordered : (Phase.after w.life.course).isSome = true
  tidy : w.control.actorWake.Tidy
  earned : forall status, w.control.mode = .exited status -> Earned status w

def CourseDemands : {α : Type} -> Op V α -> World V -> Prop
  | _, .suspend site, w =>
      site.Holds w ∧ (site.part = .parks -> Listening site.Accepts w)
  | _, .reach point, _ => point.part = .marks
  | _, .user site, w =>
      (forall outcome, InOrder w (.user site outcome)) ∧
        (site.part = .stop -> Quiescent w)
  | _, .kin (.reap event), w => InOrder w (.reaped event.child)
  | _, .transact .beginChildHook, w =>
      InOrder w (.hookGate (w.control.mode = .running))
  | _, .transact (.finish status), w => Earned status w
  | _, _, _ => True

def courseDiscipline (V : Type) (A : ActorConfig) :
    Discipline (machine V A) where
  inv := CourseInv
  admits := fun _ _ _ => True
  tolerates := fun _ _ => True
  demands := CourseDemands

/-!
## What is noted
-/

/-- The entries that an operation may add to the course. -/
inductive Op.Notes : {α : Type} -> Op V α -> World V -> Entry -> Prop where
  | user {w : World V} (site : UserSite) (outcome : Outcome) :
      Notes (.user site) w (.user site outcome)
  | reaped {w : World V} (event : ChildExit) :
      Notes (.kin (.reap event)) w (.reaped event.child)
  | gate {w : World V} :
      Notes (.transact .beginChildHook) w
        (.hookGate (w.control.mode = .running))

theorem World.userStep_course {site : UserSite} {act : UserAct V}
    {step : UserStep V} (h : w.userStep A site act = some (w', step)) :
    w'.life.course = .user site step.outcome :: w.life.course := by
  cases act <;> grind [World.userStep, Life.note, UserStep.outcome]

theorem Op.course_exec {op : Op V α} {input : Input V} {a : α}
    (h : op.exec A input w = some (w', a)) :
    w'.life.course = w.life.course ∨
      exists entry, op.Notes w entry ∧
        w'.life.course = entry :: w.life.course := by
  cases op with
  | user site =>
      cases input with
      | user act =>
          exact Or.inr ⟨_, .user site _, World.userStep_course h⟩
      | _ => cases h
  | transact t =>
      cases h
      cases t with
      | beginChildHook => exact Or.inr ⟨_, .gate, rfl⟩
      | _ => exact Or.inl rfl
  | kin op =>
      cases h
      cases op with
      | reap event =>
          cases hreaped : (w.kin.reap event).2 with
          | true =>
              refine Or.inr ⟨_, .reaped event, ?_⟩
              show (w.life.noteKin (.reap event) (w.kin.reap event).2).course = _
              rw [hreaped]
              rfl
          | false =>
              apply Or.inl
              show (w.life.noteKin (.reap event) (w.kin.reap event).2).course = _
              rw [hreaped]
              rfl
      | _ => exact Or.inl rfl
  | spawn =>
      rw [Op.spawn_exec h]
      exact Or.inl rfl
  | _ =>
      apply Or.inl
      grind [Op.exec, World.wakeIf]

theorem Op.noted_inOrder {op : Op V α} {entry : Entry}
    (hdemands : CourseDemands op w) (h : op.Notes w entry) :
    InOrder w entry := by
  cases h with
  | user site outcome => exact hdemands.left outcome
  | reaped event => exact hdemands
  | gate => exact hdemands

theorem Earned.mono {status : ExitStatus} (h : Earned status w)
    (hsub : forall entry, entry ∈ w.life.course -> entry ∈ w'.life.course) :
    Earned status w' :=
  fun hsoft => hsub _ (h hsoft)

theorem Op.course_grows {op : Op V α} {input : Input V} {a : α}
    (h : op.exec A input w = some (w', a)) {entry : Entry}
    (hentry : entry ∈ w.life.course) : entry ∈ w'.life.course := by
  rcases Op.course_exec h with hsame | ⟨_, _, hcons⟩
  · rw [hsame]
    exact hentry
  · rw [hcons]
    exact List.mem_cons_of_mem _ hentry

/-!
## The invariant is kept
-/

theorem tidy_exec {op : Op V α} {input : Input V} {a : α}
    (h : op.exec A input w = some (w', a)) (htidy : w.control.actorWake.Tidy) :
    w'.control.actorWake.Tidy := by
  cases hhears : op.part.hears with
  | true => exact (Op.heard hhears h).tidy htidy
  | false =>
      cases op with
      | pollNotified =>
          cases h
          exact Notify.tidy_poll htidy
      | dropNotified =>
          cases h
          exact Notify.tidy_dropWaiter _
      | suspend site =>
          rw [Op.exec] at h
          split at h
          · cases h
            exact htidy
          · cases h
      | transact t => cases t <;> cases hhears
      | reach point => cases point <;> cases hhears
      | user site => cases site <;> cases hhears
      | sched op => cases op <;> cases hhears
      | mail op => cases op <;> cases hhears
      | kin op => cases op <;> cases hhears
      | _ => cases hhears

theorem finishReason_graceful {mode : Mode} {reason : ExitReason}
    (h : (finishReason mode reason).isHard = false) :
    finishReason mode reason = reason := by
  cases mode <;> cases reason <;> first
    | rfl
    | cases h

theorem earned_exec {op : Op V α} {input : Input V} {a : α}
    (hinv : CourseInv w) (hdemands : CourseDemands op w)
    (h : op.exec A input w = some (w', a)) {status : ExitStatus}
    (hmode : w'.control.mode = .exited status) : Earned status w' := by
  have hgrows : forall entry, entry ∈ w.life.course ->
      entry ∈ w'.life.course := fun _ => Op.course_grows h
  cases hbefore : w.control.mode.isExited with
  | true =>
      rcases Mode.isExited_iff.mp hbefore with ⟨status', hstatus'⟩
      have hsame := ((Op.control_moves h).exited hstatus').left
      rw [hmode] at hsame
      cases hsame
      exact (hinv.earned status hstatus').mono hgrows
  | false =>
      cases hends : op.ends with
      | false =>
          rcases Op.control_presses hends h with hsame | hpresses
          · rw [hmode] at hsame
            rw [← hsame] at hbefore
            cases hbefore
          · have hnext := hpresses.tentative.right
            rw [hmode] at hnext
            cases hnext
      | true =>
          cases op with
          | transact t =>
              cases t with
              | beginAbort =>
                  cases h
                  have haborts : (beginAbort w.control.mode) = .aborting := by
                    cases hold : w.control.mode <;> first
                      | rfl
                      | (rw [hold] at hbefore; cases hbefore)
                  have hnext : (w.control.commit
                      (beginAbort w.control.mode)).mode = .exited status := hmode
                  rw [Control.commit_mode, haborts] at hnext
                  cases hnext
              | finish proposed =>
                  have hearned : Earned proposed w := hdemands
                  have hstatus : status =
                      .new (finishReason w.control.mode proposed.reason)
                        proposed.subtree := by
                    cases h
                    have hnext : (w.control.commit
                        (finish w.control.mode proposed).1).mode =
                          .exited status := hmode
                    rw [Control.commit_mode] at hnext
                    cases hold : w.control.mode <;> rw [hold] at hnext hbefore <;>
                      first
                      | (cases hnext; rfl)
                      | cases hbefore
                  subst hstatus
                  intro hsoft
                  rw [ExitStatus.reason_new] at hsoft ⊢
                  have hreason := finishReason_graceful hsoft
                  rw [hreason] at hsoft ⊢
                  exact hgrows _ (hearned hsoft)
              | _ => cases hends
          | _ => cases hends

theorem courseDiscipline_lawful : (courseDiscipline V A).Lawful where
  actor := by
    intro β op input w w' b hinv hdemands _ hexec
    constructor
    · rcases Op.course_exec hexec with hsame | ⟨entry, hnotes, hcons⟩
      · rw [hsame]
        exact hinv.ordered
      · rw [hcons]
        exact Op.noted_inOrder hdemands hnotes
    · exact tidy_exec hexec hinv.tidy
    · intro status hmode
      exact earned_exec hinv hdemands hexec hmode
  env := by
    intro e w w' hinv _ henv
    have hlife := EnvAct.life_exec henv
    constructor
    · rw [hlife]
      exact hinv.ordered
    · exact (EnvAct.heard henv).tidy hinv.tidy
    · intro status hmode
      have hearned : Earned status w := by
        apply hinv.earned
        rcases EnvAct.control_exec henv with hsame | ⟨next, hpresses, hcontrol⟩
        · rw [← hsame]
          exact hmode
        · rw [hcontrol, Control.commit_mode] at hmode
          have hnext := hpresses.tentative.right
          rw [hmode] at hnext
          cases hnext
      apply hearned.mono
      intro entry hentry
      rw [hlife]
      exact hentry

end Loac

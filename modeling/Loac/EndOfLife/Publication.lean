import Loac.EndOfLife.Frame

/-!
# Publication

A life that is over was published exactly once, for good, and to the parent as
well, if its task was started.  A spawner that hands out an address and is
dropped leaves an actor behind that never exits.
-/

namespace Loac

open Interleave

variable {V : Type} {A : ActorConfig} {c : ActorState V}

def Terms.any : Terms where
  abort := True
  lateSpawn := True

theorem lifeAdmits_any {α : Type} (op : Op V α) (input : Input V)
    (w : World V) : LifeAdmits A .any op input w := by
  cases op with
  | suspend site => cases input <;> trivial
  | user site =>
      cases site with
      | replyDrop key cleared =>
          cases cleared with
          | false => trivial
          | true =>
              cases input with
              | user act =>
                  cases act with
                  | spawnChild => exact Or.inl trivial
                  | _ => trivial
              | _ => trivial
      | _ => trivial
  | _ => trivial

theorem permits_any (c : ActorState V) (event : Event (Input V) EnvAct) :
    (lifeDiscipline V A .any).Permits c event := by
  rcases c with ⟨w, prog⟩
  cases event with
  | env e => trivial
  | actor input =>
      cases prog with
      | act op next => exact lifeAdmits_any op input w
      | _ => trivial

theorem reachable_safe (h : Reachable A c) :
    Safe (lifeDiscipline V A .any) (fun _ => Over A) (fun _ => False) c :=
  life_safe (h.weaken (fun c event _ => permits_any c event))

/--
The status of the actor was committed by exactly one finish, no transaction
changes it, and the parent was told exactly that.
-/
def PublishedOnce (A : ActorConfig) (w : World V) : Prop :=
  exists status, w.control.mode = .exited status ∧
    w.control.committed.filter Mode.isExited = [.exited status] ∧
    (forall {α : Type} (t : Transaction α),
      (t.run w.control.mode).1 = w.control.mode) ∧
    (A.parent = true -> w.life.exits = [status])

theorem run_exited {α : Type} (t : Transaction α) (status : ExitStatus) :
    (t.run (.exited status)).1 = .exited status := by
  cases t with
  | request shutdown => cases shutdown <;> rfl
  | _ => rfl

theorem Published.once {w : World V} (h : Published A w)
    (hinv : LifeInv A .any w) : PublishedOnce A w := by
  rcases h.status with ⟨status, hmode, hexits⟩
  refine ⟨status, hmode, ?_, ?_, hexits⟩
  · rw [hinv.history.once, hmode]
    rfl
  · intro α t
    rw [hmode]
    exact run_exited t status

/-- Nothing unwinds out of the actor task. -/
theorem over_of_isOver (h : Reachable A c) (hover : isOver c = true) :
    Over A c.state := by
  have hsafe := reachable_safe h
  rcases c with ⟨w, prog⟩
  cases prog with
  | pure a => exact Safe.returned (Q := fun _ => Over A) over_stable hsafe
  | throw => exact (hsafe.unwound (fun _ _ _ _ _ _ hw => hw)).elim
  | act op next => cases hover
  | loop body start next => cases hover

/-- The end of a life is published once if and only if the task was started. -/
theorem end_published_once_iff_started (A : ActorConfig) (c : ActorState V)
    (h : Reachable A c) (hover : isOver c = true) :
    PublishedOnce A c.state <-> c.state.life.started = true := by
  have hinv : LifeInv A .any c.state := (reachable_safe h).inv
  constructor
  · intro hpublished
    rcases hpublished with ⟨status, hmode, _⟩
    apply hinv.started
    rw [hmode]
    rfl
  · intro hstarted
    cases over_of_isOver h hover with
    | inl hpublished => exact hpublished.once hinv
    | inr hunstarted =>
        rw [hunstarted.started] at hstarted
        cases hstarted

def solitary : ActorConfig where
  mailbox := none
  limit := none
  limitPositive := fun _ h => by cases h
  mailboxDispatchBudget := 1
  budgetPositive := by decide
  children := none
  parent := false

def killedInInit : ActorState Unit :=
  (machine Unit solitary).stage .next 40
    [.actor (.spawn true), .env (.request .kill),
      .actor (.user (.returns none)), .actor (.user (.returns none))]
    40 (initial Unit solitary)

theorem killedInInit_reachable : Reachable solitary killedInInit :=
  Machine.stage_reaches (fun _ => trivial) (fun _ _ _ => trivial) _ _ _

def killedChild : ActorState Unit :=
  (machine Unit { solitary with parent := true }).stage .next 40
    [.env (.request .kill), .actor (.user (.returns none)),
      .actor (.user (.returns none))]
    40 (initial Unit { solitary with parent := true })

theorem killedChild_reachable :
    Reachable { solitary with parent := true } killedChild :=
  Machine.stage_reaches (fun _ => trivial) (fun _ _ _ => trivial) _ _ _

/-- Both have published, and the child has sent one exit event. -/
theorem killedInInit_published :
    PublishedOnce solitary killedInInit.state ∧
      killedChild.state.life.exits = [.new .killed .terminated] := by
  have hroot : PublishedOnce solitary killedInInit.state :=
    (end_published_once_iff_started solitary killedInInit
      killedInInit_reachable (by decide +kernel)).mpr (by decide +kernel)
  have hchild : PublishedOnce { solitary with parent := true }
      killedChild.state :=
    (end_published_once_iff_started { solitary with parent := true } killedChild
      killedChild_reachable (by decide +kernel)).mpr (by decide +kernel)
  have hmode : killedChild.state.control.mode =
      .exited (.new .killed .terminated) := by decide +kernel
  rcases hchild with ⟨status, hstatus, _, _, hexits⟩
  rw [hmode] at hstatus
  cases hstatus
  exact ⟨hroot, hexits rfl⟩

def droppedSpawner : ActorState Unit :=
  (machine Unit solitary).stage .next 10 [.actor (.spawn false)] 40
    (initial Unit solitary)

/-- The address of a dropped spawner waits for an actor that is gone. -/
theorem droppedSpawner_never_published :
    Reachable solitary droppedSpawner ∧ isOver droppedSpawner = true ∧
      droppedSpawner.state.control.mode = .killing ∧
      ¬ PublishedOnce solitary droppedSpawner.state := by
  have hmode : droppedSpawner.state.control.mode = .killing := by decide +kernel
  refine ⟨?_, by decide +kernel, hmode, ?_⟩
  · exact Machine.stage_reaches (fun _ => trivial) (fun _ _ _ => trivial) _ _ _
  · intro hpublished
    rcases hpublished with ⟨status, hexited, _⟩
    rw [hmode] at hexited
    cases hexited

end Loac

import Loac.EndOfLife.Publication
import Loac.Interleave.Scripts

/-!
# Children during hard teardown

Hard teardown asks every child to end before it clears the scheduler.  The
futures that it clears still have the scope in reach, and a child that one of
them spawns is asked by nobody.
-/

namespace Loac

open Interleave

variable {V : Type} {A : ActorConfig} {c : ActorState V}

/-- No future that teardown clears registers a child in its drop. -/
def NoLateSpawn (A : ActorConfig) (c : ActorState V) :
    Event (Input V) EnvAct -> Prop
  | .actor (.user .spawnChild) =>
      match c.prog with
      | .act (.user (.replyDrop _ true)) _ => NoRoom A c.state
      | _ => True
  | _ => True

/-- The executor may drop the task, but nobody is registered late. -/
def Terms.punctual : Terms where
  abort := True
  lateSpawn := False

theorem permits_punctual (c : ActorState V) (event : Event (Input V) EnvAct)
    (h : NoLateSpawn A c event) :
    (lifeDiscipline V A .punctual).Permits c event := by
  rcases c with ⟨w, prog⟩
  cases event with
  | env e => trivial
  | actor input =>
      cases prog with
      | act op next =>
          show LifeAdmits A .punctual op input w
          cases op with
          | suspend site => cases input <;> trivial
          | user site =>
              cases site with
              | replyDrop key cleared =>
                  cases cleared with
                  | false => trivial
                  | true =>
                      cases input with
                      | user act =>
                          cases act with
                          | spawnChild => exact Or.inr h
                          | _ => trivial
                      | _ => trivial
              | _ => trivial
          | _ => trivial
      | _ => trivial

/--
When hard teardown starts to wait, every child it still has is on its way out.
-/
theorem hardWait_hunted (A : ActorConfig) (c : ActorState V)
    (h : Machine.Reaches (machine V A) (NoLateSpawn A) (initial V A) c)
    (hpoint : point c = some .hardWait) : c.state.kin.Hunted := by
  have hsafe : Safe (lifeDiscipline V A .punctual) (fun _ => Over A)
      (fun _ => False) c :=
    life_safe (h.weaken permits_punctual)
  rcases c with ⟨w, prog⟩
  cases prog with
  | act op next =>
      cases op with
      | reach p =>
          cases hpoint
          cases hsafe.demands with
          | inl hlate => exact hlate.elim
          | inr hhunted => exact hhunted
      | _ => cases hpoint
  | _ => cases hpoint

def sociable : ActorConfig where
  mailbox := some .unbounded
  limit := none
  limitPositive := solitary.limitPositive
  mailboxDispatchBudget := 1
  budgetPositive := solitary.budgetPositive
  children := some none
  parent := false

def silent : Event (Input Unit) EnvAct :=
  .actor (.user (.returns none))

def ready : Event (Input Unit) EnvAct :=
  .actor (.user (.returns (some ())))

def spawnsChild : Event (Input Unit) EnvAct :=
  .actor (.user .spawnChild)

/--
A call is accepted before the actor starts, some more happens in `init`, and the
handler is suspended when the actor is killed.
-/
def killedAtCall (first : List (Event (Input Unit) EnvAct)) :
    List (Event (Input Unit) EnvAct) :=
  [.env .reserve, .env (.admitEnvelope .call), .actor (.spawn true)] ++ first ++
    [silent, ready, silent, silent, silent, .env (.request .kill)]

def singleChild : ActorConfig :=
  { sociable with children := some (some 1) }

/--
The root registers its child in `init`.  When the scheduler is cleared, the
future of the call tries to spawn another one.
-/
def killedParent : ActorState Unit :=
  (machine Unit singleChild).stage .next 100
    (killedAtCall [spawnsChild] ++ [silent, spawnsChild, silent]) 8
    (initial Unit singleChild)

/-- Computes that no spawn of a cleared future has room. -/
def spawnsInTime (c : ActorState Unit) : Event (Input Unit) EnvAct -> Bool
  | .actor (.user .spawnChild) =>
      match c.prog with
      | .act (.user (.replyDrop _ true)) _ => 1 <= c.state.kin.actors.length
      | _ => true
  | _ => true

theorem noLateSpawn_of_spawnsInTime (c : ActorState Unit)
    (event : Event (Input Unit) EnvAct) (h : spawnsInTime c event = true) :
    NoLateSpawn singleChild c event := by
  unfold NoLateSpawn
  unfold spawnsInTime at h
  split
  · split
    · rename_i hprog
      rw [hprog] at h
      intro limit hlimit
      cases hlimit
      exact ⟨1, rfl, of_decide_eq_true h⟩
    · trivial
  · trivial

/-- The child is asked to end, and nobody else is registered. -/
theorem killedParent_hunted :
    point killedParent = some .hardWait ∧ killedParent.state.kin.actors = [0] ∧
      killedParent.state.kin.Hunted := by
  have hpoint : point killedParent = some .hardWait := by decide +kernel
  refine ⟨hpoint, by decide +kernel,
    hardWait_hunted singleChild killedParent ?_ hpoint⟩
  exact Machine.stage_permitted noLateSpawn_of_spawnsInTime (by decide +kernel)

def spawnedLate : ActorState Unit :=
  (machine Unit sociable).stage .next 100
    (killedAtCall [] ++ [silent, spawnsChild, silent]) 8 (initial Unit sociable)

theorem spawnedLate_not_hunted :
    Reachable sociable spawnedLate ∧ point spawnedLate = some .hardWait ∧
      ¬ spawnedLate.state.kin.Hunted := by
  refine ⟨?_, by decide +kernel, ?_⟩
  · exact Machine.stage_reaches (fun _ => trivial) (fun _ _ _ => trivial) _ _ _
  · intro hhunted
    have hchild : 0 ∈ spawnedLate.state.kin.actors := by decide +kernel
    have hhard := hhunted 0 hchild
    have hmode : (spawnedLate.state.kin.children 0).mode = .running := by
      decide +kernel
    rw [hmode] at hhard
    cases hhard

end Loac

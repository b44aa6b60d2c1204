import Loac.Interleave.Prog

/-!
# Scripts of permitted steps

A script is played in a run whose steps are restricted.  A test that can be
computed says of every step of the script whether it is one of those.
-/

namespace Interleave

namespace Machine

variable {Op : Type -> Type 1} {σ ι ε α : Type} {M : Machine Op σ ι ε α}
  {permitted : Config Op σ α -> Event ι ε -> Prop}
  {test : Config Op σ α -> Event ι ε -> Bool} {input : ι}

def settles (M : Machine Op σ ι ε α) (test : Config Op σ α -> Event ι ε -> Bool)
    (input : ι) : Nat -> Config Op σ α -> Bool
  | 0, _ => true
  | fuel + 1, c =>
      match M.stepActor input c with
      | none => true
      | some c' => test c (.actor input) && settles M test input fuel c'

def plays (M : Machine Op σ ι ε α) (test : Config Op σ α -> Event ι ε -> Bool)
    (input : ι) (fuel : Nat) : List (Event ι ε) -> Config Op σ α -> Bool
  | [], _ => true
  | event :: rest, c =>
      M.settles test input fuel c && test (M.settle input fuel c) event &&
        match M.step (M.settle input fuel c) event with
        | none => true
        | some c' => plays M test input fuel rest c'

def stages (M : Machine Op σ ι ε α) (test : Config Op σ α -> Event ι ε -> Bool)
    (input : ι) (fuel : Nat) (script : List (Event ι ε)) (rest : Nat)
    (c : Config Op σ α) : Bool :=
  M.plays test input fuel script c &&
    M.settles test input rest ((M.play input fuel script c).getD c)

theorem settle_permitted
    (htest : forall c event, test c event = true -> permitted c event)
    {fuel : Nat} {c : Config Op σ α}
    (hsettles : M.settles test input fuel c = true) :
    Reaches M permitted c (M.settle input fuel c) := by
  induction fuel generalizing c with
  | zero => exact .refl
  | succ fuel ih =>
      unfold settles at hsettles
      unfold settle
      cases hstep : M.stepActor input c with
      | none => exact .refl
      | some c' =>
          rw [hstep] at hsettles
          have hboth := Bool.and_eq_true_iff.mp hsettles
          have hfirst : Reaches M permitted c c' :=
            .step (.actor input) .refl (htest _ _ hboth.left) hstep
          exact hfirst.trans (ih hboth.right)

theorem play_permitted
    (htest : forall c event, test c event = true -> permitted c event)
    {fuel : Nat} {script : List (Event ι ε)} {c c' : Config Op σ α}
    (hplays : M.plays test input fuel script c = true)
    (hplay : M.play input fuel script c = some c') :
    Reaches M permitted c c' := by
  induction script generalizing c with
  | nil =>
      cases hplay
      exact .refl
  | cons event rest ih =>
      unfold play at hplay
      unfold plays at hplays
      have hboth := Bool.and_eq_true_iff.mp hplays
      have hsteps := Bool.and_eq_true_iff.mp hboth.left
      cases hstep : M.step (M.settle input fuel c) event with
      | none =>
          rw [hstep] at hplay
          cases hplay
      | some next =>
          rw [hstep] at hplay hboth
          have hevent : Reaches M permitted (M.settle input fuel c) next :=
            .step event .refl (htest _ _ hsteps.right) hstep
          exact ((settle_permitted htest hsteps.left).trans hevent).trans
            (ih hboth.right hplay)

theorem stage_permitted
    (htest : forall c event, test c event = true -> permitted c event)
    {fuel rest : Nat} {script : List (Event ι ε)} {c : Config Op σ α}
    (hstages : M.stages test input fuel script rest c = true) :
    Reaches M permitted c (M.stage input fuel script rest c) := by
  have hboth := Bool.and_eq_true_iff.mp hstages
  have hplayed : Reaches M permitted c
      ((M.play input fuel script c).getD c) := by
    cases hplay : M.play input fuel script c with
    | none => exact .refl
    | some c' => exact play_permitted htest hboth.left hplay
  exact hplayed.trans (settle_permitted htest hboth.right)

end Machine

end Interleave

import Loac.Interleave.Prog

/-!
# Traces

An observer sees something of some steps of a run, and nothing of others.  Two
machines are compared by what the observer sees: a simulation answers every step
on the left by a few steps on the right, and every run on the left by a run on
the right.
-/

namespace Interleave

namespace Machine

variable {Op : Type -> Type 1} {σ ι ε α τ : Type}

inductive Traces (M : Machine Op σ ι ε α)
    (sees : Config Op σ α -> Event ι ε -> List τ) (start : Config Op σ α) :
    List τ -> Config Op σ α -> Prop where
  | refl : Traces M sees start [] start
  | step {seen : List τ} {c c' : Config Op σ α} (event : Event ι ε) :
      Traces M sees start seen c ->
      M.step c event = some c' ->
      Traces M sees start (seen ++ sees c event) c'

variable {M : Machine Op σ ι ε α}
  {sees : Config Op σ α -> Event ι ε -> List τ}
  {start start' c c' : Config Op σ α} {seen seen' : List τ}

namespace Traces

theorem trans {middle : Config Op σ α}
    (hfirst : Traces M sees start seen middle)
    (hsecond : Traces M sees middle seen' c) :
    Traces M sees start (seen ++ seen') c := by
  induction hsecond with
  | refl =>
      rw [List.append_nil]
      exact hfirst
  | step event _ hstep ih =>
      rw [← List.append_assoc]
      exact .step event ih hstep

theorem one {event : Event ι ε} (hstep : M.step c event = some c') :
    Traces M sees c (sees c event) c' :=
  .step event .refl hstep

end Traces

def sightings (M : Machine Op σ ι ε α)
    (sees : Config Op σ α -> Event ι ε -> List τ) (input : ι) :
    Nat -> Config Op σ α -> List τ
  | 0, _ => []
  | fuel + 1, c =>
      match M.stepActor input c with
      | none => []
      | some c' => sees c (.actor input) ++ sightings M sees input fuel c'

theorem traces_settle (input : ι) (fuel : Nat) (c : Config Op σ α) :
    Traces M sees c (M.sightings sees input fuel c)
      (M.settle input fuel c) := by
  induction fuel generalizing c with
  | zero => exact .refl
  | succ fuel ih =>
      unfold sightings settle
      cases hstep : M.stepActor input c with
      | none => exact .refl
      | some c' =>
          have hfirst : Traces M sees c (sees c (.actor input)) c' :=
            .one hstep
          exact hfirst.trans (ih c')

/-- Every step on the left is answered by a run on the right. -/
def Simulates (M : Machine Op σ ι ε α)
    (sees : Config Op σ α -> Event ι ε -> List τ)
    (R : List τ -> Config Op σ α -> List τ -> Config Op σ α -> Prop) : Prop :=
  forall seen c seen' c' event d, R seen c seen' c' -> M.step c event = some d ->
    exists more d', Traces M sees c' more d' ∧
      R (seen ++ sees c event) d (seen' ++ more) d'

theorem Simulates.run
    {R : List τ -> Config Op σ α -> List τ -> Config Op σ α -> Prop}
    (hsimulates : M.Simulates sees R) (hstart : R [] start [] start')
    (h : Traces M sees start seen c) :
    exists seen' c', Traces M sees start' seen' c' ∧ R seen c seen' c' := by
  induction h with
  | refl => exact ⟨[], start', .refl, hstart⟩
  | step event _ hstep ih =>
      rcases ih with ⟨seen', c', htraces, hrelated⟩
      rcases hsimulates _ _ _ _ event _ hrelated hstep with
        ⟨more, d', hmore, hrelated'⟩
      exact ⟨seen' ++ more, d', htraces.trans hmore, hrelated'⟩

end Machine

theorem Prog.bind_assoc {Op : Type -> Type 1} {α β γ : Type} (p : Prog Op α)
    (f : α -> Prog Op β) (g : β -> Prog Op γ) :
    (p.bind f).bind g = p.bind fun a => (f a).bind g := by
  induction p with
  | pure a => rfl
  | throw => rfl
  | act op next ih =>
      show Prog.act op _ = Prog.act op _
      exact congrArg _ (funext fun b => ih b f)
  | loop body start next _ ih =>
      show Prog.loop body start _ = Prog.loop body start _
      exact congrArg _ (funext fun c => ih c f)

end Interleave

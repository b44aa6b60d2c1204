import Loac.Interleave.Prog

/-!
# Networks of machines

Machines that stand side by side and look at each other.  One of them takes an
event at a time.  What the others see of it is a step of their environment, and
a condition on all of them says which of these views belong together.
-/

namespace Interleave

variable {I : Type} {Op : Type -> Type 1} {σ ι ε α : Type}

/-- What happens to a machine while another one takes an event. -/
inductive Observes (M : Machine Op σ ι ε α) (c c' : Config Op σ α) : Prop where
  | nothing : c' = c -> Observes M c c'
  | something (e : ε) : M.step c (.env e) = some c' -> Observes M c c'

inductive Joint (M : I -> Machine Op σ ι ε α)
    (fits : (I -> Config Op σ α) -> Prop) (g g' : I -> Config Op σ α) :
    Prop where
  | step (i : I) (event : Event ι ε) :
      (M i).step (g i) event = some (g' i) ->
      (forall j, j ≠ i -> Observes (M j) (g j) (g' j)) ->
      fits g' ->
      Joint M fits g g'

def Runs (M : I -> Machine Op σ ι ε α)
    (fits : (I -> Config Op σ α) -> Prop) :
    (I -> Config Op σ α) -> (I -> Config Op σ α) -> Prop :=
  Relation.ReflTransGen (Joint M fits)

variable {M : I -> Machine Op σ ι ε α}
  {fits : (I -> Config Op σ α) -> Prop} {g g' start : I -> Config Op σ α}

theorem Joint.at (h : Joint M fits g g') (i : I) :
    g' i = g i ∨ exists event, (M i).step (g i) event = some (g' i) := by
  rcases h with ⟨j, event, hstep, hobserves, _⟩
  by_cases heq : i = j
  · subst heq
    exact Or.inr ⟨event, hstep⟩
  · cases hobserves i heq with
    | nothing hsame => exact Or.inl hsame
    | something e henv => exact Or.inr ⟨.env e, henv⟩

theorem Joint.fits_after (h : Joint M fits g g') : fits g' := by
  rcases h with ⟨_, _, _, _, hfits⟩
  exact hfits

theorem Runs.reaches (h : Runs M fits start g) (i : I) :
    Machine.Reaches (M i) Machine.Anything (start i) (g i) := by
  induction h with
  | refl => exact .refl
  | tail _ hjoint ih =>
      cases hjoint.at i with
      | inl hsame =>
          rw [hsame]
          exact ih
      | inr hstep =>
          rcases hstep with ⟨event, hstep⟩
          exact .step event ih trivial hstep

theorem Runs.fits_after (h : Runs M fits start g) (hstart : fits start) :
    fits g := by
  cases h with
  | refl => exact hstart
  | tail _ hjoint => exact hjoint.fits_after

end Interleave

import Loac.Interleave.Solo

/-!
# Histories

A history variable is carried along with the state.  It records what operations
are given and what they return, and influences nothing, so every run has a
history.
-/

namespace Interleave

variable {Op : Type -> Type 1} {σ τ ι ε α β : Type}

namespace Machine

def noting (M : Machine Op σ ι ε α)
    (note : {γ : Type} -> Op γ -> ι -> γ -> τ -> τ) :
    Machine Op (σ × τ) ι ε α where
  exec op input s :=
    (M.exec op input s.1).map fun r => ((r.1, note op input r.2 s.2), r.2)
  env e s := (M.env e s.1).map fun s' => (s', s.2)
  cancel := M.cancel

variable {M : Machine Op σ ι ε α} {note : {γ : Type} -> Op γ -> ι -> γ -> τ -> τ}

theorem noting_exec {γ : Type} {op : Op γ} {input : ι} {s s' : σ × τ} {b : γ}
    (h : (M.noting note).exec op input s = some (s', b)) :
    M.exec op input s.1 = some (s'.1, b) ∧ s'.2 = note op input b s.2 := by
  rcases Option.map_eq_some_iff.mp h with ⟨r, hexec, hs'⟩
  cases hs'
  exact ⟨hexec, rfl⟩

theorem noting_env {e : ε} {s s' : σ × τ}
    (h : (M.noting note).env e s = some s') :
    M.env e s.1 = some s'.1 ∧ s'.2 = s.2 := by
  rcases Option.map_eq_some_iff.mp h with ⟨r, henv, hs'⟩
  cases hs'
  exact ⟨henv, rfl⟩

def Config.recorded (c : Config Op σ β) (history : τ) :
    Config Op (σ × τ) β where
  state := (c.state, history)
  prog := c.prog

theorem noting_step {c c' : Config Op σ α} {event : Event ι ε} (history : τ)
    (hstep : M.step c event = some c') :
    exists history', (M.noting note).step (Config.recorded c history) event =
      some (Config.recorded c' history') := by
  cases event with
  | env e =>
      rcases Option.map_eq_some_iff.mp hstep with ⟨s, henv, hc'⟩
      subst hc'
      exact ⟨history, by simp [step, noting, Config.recorded, henv]⟩
  | actor input =>
      rcases c with ⟨s, prog⟩
      change M.stepActor input _ = _ at hstep
      cases prog with
      | pure a => cases hstep
      | throw => cases hstep
      | loop body start next =>
          cases hstep
          exact ⟨history, rfl⟩
      | act op next =>
          have hrecorded : (M.noting note).step
              (Config.recorded ⟨s, .act op next⟩ history) (.actor input) =
                (M.noting note).stepActor input
                  ⟨(s, history), .act op next⟩ := rfl
          rw [hrecorded]
          rw [stepActor] at hstep
          cases hcancel : M.cancel op input with
          | some p =>
              rw [hcancel] at hstep
              cases hstep
              exact ⟨history, by
                simp [stepActor, noting, Config.recorded, hcancel]⟩
          | none =>
              rw [hcancel] at hstep
              rcases Option.map_eq_some_iff.mp hstep with ⟨r, hexec, hc'⟩
              subst hc'
              exact ⟨note op input r.2 history, by
                simp [stepActor, noting, Config.recorded, hcancel, hexec]⟩

theorem Reaches.recorded {c c' : Config Op σ α} (history : τ)
    (h : Reaches M Anything c c') :
    exists history', Reaches (M.noting note) Anything
      (Config.recorded c history) (Config.recorded c' history') := by
  induction h with
  | refl => exact ⟨history, .refl⟩
  | @step middle c' event _ _ hstep ih =>
      rcases ih with ⟨before, hreach⟩
      have hnext : exists history', (M.noting note).step
          (Config.recorded middle before) event =
            some (Config.recorded c' history') := noting_step before hstep
      rcases hnext with ⟨history', hnext⟩
      exact ⟨history', .step event hreach trivial hnext⟩

end Machine

end Interleave

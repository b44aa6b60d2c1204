import Loac.Interleave.Prog

/-!
# Shadows

A machine may carry along a second account of its steps, computed from the
operation, its input and the state in which it runs.  The account changes
nothing, so a run of the machine with its shadow is a run of the machine.
-/

namespace Interleave

variable {Op : Type -> Type 1} {σ τ ι ε α β : Type}

def Config.shadowing (c : Config Op σ β) (shadow : τ) :
    Config Op (σ × τ) β where
  state := (c.state, shadow)
  prog := c.prog

namespace Machine

def shadowed (M : Machine Op σ ι ε α)
    (follow : {γ : Type} -> Op γ -> ι -> σ -> τ -> τ) :
    Machine Op (σ × τ) ι ε α where
  exec op input s :=
    (M.exec op input s.1).map fun r => ((r.1, follow op input s.1 s.2), r.2)
  env e s := (M.env e s.1).map fun s' => (s', s.2)
  cancel := M.cancel

variable {M : Machine Op σ ι ε α}
  {follow : {γ : Type} -> Op γ -> ι -> σ -> τ -> τ}

theorem shadowed_exec {γ : Type} {op : Op γ} {input : ι} {s s' : σ × τ} {b : γ}
    (h : (M.shadowed follow).exec op input s = some (s', b)) :
    M.exec op input s.1 = some (s'.1, b) ∧
      s'.2 = follow op input s.1 s.2 := by
  rcases Option.map_eq_some_iff.mp h with ⟨r, hexec, hs'⟩
  cases hs'
  exact ⟨hexec, rfl⟩

theorem shadowed_env {e : ε} {s s' : σ × τ}
    (h : (M.shadowed follow).env e s = some s') :
    M.env e s.1 = some s'.1 ∧ s'.2 = s.2 := by
  rcases Option.map_eq_some_iff.mp h with ⟨r, henv, hs'⟩
  cases hs'
  exact ⟨henv, rfl⟩

def Config.erased (c : Config Op (σ × τ) β) : Config Op σ β where
  state := c.state.1
  prog := c.prog

theorem erased_step {c c' : Config Op (σ × τ) α} {event : Event ι ε}
    (hstep : (M.shadowed follow).step c event = some c') :
    M.step (Config.erased c) event = some (Config.erased c') := by
  rcases c with ⟨s, prog⟩
  cases event with
  | env e =>
      rcases Option.map_eq_some_iff.mp hstep with ⟨s', henv, hc'⟩
      subst hc'
      simp [step, Config.erased, (shadowed_env henv).left]
  | actor input =>
      change (M.shadowed follow).stepActor input _ = _ at hstep
      cases prog with
      | pure a => cases hstep
      | throw => cases hstep
      | loop body start next =>
          cases hstep
          rfl
      | act op next =>
          show M.stepActor input ⟨s.1, .act op next⟩ = _
          rw [stepActor] at hstep ⊢
          cases hcancel : (M.shadowed follow).cancel op input with
          | some p =>
              have hcancelled : M.cancel op input = some p := hcancel
              rw [hcancel] at hstep
              rw [hcancelled]
              cases hstep
              rfl
          | none =>
              have hcancelled : M.cancel op input = none := hcancel
              rw [hcancel] at hstep
              rw [hcancelled]
              rcases Option.map_eq_some_iff.mp hstep with ⟨r, hexec, hc'⟩
              subst hc'
              simp [Config.erased, (shadowed_exec hexec).left]

theorem Reaches.erased {permitted : Config Op (σ × τ) α -> Event ι ε -> Prop}
    {c c' : Config Op (σ × τ) α}
    (h : Reaches (M.shadowed follow) permitted c c') :
    Reaches M Anything (Config.erased c) (Config.erased c') := by
  induction h with
  | refl => exact .refl
  | step event _ _ hstep ih => exact .step event ih trivial (erased_step hstep)

theorem shadowing_step {c c' : Config Op σ α} {event : Event ι ε} (shadow : τ)
    (hstep : M.step c event = some c') :
    exists shadow', (M.shadowed follow).step (Config.shadowing c shadow) event =
      some (Config.shadowing c' shadow') := by
  cases event with
  | env e =>
      rcases Option.map_eq_some_iff.mp hstep with ⟨s, henv, hc'⟩
      subst hc'
      exact ⟨shadow, by simp [step, shadowed, Config.shadowing, henv]⟩
  | actor input =>
      rcases c with ⟨s, prog⟩
      change M.stepActor input _ = _ at hstep
      cases prog with
      | pure a => cases hstep
      | throw => cases hstep
      | loop body start next =>
          cases hstep
          exact ⟨shadow, rfl⟩
      | act op next =>
          have hshadowed : (M.shadowed follow).step
              (Config.shadowing ⟨s, .act op next⟩ shadow) (.actor input) =
                (M.shadowed follow).stepActor input
                  ⟨(s, shadow), .act op next⟩ := rfl
          rw [hshadowed]
          rw [stepActor] at hstep
          cases hcancel : M.cancel op input with
          | some p =>
              rw [hcancel] at hstep
              cases hstep
              exact ⟨shadow, by
                simp [stepActor, shadowed, Config.shadowing, hcancel]⟩
          | none =>
              rw [hcancel] at hstep
              rcases Option.map_eq_some_iff.mp hstep with ⟨r, hexec, hc'⟩
              subst hc'
              exact ⟨follow op input s shadow, by
                simp [stepActor, shadowed, Config.shadowing, hcancel, hexec]⟩

theorem Reaches.shadowing {c c' : Config Op σ α} (shadow : τ)
    (h : Reaches M Anything c c') :
    exists shadow', Reaches (M.shadowed follow) Anything
      (Config.shadowing c shadow) (Config.shadowing c' shadow') := by
  induction h with
  | refl => exact ⟨shadow, .refl⟩
  | @step middle c' event _ _ hstep ih =>
      rcases ih with ⟨before, hreach⟩
      have hnext : exists shadow', (M.shadowed follow).step
          (Config.shadowing middle before) event =
            some (Config.shadowing c' shadow') := shadowing_step before hstep
      rcases hnext with ⟨shadow', hnext⟩
      exact ⟨shadow', .step event hreach trivial hnext⟩

end Machine

end Interleave

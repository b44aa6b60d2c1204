import Loac.Interleave.Prog

/-!
# Watched runs

A run is a list of events.  To say of a run that none of its steps was of some
kind, the steps are watched: a watched machine does what the machine does, and
remembers whether an operation ran in a state in which it is marked.
-/

namespace Interleave

namespace Machine

variable {Op : Type -> Type 1} {σ ι ε α : Type}

def after (M : Machine Op σ ι ε α) :
    List (Event ι ε) -> Config Op σ α -> Option (Config Op σ α)
  | [], c => some c
  | event :: rest, c =>
      match M.step c event with
      | none => none
      | some c' => M.after rest c'

def Passes (M : Machine Op σ ι ε α)
    (permitted : Config Op σ α -> Event ι ε -> Prop) :
    List (Event ι ε) -> Config Op σ α -> Prop
  | [], _ => True
  | event :: rest, c =>
      permitted c event ∧
        forall c', M.step c event = some c' -> M.Passes permitted rest c'

/-- A machine that remembers whether an operation ran where it is marked. -/
def watched (M : Machine Op σ ι ε α)
    (marks : {β : Type} -> Op β -> σ -> Prop) :
    Machine Op (σ × Prop) ι ε α where
  exec op input s :=
    (M.exec op input s.1).map fun r => ((r.1, s.2 ∨ marks op s.1), r.2)
  env e s := (M.env e s.1).map fun s' => (s', s.2)
  cancel := M.cancel

/-- The step runs no operation where it is marked. -/
def Unmarked (marks : {β : Type} -> Op β -> σ -> Prop)
    (c : Config Op σ α) : Event ι ε -> Prop
  | .env _ => True
  | .actor _ =>
      match c.prog with
      | .act op _ => ¬ marks op c.state
      | _ => True

def Config.watch (c : Config Op σ α) (alarm : Prop) :
    Config Op (σ × Prop) α where
  state := (c.state, alarm)
  prog := c.prog

variable {M : Machine Op σ ι ε α} {marks : {β : Type} -> Op β -> σ -> Prop}
  {c c' : Config Op σ α}

def Sparing (M : Machine Op σ ι ε α)
    (marks : {β : Type} -> Op β -> σ -> Prop) : Prop :=
  forall {β : Type} (op : Op β) (input : ι) (p : Prog Op α) (s : σ),
    M.cancel op input = some p -> ¬ marks op s

theorem watched_step (hsparing : M.Sparing marks) {event : Event ι ε}
    (alarm : Prop) (hstep : M.step c event = some c') :
    (M.watched marks).step (Config.watch c alarm) event =
      some (Config.watch c' (alarm ∨ ¬ Unmarked marks c event)) := by
  cases event with
  | env e =>
      rcases Option.map_eq_some_iff.mp hstep with ⟨s, henv, hc'⟩
      subst hc'
      simp [step, watched, Config.watch, Unmarked, henv]
  | actor input =>
      rcases c with ⟨s, prog⟩
      cases prog with
      | pure a => cases hstep
      | throw => cases hstep
      | loop body start next =>
          cases hstep
          simp only [Unmarked, not_true_eq_false, or_false]
          rfl
      | act op next =>
          have hstep' : M.stepActor input ⟨s, .act op next⟩ = some c' := hstep
          have hwatch : (M.watched marks).step
              (Config.watch ⟨s, .act op next⟩ alarm) (.actor input) =
                (M.watched marks).stepActor input
                  ⟨(s, alarm), .act op next⟩ := rfl
          rw [hwatch]
          rw [stepActor] at hstep'
          cases hcancel : M.cancel op input with
          | some p =>
              have hunmarked := hsparing op input p s hcancel
              rw [hcancel] at hstep'
              cases hstep'
              simp [stepActor, watched, Config.watch, Unmarked, hcancel,
                hunmarked]
          | none =>
              rw [hcancel] at hstep'
              rcases Option.map_eq_some_iff.mp hstep' with ⟨r, hexec, hc'⟩
              subst hc'
              simp [stepActor, watched, Config.watch, Unmarked, hcancel, hexec]

theorem watched_after (hsparing : M.Sparing marks)
    {events : List (Event ι ε)} (alarm : Prop)
    (hafter : M.after events c = some c') :
    exists alarm' : Prop,
      Reaches (M.watched marks) Anything (Config.watch c alarm)
        (Config.watch c' alarm') ∧
      (alarm' <-> alarm ∨ ¬ M.Passes (Unmarked marks) events c) := by
  induction events generalizing c alarm with
  | nil =>
      cases hafter
      exact ⟨alarm, .refl, by simp [Passes]⟩
  | cons event rest ih =>
      rw [after] at hafter
      cases hstep : M.step c event with
      | none =>
          rw [hstep] at hafter
          cases hafter
      | some next =>
          rw [hstep] at hafter
          rcases ih (alarm ∨ ¬ Unmarked marks c event) hafter with
            ⟨alarm', hreach, halarm⟩
          have hfirst : Reaches (M.watched marks) Anything
              (Config.watch c alarm) _ :=
            .step event .refl trivial (watched_step hsparing alarm hstep)
          refine ⟨alarm', hfirst.trans hreach, halarm.trans ?_⟩
          rw [Passes, or_assoc, Classical.not_and_iff_not_or_not]
          apply or_congr_right
          apply or_congr_right
          rw [hstep]
          simp

theorem watched_exec {β : Type} {op : Op β} {input : ι} {s s' : σ × Prop}
    {b : β} (h : (M.watched marks).exec op input s = some (s', b)) :
    M.exec op input s.1 = some (s'.1, b) ∧ s'.2 = (s.2 ∨ marks op s.1) := by
  rcases Option.map_eq_some_iff.mp h with ⟨r, hexec, hs'⟩
  cases hs'
  exact ⟨hexec, rfl⟩

theorem watched_env {e : ε} {s s' : σ × Prop}
    (h : (M.watched marks).env e s = some s') :
    M.env e s.1 = some s'.1 ∧ s'.2 = s.2 := by
  rcases Option.map_eq_some_iff.mp h with ⟨r, henv, hs'⟩
  cases hs'
  exact ⟨henv, rfl⟩

/-- A run without marked steps raises no alarm. -/
theorem Reaches.watched (hsparing : M.Sparing marks)
    (hreach : Reaches M (Unmarked marks) c c') :
    Reaches (M.watched marks) Anything (Config.watch c False)
      (Config.watch c' False) := by
  induction hreach with
  | refl => exact .refl
  | step event _ hpermitted hstep ih =>
      have hnext := watched_step hsparing False hstep
      rw [false_or, eq_false (not_not_intro hpermitted)] at hnext
      exact .step event ih trivial hnext

end Machine

end Interleave

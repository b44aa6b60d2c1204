import Loac.Interleave.Prog

/-!
# Commit points

An operation with a certain result may be the last one of a program: right
after it the program returns, and what it returns tells that it committed.
That can be read off the program and does not depend on the state.
-/

namespace Interleave

abbrev Commit (Op : Type -> Type 1) : Type 1 :=
  {β : Type} -> Op β -> β -> Prop

variable {Op : Type -> Type 1} {σ ι ε α β γ : Type}

namespace Prog

/-- Right after it committed the program returns one of these values. -/
def Commits (K : Commit Op) : {α : Type} -> Prog Op α -> (α -> Prop) -> Prop
  | _, .pure _, _ => True
  | _, .throw, _ => True
  | _, .act op next, R => forall b,
      (K op b -> exists a, next b = .pure a ∧ R a) ∧ Commits K (next b) R
  | _, .loop body _ next, R =>
      (forall b, Commits K (body b) (fun _ => False)) ∧
        forall c, Commits K (next c) R

abbrev Withholds (K : Commit Op) (p : Prog Op α) : Prop :=
  p.Commits K (fun _ => False)

namespace Commits

variable {K : Commit Op}

theorem mono {p : Prog Op α} {R R' : α -> Prop} (hR : forall a, R a -> R' a)
    (h : p.Commits K R) : p.Commits K R' := by
  induction p with
  | pure a => trivial
  | throw => trivial
  | act op next ih =>
      intro b
      refine ⟨?_, ih b hR (h b).right⟩
      intro hb
      rcases (h b).left hb with ⟨a, hnext, ha⟩
      exact ⟨a, hnext, hR a ha⟩
  | loop body start next _ ihNext =>
      exact ⟨h.left, fun c => ihNext c hR (h.right c)⟩

theorem pure {a : α} {R : α -> Prop} :
    Commits K (Pure.pure a : Prog Op α) R := trivial

theorem throw {R : α -> Prop} : Commits K (.throw : Prog Op α) R := trivial

theorem perform {op : Op β} {R : β -> Prop} (h : forall b, K op b -> R b) :
    Commits K (Prog.perform op) R :=
  fun b => ⟨fun hb => ⟨b, rfl, h b hb⟩, trivial⟩

theorem bind {p : Prog Op α} {f : α -> Prog Op β} {P : α -> Prop}
    {R : β -> Prop} (hp : p.Commits K P)
    (hreturns : forall a, P a -> exists b, f a = .pure b ∧ R b)
    (hf : forall a, (f a).Commits K R) : Commits K (p >>= f) R := by
  show Commits K (p.bind f) R
  induction p with
  | pure a => exact hf a
  | throw => trivial
  | act op next ih =>
      intro b
      constructor
      · intro hb
        rcases (hp b).left hb with ⟨a, hnext, ha⟩
        rcases hreturns a ha with ⟨c, hc, hR⟩
        refine ⟨c, ?_, hR⟩
        show (next b).bind f = _
        rw [hnext]
        exact hc
      · exact ih b (hp b).right hreturns hf
  | loop body start next _ ihNext =>
      exact ⟨hp.left, fun c => ihNext c (hp.right c) hreturns hf⟩

/-- Sequencing after a program that does not commit. -/
theorem seq {p : Prog Op α} {f : α -> Prog Op β} {R : β -> Prop}
    (hp : p.Withholds K) (hf : forall a, (f a).Commits K R) :
    Commits K (p >>= f) R :=
  bind hp (fun _ h => h.elim) hf

theorem iter {start : β} {body : β -> Prog Op (β ⊕ γ)} {R : γ -> Prop}
    (hbody : forall b, (body b).Withholds K) :
    Commits K (Prog.iter start body) R :=
  ⟨hbody, fun _ => trivial⟩

end Commits

end Prog

namespace Machine

variable {M : Machine Op σ ι ε α} {K : Commit Op} {R : α -> Prop}
  {c c' : Config Op σ α}

theorem Commits.step (hcancel : forall {β : Type} (op : Op β) (input : ι) p,
      M.cancel op input = some p -> p.Withholds K)
    (h : c.prog.Commits K R) {input : ι}
    (hstep : M.stepActor input c = some c') :
    c'.prog.Commits K R := by
  rcases c with ⟨s, prog⟩
  cases prog with
  | pure a => cases hstep
  | throw => cases hstep
  | loop body start next =>
      cases hstep
      apply Prog.Commits.seq (h.left start)
      intro r
      cases r with
      | inl b => exact h
      | inr d => exact h.right d
  | act op next =>
      rw [stepActor] at hstep
      cases hop : M.cancel op input with
      | some p =>
          rw [hop] at hstep
          cases hstep
          exact (hcancel op input p hop).mono (fun _ h => h.elim)
      | none =>
          rw [hop] at hstep
          rcases Option.map_eq_some_iff.mp hstep with ⟨r, _, hc'⟩
          subst hc'
          exact (h r.2).right

end Machine

end Interleave

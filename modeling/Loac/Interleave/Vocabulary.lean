import Loac.Interleave.Logic

/-!
# The vocabulary of a program

Of most code it is enough to know which operations it uses, and which values it
returns given what these operations may give.  That does not depend on the
state.  A property that every operation of a vocabulary keeps is kept by every
program within that vocabulary.
-/

namespace Interleave

structure Vocabulary (Op : Type -> Type 1) where
  uses : {β : Type} -> Op β -> Prop
  gives : {β : Type} -> Op β -> β -> Prop

variable {Op : Type -> Type 1} {α β γ : Type}

namespace Prog

/-- The program uses only the vocabulary and returns only such values. -/
def Within (S : Vocabulary Op) : {α : Type} -> Prog Op α -> (α -> Prop) -> Prop
  | _, .pure a, R => R a
  | _, .throw, _ => True
  | _, .act op next, R =>
      S.uses op ∧ forall b, S.gives op b -> Within S (next b) R
  | _, .loop (β := β) (γ := γ) body start next, R =>
      exists I : β -> Prop, I start ∧ forall b, I b ->
        Within S (body b)
          (fun (r : β ⊕ γ) =>
            match r with
            | .inl b' => I b'
            | .inr c => Within S (next c) R)

/-- Nothing is said about the values. -/
abbrev Uses (S : Vocabulary Op) (p : Prog Op α) : Prop :=
  p.Within S (fun _ => True)

variable {S : Vocabulary Op}

namespace Within

theorem mono {p : Prog Op α} {R R' : α -> Prop} (hR : forall a, R a -> R' a)
    (h : p.Within S R) : p.Within S R' := by
  induction p with
  | pure a => exact hR _ h
  | throw => trivial
  | act op next ih => exact ⟨h.left, fun b hb => ih b hR (h.right b hb)⟩
  | loop body start next ihBody ihNext =>
      rcases h with ⟨I, hI, hbody⟩
      refine ⟨I, hI, fun b hb => ihBody b ?_ (hbody b hb)⟩
      intro r hr
      cases r with
      | inl b' => exact hr
      | inr c => exact ihNext c hR hr

theorem uses {p : Prog Op α} {R : α -> Prop} (h : p.Within S R) : p.Uses S :=
  h.mono (fun _ _ => trivial)

theorem pure {a : α} {R : α -> Prop} (h : R a) :
    Within S (Pure.pure a : Prog Op α) R := h

theorem throw {R : α -> Prop} : Within S (.throw : Prog Op α) R := trivial

theorem perform {op : Op β} {R : β -> Prop} (h : S.uses op)
    (hR : forall b, S.gives op b -> R b) : Within S (Prog.perform op) R :=
  ⟨h, hR⟩

theorem bind {p : Prog Op α} {f : α -> Prog Op β} {P : α -> Prop}
    {R : β -> Prop} (hp : p.Within S P)
    (hf : forall a, P a -> (f a).Within S R) : Within S (p >>= f) R := by
  show Within S (p.bind f) R
  induction p with
  | pure a => exact hf a hp
  | throw => trivial
  | act op next ih =>
      exact ⟨hp.left, fun b hb => ih b (hp.right b hb) hf⟩
  | loop body start next _ ihNext =>
      rcases hp with ⟨I, hI, hbody⟩
      refine ⟨I, hI, fun b hb => (hbody b hb).mono ?_⟩
      intro r hr
      cases r with
      | inl b' => exact hr
      | inr c => exact ihNext c hr hf

/-- Sequencing when the value in between does not matter. -/
theorem seq {p : Prog Op α} {f : α -> Prog Op β} {R : β -> Prop}
    (hp : p.Uses S) (hf : forall a, (f a).Within S R) :
    Within S (p >>= f) R :=
  bind hp (fun a _ => hf a)

theorem iter {start : β} {body : β -> Prog Op (β ⊕ γ)} {R : γ -> Prop}
    (I : β -> Prop) (hstart : I start)
    (hbody : forall b, I b -> (body b).Within S
      (fun r =>
        match r with
        | .inl b' => I b'
        | .inr c => R c)) : Within S (Prog.iter start body) R :=
  ⟨I, hstart, hbody⟩

/-- A loop whose rounds all return only such values. -/
theorem repeated {start : β} {body : β -> Prog Op (β ⊕ γ)} {R : γ -> Prop}
    (hbody : forall b, (body b).Within S (Sum.elim (fun _ => True) R)) :
    Within S (Prog.iter start body) R := by
  apply iter (fun _ => True) trivial
  intro b _
  apply (hbody b).mono
  intro r hr
  cases r with
  | inl _ => trivial
  | inr _ => exact hr

theorem ite {condition : Prop} [Decidable condition] {p q : Prog Op α}
    {R : α -> Prop} (hp : p.Within S R) (hq : q.Within S R) :
    Within S (if condition then p else q) R := by
  by_cases h : condition
  · rw [if_pos h]
    exact hp
  · rw [if_neg h]
    exact hq

theorem onlyIf {condition : Bool} {p : Prog Op Unit} (hp : p.Uses S) :
    (Prog.onlyIf condition p).Uses S := by
  cases condition with
  | false => trivial
  | true => exact hp

theorem forEach {items : List β} {f : β -> Prog Op Unit}
    (hf : forall b, (f b).Uses S) : (Prog.forEach items f).Uses S := by
  induction items with
  | nil => trivial
  | cons item rest ih => exact seq (hf item) (fun _ => ih)

/-- What a program returns, it also returns where unwinding is caught. -/
theorem attempt {p : Prog Op α} {R : α -> Prop} (h : p.Within S R) :
    p.attempt.Within S (fun r => forall a, r = some a -> R a) := by
  induction p with
  | pure a =>
      intro a' heq
      cases heq
      exact h
  | throw =>
      intro a heq
      cases heq
  | act op next ih => exact ⟨h.left, fun b hb => ih b (h.right b hb)⟩
  | loop body start next ihBody ihNext =>
      rcases h with ⟨I, hI, hbody⟩
      rw [Prog.attempt]
      refine ⟨I, hI, fun b hb => bind (ihBody b (hbody b hb)) ?_⟩
      intro r hr
      cases r with
      | none =>
          intro a heq
          cases heq
      | some r' =>
          cases r' with
          | inl b' => exact hr _ rfl
          | inr c => exact ihNext c (hr _ rfl)

theorem onExit {p : Prog Op α} {cleanup : Prog Op Unit} {R : α -> Prop}
    (hp : p.Within S R) (hcleanup : cleanup.Uses S) :
    (Prog.onExit p cleanup).Within S R := by
  apply bind hp.attempt
  intro r hr
  cases r with
  | none => exact seq hcleanup (fun _ => throw)
  | some a => exact seq hcleanup (fun _ => hr a rfl)

end Within

end Prog

/-!
## What a vocabulary keeps
-/

variable {σ ι ε ρ : Type} {M : Machine Op σ ι ε ρ} {D : Discipline M}
  {S : Vocabulary Op} {K : σ -> Prop}

structure Vocabulary.Keeps (S : Vocabulary Op) (D : Discipline M)
    (K : σ -> Prop) : Prop where
  stable : D.Stable K
  op : forall {β : Type} (op : Op β), S.uses op -> forall s, D.inv s -> K s ->
    D.demands op s ∧ forall input s' b, D.admits op input s ->
      M.exec op input s = some (s', b) -> D.inv s' -> K s' ∧ S.gives op b

def Vocabulary.all : Vocabulary Op where
  uses := fun _ => True
  gives := fun _ _ => True

theorem Prog.uses_all (p : Prog Op α) : p.Uses Vocabulary.all := by
  induction p with
  | pure a => trivial
  | throw => trivial
  | act op next ih => exact ⟨trivial, fun b _ => ih b⟩
  | loop body start next ihBody ihNext =>
      refine ⟨fun _ => True, trivial, fun b _ => (ihBody b).mono ?_⟩
      intro r _
      cases r with
      | inl b' => trivial
      | inr c => exact ihNext c

/-- A single operation does not unwind. -/
theorem Vocabulary.Keeps.perform (h : S.Keeps D K) (op : Op β)
    (hop : S.uses op) {X : σ -> Prop} :
    Interleave.Keeps D K X (Prog.perform op) := by
  intro s hs
  apply wp.op h.stable hs
  intro s' hinv hs'
  have hkept := h.op op hop s' hinv hs'
  exact ⟨hkept.left, fun input s'' b hadmits hexec hinv' =>
    (hkept.right input s'' b hadmits hexec hinv').left⟩

namespace Prog.Within

theorem wp {p : Prog Op α} {R : α -> Prop} (h : p.Within S R)
    (hkeeps : S.Keeps D K) {s : σ} (hs : K s) :
    Interleave.wp D p (fun a s => K s ∧ R a) K s := by
  induction p generalizing s with
  | pure a => exact ⟨hs, h⟩
  | throw => exact hs
  | act op next ih =>
      intro s' hrely hinv
      have hop := hkeeps.op op h.left s' hinv (hrely.keeps hkeeps.stable hs)
      refine ⟨hop.left, ?_⟩
      intro input s'' b hadmits hexec hinv'
      have hkept := hop.right input s'' b hadmits hexec hinv'
      exact ih b (h.right b hkept.right) hkept.left
  | loop body start next ihBody ihNext =>
      rcases h with ⟨I, hI, hbody⟩
      refine ⟨fun b s => I b ∧ K s, ⟨hI, hs⟩, ?_⟩
      intro b s' hs'
      apply wp.mono _ (fun _ hX => hX) (ihBody b (hbody b hs'.left) hs'.right)
      intro r s'' hr
      cases r with
      | inl b' => exact ⟨hr.right, hr.left⟩
      | inr c => exact ihNext c hr.right hr.left

theorem keeps {p : Prog Op α} {R : α -> Prop} (h : p.Within S R)
    (hkeeps : S.Keeps D K) : Interleave.Keeps D K K p :=
  fun _ hs => Interleave.wp.mono (fun _ _ hQ => hQ.left) (fun _ hX => hX)
    (h.wp hkeeps hs)

end Prog.Within

/-!
## Programs that are not cancelled
-/

section Uncancelled

variable {c c' start : Config Op σ ρ} {Q : ρ -> σ -> Prop} {X : σ -> Prop}

/-- A step of a program stays within a vocabulary that is not cancelled. -/
theorem Prog.Within.step {event : Event ι ε} {R : ρ -> Prop}
    (hgives : forall {β : Type} (op : Op β) (b : β), S.gives op b)
    (huncancelled : forall {β : Type} (op : Op β) (input : ι),
      S.uses op -> M.cancel op input = none)
    (hstep : M.step c event = some c') (h : c.prog.Within S R) :
    c'.prog.Within S R := by
  cases event with
  | env e =>
      rcases Option.map_eq_some_iff.mp hstep with ⟨s, _, hc'⟩
      subst hc'
      exact h
  | actor input =>
      rcases c with ⟨s, prog⟩
      change M.stepActor input _ = _ at hstep
      cases prog with
      | pure a => cases hstep
      | throw => cases hstep
      | act op next =>
          rw [Machine.stepActor, huncancelled op input h.left] at hstep
          rcases Option.map_eq_some_iff.mp hstep with ⟨⟨s', b⟩, _, hc'⟩
          subst hc'
          exact h.right b (hgives op b)
      | loop body start next =>
          cases hstep
          rcases h with ⟨I, hI, hbody⟩
          apply Prog.Within.bind (hbody start hI)
          intro r hr
          cases r with
          | inl b => exact ⟨I, hr, hbody⟩
          | inr c => exact hr

/-- A run of a program whose operations are never cancelled. -/
theorem Safe.uncancelled (hlawful : D.Lawful)
    (hgives : forall {β : Type} (op : Op β) (b : β), S.gives op b)
    (huncancelled : forall {β : Type} (op : Op β) (input : ι),
      S.uses op -> M.cancel op input = none)
    (huses : start.prog.Uses S) (hstart : Safe D Q X start)
    (hreach : Machine.Reaches M D.Permits start c) :
    Safe D Q X c ∧ c.prog.Uses S := by
  induction hreach with
  | refl => exact ⟨hstart, huses⟩
  | step event _ hpermits hstep ih =>
      refine ⟨?_, ih.right.step hgives huncancelled hstep⟩
      cases event with
      | env e => exact Safe.env_step hlawful hpermits hstep ih.left
      | actor input =>
          refine Safe.actor_step_of hlawful ?_ hpermits hstep ih.left
          intro β op next p hprog hcancel
          have huses := ih.right
          rw [hprog] at huses
          rw [huncancelled op input huses.left] at hcancel
          cases hcancel

end Uncancelled

end Interleave

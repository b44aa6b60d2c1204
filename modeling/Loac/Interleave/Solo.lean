import Loac.Interleave.Vocabulary
import Loac.Interleave.Watch

/-!
# Programs run on their own

A piece of a program is run on its own, from any state, interleaved with the
environment.  Nobody drops it on the way.
-/

namespace Interleave

variable {Op : Type -> Type 1} {σ ι ε α β : Type}

def Config.hasReturned (c : Config Op σ β) : Bool :=
  match c.prog with
  | .pure _ => true
  | _ => false

namespace Machine

def solo (M : Machine Op σ ι ε α) (β : Type) : Machine Op σ ι ε β where
  exec := M.exec
  env := M.env
  cancel := fun _ _ => none

def Meets (M : Machine Op σ ι ε α) (p : Prog Op β) (s : σ)
    (c : Config Op σ β) : Prop :=
  Reaches (M.solo β) Anything ⟨s, p⟩ c

/-- The program can return the value, in the second state. -/
def Returns (M : Machine Op σ ι ε α) (p : Prog Op β) (s s' : σ) (b : β) : Prop :=
  M.Meets p s ⟨s', .pure b⟩

def Unwinds (M : Machine Op σ ι ε α) (p : Prog Op β) (s s' : σ) : Prop :=
  M.Meets p s ⟨s', .throw⟩

theorem Meets.returned {M : Machine Op σ ι ε α} {p : Prog Op β} {s : σ}
    {c : Config Op σ β} (h : M.Meets p s c) (hreturned : c.hasReturned = true) :
    exists b, M.Returns p s c.state b := by
  rcases c with ⟨s', prog⟩
  cases prog with
  | pure b => exact ⟨b, h⟩
  | _ => cases hreturned

end Machine

/-!
## Reasoning
-/

namespace Discipline

/-- Everything is considered, and nothing is claimed of it. -/
def free (M : Machine Op σ ι ε α) : Discipline M where
  inv := fun _ => True
  admits := fun _ _ _ => True
  tolerates := fun _ _ => True
  demands := fun _ _ => True

theorem free_lawful {M : Machine Op σ ι ε α} : (free M).Lawful where
  actor := fun _ _ _ _ _ _ _ _ _ => trivial
  env := fun _ _ _ _ _ _ => trivial

end Discipline

namespace Machine

variable {M : Machine Op σ ι ε α} {p : Prog Op β} {s s' : σ}

theorem Meets.safe {D : Discipline (M.solo β)} {Q : β -> σ -> Prop}
    {X : σ -> Prop} {c : Config Op σ β} (hlawful : D.Lawful)
    (hadmits : forall {γ : Type} (op : Op γ) input s, D.admits op input s)
    (htolerates : forall e s, D.tolerates e s) (hinv : D.inv s)
    (hwp : wp D p Q X s) (h : M.Meets p s c) : Safe D Q X c := by
  refine Safe.run hlawful ?_ ⟨hinv, s, .refl, hwp⟩ (h.weaken ?_)
  · intro γ op input p s hcancel
    cases hcancel
  · intro c event _
    exact Discipline.permits_all hadmits htolerates c event

theorem Returns.holds {Q : β -> σ -> Prop} {X : σ -> Prop} {b : β}
    (hstable : (Discipline.free (M.solo β)).Stable (Q b))
    (hwp : wp (Discipline.free (M.solo β)) p Q X s)
    (h : M.Returns p s s' b) : Q b s' :=
  (Meets.safe Discipline.free_lawful (fun _ _ _ => trivial) (fun _ _ => trivial)
    trivial hwp h).returned hstable

theorem Unwinds.holds {Q : β -> σ -> Prop} {X : σ -> Prop}
    (hstable : (Discipline.free (M.solo β)).Stable X)
    (hwp : wp (Discipline.free (M.solo β)) p Q X s)
    (h : M.Unwinds p s s') : X s' :=
  (Meets.safe Discipline.free_lawful (fun _ _ _ => trivial) (fun _ _ => trivial)
    trivial hwp h).unwound hstable

end Machine

end Interleave
